import LoxSyntax.CommandLine.Input

/-! # Folders in memory

A folder with files in it, for running the command without a disk.  A path is looked up name by
name from the folder, as an operating system does: it may not go through a file, and it must not
end at a directory. -/

namespace LoxSyntax.CommandLine

/-- The content of a file and its path, name by name. -/
structure StoredFile where
  path : List String
  content : ByteArray

/-- Files in a folder and below it. -/
abbrev Folder := List StoredFile

namespace Folder

/-- The names of a path from the outermost to the innermost. -/
def names (path : String) : List String :=
  (path.toList.splitOn '/').map String.ofList

/-- Why nothing can be read outside the folder: a path either names a directory there without going
    into any, or goes into one that is not known. -/
def outside (names : List String) : ReadError :=
  if names.all fun name => name = "" || name = "." || name = ".." then .isADirectory
  else .noSuchFile

/-- The bytes of the file that a path leads to from a directory of the folder.  Empty names and
    single dots stay in the directory, and two dots go to the one that holds it. -/
def lookup (folder : Folder) (directory : List String) :
    List String → Except ReadError ByteArray
  | [] => .error .isADirectory
  | name :: rest =>
    if name = "" || name = "." then
      folder.lookup directory rest
    else if name = ".." then
      match directory with
      | [] => .error (outside rest)
      | _ :: _ => folder.lookup directory.dropLast rest
    else
      let path := directory ++ [name]
      match folder.find? (·.path = path) with
      | some file => if rest.isEmpty then .ok file.content else .error .notADirectory
      | none =>
        if folder.any fun file => path.isPrefixOf file.path then
          folder.lookup path rest
        else
          .error .noSuchFile

/-- The text of an input, if the folder is the current one and the standard input holds some
    bytes. -/
def read (folder : Folder) (standardInput : ByteArray) : Input → Except ReadError String
  | .standardInput => decodeText standardInput
  | .file path =>
    if path = "" then
      .error .noSuchFile
    else if path.toList.head? = some '/' then
      .error (outside (names path))
    else
      match folder.lookup [] (names path) with
      | .ok bytes => decodeText bytes
      | .error error => .error error

end Folder

end LoxSyntax.CommandLine
