/-! # JSON values

The values of JSON, with numbers restricted to natural numbers.  An object lists its members in the
order in which they are written. -/

namespace LoxSyntax

/-- A JSON value. -/
inductive Json where
  | null
  | bool (value : Bool)
  | number (value : Nat)
  | string (value : String)
  | array (items : List Json)
  | object (members : List (String × Json))

namespace Json

/-- A text, or `null` if there is none. -/
def ofText? : Option String → Json
  | some text => string text
  | none => null

/-- Inserts a member before the first one with a greater name. -/
def insertMember (member : String × Json) : List (String × Json) → List (String × Json)
  | [] => [member]
  | next :: rest =>
    if member.1 ≤ next.1 then member :: next :: rest else next :: insertMember member rest

/-- Puts the members of an object into the order of their names. -/
def sortMembers (members : List (String × Json)) : List (String × Json) :=
  members.foldr insertMember []

mutual

/-- The same value with the members of every object in the order of their names. -/
def sorted : Json → Json
  | array items => array (sortedItems items)
  | object members => object (sortMembers (sortedMembers members))
  | value => value

/-- The items of an array, each sorted. -/
def sortedItems : List Json → List Json
  | [] => []
  | item :: rest => item.sorted :: sortedItems rest

/-- The members of an object, each with its value sorted. -/
def sortedMembers : List (String × Json) → List (String × Json)
  | [] => []
  | (name, value) :: rest => (name, value.sorted) :: sortedMembers rest

end

end Json

end LoxSyntax
