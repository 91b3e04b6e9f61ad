import LoxSyntax.Proofs.CommandLine.Flags

/-! # The order of the arguments

What arguments ask for does not depend on their order.  An argument that can be followed sets a
field of the options or gives the path (`add_eq_ok_iff`), and so the options of a list of arguments
can be read off the list without walking along it (`Collects.of_addAll`, `Collects.unique`).  The
order matters only to arguments that cannot be followed: the leftmost one at fault is reported
(`ofArguments_eq_error_iff`).  `ofArguments_order` draws this together. -/

namespace LoxSyntax.CommandLine

/-- The options that begin with two hyphens. -/
def longOptions : List String := ["--tokens", "--json", "--trace", "--help"]

/-- Whether an argument begins with two hyphens and is no option. -/
def IsUnknownOption (argument : String) : Prop :=
  "--".toList <+: argument.toList ∧ argument ∉ longOptions

/-- Whether an argument is a path. -/
def IsPath (argument : String) : Prop := argument ≠ "-h" ∧ ¬"--".toList <+: argument.toList

/-- Whether an argument asks for help. -/
def IsHelp (argument : String) : Prop := argument = "-h" ∨ argument = "--help"

instance : DecidablePred IsUnknownOption := fun _ => inferInstanceAs (Decidable (_ ∧ _))

instance : DecidablePred IsPath := fun _ => inferInstanceAs (Decidable (_ ∧ _))

instance : DecidablePred IsHelp := fun _ => inferInstanceAs (Decidable (_ ∨ _))

/-- An argument cannot be followed behind some others, for a reason. -/
inductive IsFault (front : List String) (argument : String) : UsageError → Prop
  | unknownOption (unknown : IsUnknownOption argument) :
    IsFault front argument (.unknownOption argument)
  | secondPath (isPath : IsPath argument) (earlier : ∃ other ∈ front, IsPath other) :
    IsFault front argument (.secondPath argument)

/-- Some arguments, in whatever order, add up with options to further options. -/
structure Collects (options : Options) (arguments : List String) (result : Options) : Prop where
  known : ∀ argument ∈ arguments, ¬IsUnknownOption argument
  path_eq : result.path.toList = options.path.toList ++ arguments.filter (IsPath ·)
  isSet_iff : ∀ flag : Flag,
    flag.isSet result = true ↔ flag.isSet options = true ∨ flag.argument ∈ arguments
  help_iff : result.help = true ↔ options.help = true ∨ ∃ argument ∈ arguments, IsHelp argument

variable {options next result result' : Options} {argument : String}
  {arguments permuted front back : List String} {error : UsageError}

/-! ## One argument -/

/-- An argument looks like an option if it begins with two hyphens. -/
private theorem looksLikeOption_iff :
    Options.looksLikeOption argument = true ↔ "--".toList <+: argument.toList :=
  List.isPrefixOf_iff_prefix

/-- An argument is a flag, asks for help, is an unknown option or is a path. -/
private theorem argument_cases (argument : String) :
    (∃ flag : Flag, argument = flag.argument) ∨ IsHelp argument ∨ IsUnknownOption argument ∨
      IsPath argument := by
  by_cases dashes : "--".toList <+: argument.toList
  · by_cases known : argument ∈ longOptions
    · simp only [longOptions, List.mem_cons, List.not_mem_nil, or_false] at known
      -- Three of the options that begin with two hyphens are flags, and the fourth asks for help.
      rcases known with rfl | rfl | rfl | rfl
      · exact .inl ⟨.tokens, rfl⟩
      · exact .inl ⟨.json, rfl⟩
      · exact .inl ⟨.trace, rfl⟩
      · exact .inr (.inl (.inr rfl))
    · exact .inr (.inr (.inl ⟨dashes, known⟩))
  · by_cases help : argument = "-h"
    · exact .inr (.inl (.inl help))
    · exact .inr (.inr (.inr ⟨help, dashes⟩))

namespace Options

/-- Asking for help sets the field for it. -/
private theorem add_help (help : IsHelp argument) :
    options.add argument = .ok { options with help := true } := by
  rcases help with rfl | rfl
  · rfl
  · rfl

/-- An unknown option is refused. -/
private theorem add_unknownOption (unknown : IsUnknownOption argument) :
    options.add argument = .error (.unknownOption argument) := by
  obtain ⟨dashes, unlisted⟩ := unknown
  have notShort : argument ≠ "-h" := by
    rintro rfl
    exact absurd dashes (by decide)
  simp only [longOptions, List.mem_cons, List.not_mem_nil, or_false, not_or] at unlisted
  simp [add, unlisted, notShort, looksLikeOption_iff.mpr dashes]

/-- A path is taken if it is the first one. -/
private theorem add_path (isPath : IsPath argument) :
    options.add argument =
      if options.path.isSome then .error (.secondPath argument)
      else .ok { options with path := some argument } := by
  obtain ⟨notShort, noDashes⟩ := isPath
  have dashes : ∀ option ∈ longOptions, "--".toList <+: option.toList := by decide
  have unlisted : argument ∉ longOptions := fun listed => noDashes (dashes argument listed)
  simp only [longOptions, List.mem_cons, List.not_mem_nil, or_false, not_or] at unlisted
  simp [add, unlisted, notShort, mt looksLikeOption_iff.mp noDashes]

/-- What an argument that can be followed does to options. -/
theorem add_eq_ok_iff : options.add argument = .ok next ↔
    (∃ flag : Flag, argument = flag.argument ∧ next = flag.put true options) ∨
    (IsHelp argument ∧ next = { options with help := true }) ∨
    (IsPath argument ∧ options.path = .none ∧ next = { options with path := some argument }) := by
  constructor
  · intro added
    rcases argument_cases argument with ⟨flag, rfl⟩ | help | unknown | isPath
    · rw [add_flag] at added
      exact .inl ⟨flag, rfl, (Except.ok.inj added).symm⟩
    · rw [add_help help] at added
      exact .inr (.inl ⟨help, (Except.ok.inj added).symm⟩)
    · rw [add_unknownOption unknown] at added
      cases added
    · rw [add_path isPath] at added
      -- A path is only taken if there is none yet.
      cases path : options.path with
      | some other => simp [path] at added
      | none =>
        simp only [path, Option.isSome_none, Bool.false_eq_true, if_false] at added
        exact .inr (.inr ⟨isPath, rfl, (Except.ok.inj added).symm⟩)
  · rintro (⟨flag, rfl, rfl⟩ | ⟨help, rfl⟩ | ⟨isPath, path, rfl⟩)
    · exact add_flag flag options
    · exact add_help help
    · simp [add_path isPath, path]

/-- Why an argument cannot be followed. -/
private theorem add_eq_error_iff : options.add argument = .error error ↔
    (IsUnknownOption argument ∧ error = .unknownOption argument) ∨
    (IsPath argument ∧ options.path ≠ .none ∧ error = .secondPath argument) := by
  constructor
  · intro refused
    -- Of the four kinds of arguments, flags and the call for help are never refused.
    rcases argument_cases argument with ⟨flag, rfl⟩ | help | unknown | isPath
    · rw [add_flag] at refused
      cases refused
    · rw [add_help help] at refused
      cases refused
    · rw [add_unknownOption unknown] at refused
      exact .inl ⟨unknown, (Except.error.inj refused).symm⟩
    · rw [add_path isPath] at refused
      split at refused
      · next taken =>
        exact .inr ⟨isPath, Option.isSome_iff_ne_none.mp taken, (Except.error.inj refused).symm⟩
      · cases refused
  · rintro (⟨unknown, rfl⟩ | ⟨isPath, taken, rfl⟩)
    · exact add_unknownOption unknown
    · rw [add_path isPath, if_pos (Option.isSome_iff_ne_none.mpr taken)]

/-- An argument gives the path if it is one, and otherwise leaves it as it is. -/
private theorem path_add (added : options.add argument = .ok next) :
    next.path.toList = options.path.toList ++ [argument].filter (IsPath ·) := by
  rcases add_eq_ok_iff.mp added with ⟨flag, rfl, rfl⟩ | ⟨help, rfl⟩ | ⟨isPath, path, rfl⟩
  · have notPath : ¬IsPath flag.argument := by cases flag <;> decide
    simp [notPath]
  · have notPath : ¬IsPath argument := by rcases help with rfl | rfl <;> decide
    simp [notPath]
  · simp [isPath, path]

/-- An argument asks for help, or leaves that as it is. -/
private theorem help_add (added : options.add argument = .ok next) :
    next.help = true ↔ options.help = true ∨ IsHelp argument := by
  rcases add_eq_ok_iff.mp added with ⟨flag, rfl, rfl⟩ | ⟨help, rfl⟩ | ⟨isPath, path, rfl⟩
  · have notHelp : ¬IsHelp flag.argument := by cases flag <;> decide
    simp [notHelp]
  · simp [help]
  · -- What asks for help is no path.
    have notHelp : ¬IsHelp argument := by
      rintro (rfl | rfl)
      · exact absurd isPath (by decide)
      · exact absurd isPath (by decide)
    simp [notHelp]

end Options

/-! ## Many arguments -/

namespace Collects

/-- No arguments ask for nothing. -/
private theorem nil (options : Options) : Collects options [] options where
  known _ member := absurd member List.not_mem_nil
  path_eq := by simp
  isSet_iff := by simp
  help_iff := by simp

/-- An argument that can be followed in front of others. -/
private theorem cons (added : options.add argument = .ok next) (later : Collects next back result) :
    Collects options (argument :: back) result where
  known := by
    refine List.forall_mem_cons.mpr ⟨fun unknown => ?_, later.known⟩
    -- An unknown option would have been refused.
    rw [Options.add_unknownOption unknown] at added
    cases added
  path_eq := by
    rw [later.path_eq, Options.path_add added, List.append_assoc, ← List.filter_append,
      List.singleton_append]
  isSet_iff flag := by
    have first : options.addAll [argument] = .ok next := by simp [Options.addAll, added]
    rw [later.isSet_iff, Options.isSet_addAll first, List.mem_singleton, List.mem_cons, or_assoc]
  help_iff := by
    rw [later.help_iff, Options.help_add added]
    simp only [List.mem_cons, exists_eq_or_imp, or_assoc]

/-- Arguments that can be followed add up to the options that come of them. -/
theorem of_addAll (added : options.addAll arguments = .ok result) :
    Collects options arguments result := by
  induction arguments generalizing options with
  | nil =>
    cases added
    exact nil _
  | cons argument rest ih =>
    rw [Options.addAll] at added
    cases step : options.add argument with
    | error error =>
      rw [step] at added
      cases added
    | ok next =>
      rw [step] at added
      exact cons step (ih added)

/-- There is only one thing that options and arguments add up to. -/
theorem unique (h : Collects options arguments result) (h' : Collects options arguments result') :
    result = result' := by
  have path : result.path = result'.path := by
    rw [← Option.head?_toList (o := result.path), h.path_eq, ← h'.path_eq, Option.head?_toList]
  have flags (flag : Flag) : flag.isSet result = flag.isSet result' := by
    rw [Bool.eq_iff_iff, h.isSet_iff, h'.isSet_iff]
  have help : result.help = result'.help := by
    rw [Bool.eq_iff_iff, h.help_iff, h'.help_iff]
  -- All fields agree, so the options do.
  cases result
  cases result'
  rw [Options.mk.injEq]
  exact ⟨path, flags .tokens, flags .json, flags .trace, help⟩

/-- There is at most one path. -/
private theorem countP_le (h : Collects options arguments result) :
    arguments.countP (IsPath ·) ≤ 1 := by
  have one := Option.length_toList_le (o := result.path)
  rw [h.path_eq, List.length_append] at one
  rw [List.countP_eq_length_filter]
  omega

/-- The arguments may stand in any order. -/
private theorem perm (h : Collects options arguments result) (same : arguments.Perm permuted) :
    Collects options permuted result where
  known argument member := h.known argument (same.mem_iff.mpr member)
  path_eq := by
    have paths := (same.filter (IsPath ·)).append_left options.path.toList
    rw [← h.path_eq] at paths
    -- There is one path at most, and a list of one element has no other order.
    cases path : result.path with
    | none =>
      rw [path] at paths
      exact (List.nil_perm.mp paths).symm
    | some argument =>
      rw [path] at paths
      exact List.singleton_perm.mp paths
  isSet_iff flag := by rw [h.isSet_iff, same.mem_iff]
  help_iff := by simp only [h.help_iff, same.mem_iff]

end Collects

/-! ## The argument at fault -/

namespace Options

/-- Two lists of arguments are followed one after the other. -/
private theorem addAll_append (options : Options) (front back : List String) :
    options.addAll (front ++ back) = (options.addAll front).bind (·.addAll back) := by
  induction front generalizing options with
  | nil => rfl
  | cons argument rest ih =>
    rw [List.cons_append, addAll, addAll]
    cases options.add argument with
    | error error => rfl
    | ok next => exact ih next

/-- Arguments that cannot be followed have a first one that cannot be followed. -/
private theorem exists_refused (refused : options.addAll arguments = .error error) :
    ∃ front argument back next, arguments = front ++ argument :: back ∧
      options.addAll front = .ok next ∧ next.add argument = .error error := by
  induction arguments generalizing options with
  | nil => cases refused
  | cons argument rest ih =>
    rw [addAll] at refused
    cases step : options.add argument with
    | error other =>
      rw [step] at refused
      cases refused
      exact ⟨[], argument, rest, options, rfl, rfl, step⟩
    | ok first =>
      rw [step] at refused
      -- The first argument can be followed, so the one at fault stands behind it.
      obtain ⟨front, last, back, next, rfl, added, refused⟩ := ih refused
      exact ⟨argument :: front, last, back, next, rfl, by rw [addAll, step]; exact added, refused⟩

/-- Behind arguments that can be followed, the ones at fault are those that cannot be added. -/
private theorem isFault_iff (added : ofArguments front = .ok next) :
    IsFault front argument error ↔ next.add argument = .error error := by
  -- A path has been taken exactly if there is one among the arguments in front.
  have taken : next.path ≠ .none ↔ ∃ other ∈ front, IsPath other := by
    have paths := (Collects.of_addAll added).path_eq
    rw [Ne, ← Option.toList_eq_nil_iff, paths]
    simp [none]
  rw [add_eq_error_iff, taken]
  constructor
  · rintro (unknown | ⟨isPath, earlier⟩)
    · exact .inl ⟨unknown, rfl⟩
    · exact .inr ⟨isPath, earlier, rfl⟩
  · rintro (⟨unknown, rfl⟩ | ⟨isPath, earlier, rfl⟩)
    · exact .unknownOption unknown
    · exact .secondPath isPath earlier

/-- Arguments can be followed exactly if none is at fault. -/
private theorem exists_ofArguments_iff : (∃ options, ofArguments arguments = .ok options) ↔
    ∀ front argument back, arguments = front ++ argument :: back →
      ∀ error, ¬IsFault front argument error := by
  constructor
  · rintro ⟨options, parsed⟩ front argument back rfl error fault
    rw [ofArguments, addAll_append] at parsed
    cases first : none.addAll front with
    | error other =>
      rw [first] at parsed
      cases parsed
    | ok next =>
      -- The arguments in front can be followed, so it is the one at fault that is refused.
      rw [first, Except.bind, addAll, (isFault_iff first).mp fault] at parsed
      cases parsed
  · intro faultless
    cases outcome : ofArguments arguments with
    | ok options => exact ⟨options, rfl⟩
    | error error =>
      obtain ⟨front, argument, back, next, split, added, refused⟩ := exists_refused outcome
      exact absurd ((isFault_iff added).mpr refused) (faultless front argument back split error)

/-- The leftmost argument at fault is reported. -/
theorem ofArguments_eq_error_iff : ofArguments arguments = .error error ↔
    ∃ front argument back, arguments = front ++ argument :: back ∧
      IsFault front argument error ∧
      ∀ earlier other later, front = earlier ++ other :: later →
        ∀ error', ¬IsFault earlier other error' := by
  constructor
  · intro refused
    obtain ⟨front, argument, back, next, rfl, added, refused⟩ := exists_refused refused
    exact ⟨front, argument, back, rfl, (isFault_iff added).mpr refused,
      exists_ofArguments_iff.mp ⟨next, added⟩⟩
  · rintro ⟨front, argument, back, rfl, fault, faultless⟩
    -- Without a fault in front, the walk comes to the argument and is refused there.
    obtain ⟨next, added⟩ := exists_ofArguments_iff.mpr faultless
    rw [ofArguments, addAll_append, ← ofArguments, added, Except.bind, addAll,
      (isFault_iff added).mp fault]

/-- Arguments cannot be followed if one is an unknown option or two are paths. -/
private theorem exists_error_iff : (∃ error, ofArguments arguments = .error error) ↔
    (∃ argument ∈ arguments, IsUnknownOption argument) ∨ 2 ≤ arguments.countP (IsPath ·) := by
  constructor
  · rintro ⟨error, refused⟩
    obtain ⟨front, argument, back, rfl, fault, -⟩ := ofArguments_eq_error_iff.mp refused
    cases fault with
    | unknownOption unknown => exact .inl ⟨argument, by simp, unknown⟩
    | secondPath isPath earlier =>
      -- One path stands in front, and another one is the argument at fault.
      have before : 0 < front.countP (IsPath ·) := List.countP_pos_iff.mpr (by simpa using earlier)
      have here : (argument :: back).countP (IsPath ·) = back.countP (IsPath ·) + 1 :=
        List.countP_cons_of_pos (by simpa using isPath)
      rw [List.countP_append]
      omega
  · intro h
    cases outcome : ofArguments arguments with
    | error error => exact ⟨error, rfl⟩
    | ok options =>
      have collects := Collects.of_addAll outcome
      rcases h with ⟨argument, member, unknown⟩ | twoPaths
      · exact absurd unknown (collects.known argument member)
      · have := collects.countP_le
        omega

/-- Arguments that can be followed in one order can be followed in any other, to the same
    options. -/
private theorem ofArguments_perm (same : arguments.Perm permuted)
    (parsed : ofArguments arguments = .ok options) : ofArguments permuted = .ok options := by
  cases outcome : ofArguments permuted with
  | ok options' =>
    have collects := (Collects.of_addAll parsed).perm same
    rw [collects.unique (Collects.of_addAll outcome)]
  | error error =>
    -- Whether arguments can be followed at all has just been said without their order.
    have fails := exists_error_iff.mp ⟨error, outcome⟩
    simp only [← same.mem_iff, ← same.countP_eq] at fails
    obtain ⟨_, refused⟩ := exists_error_iff.mpr fails
    cases parsed.symm.trans refused

end Options

/-- Arguments can be followed in one order exactly if they can in another, and then they ask for the
    same options.  They cannot be followed exactly if one of them begins with two hyphens and is no
    option, or if two of them are paths, and what is reported is the leftmost argument that is such
    an unknown option or a path behind another one. -/
theorem ofArguments_order (arguments : List String) :
    (∀ permuted, arguments.Perm permuted → ∀ options,
      Options.ofArguments arguments = .ok options ↔ Options.ofArguments permuted = .ok options) ∧
    ((∃ error, Options.ofArguments arguments = .error error) ↔
      (∃ argument ∈ arguments, IsUnknownOption argument) ∨ 2 ≤ arguments.countP (IsPath ·)) ∧
    ∀ error, Options.ofArguments arguments = .error error ↔
      ∃ front argument back, arguments = front ++ argument :: back ∧
        IsFault front argument error ∧
        ∀ earlier other later, front = earlier ++ other :: later →
          ∀ error', ¬IsFault earlier other error' := by
  refine ⟨fun permuted same options => ⟨?_, ?_⟩, Options.exists_error_iff,
    fun error => Options.ofArguments_eq_error_iff⟩
  · -- A permutation can be undone.
    exact Options.ofArguments_perm same
  · exact Options.ofArguments_perm same.symm

/-- A path that begins with a hyphen, among options in two orders; and four arguments of which the
    third one is a second path and the last one an unknown option. -/
theorem ofArguments_order_paths :
    (["--json", "-x", "-h"].Perm ["-h", "-x", "--json"] ∧
      Options.ofArguments ["-h", "-x", "--json"] = .ok ⟨some "-x", false, true, false, true⟩) ∧
    2 ≤ ["-", "--json", "a", "--fast"].countP (IsPath ·) ∧
      (∃ error, Options.ofArguments ["-", "--json", "a", "--fast"] = .error error) ∧
    IsFault ["-", "--json"] "a" (.secondPath "a") ∧
      Options.ofArguments ["-", "--json", "a", "--fast"] = .error (.secondPath "a") := by
  have same : ["--json", "-x", "-h"].Perm ["-h", "-x", "--json"] := by decide
  have parsed : Options.ofArguments ["--json", "-x", "-h"] =
      .ok ⟨some "-x", false, true, false, true⟩ := rfl
  have paths : 2 ≤ ["-", "--json", "a", "--fast"].countP (IsPath ·) := by decide
  have fault : IsFault ["-", "--json"] "a" (.secondPath "a") :=
    .secondPath (by decide) ⟨"-", by decide, by decide⟩
  -- Two arguments that can be followed have no fault before them.
  have faultless := Options.exists_ofArguments_iff.mp
    ⟨⟨some "-", false, true, false, false⟩, show Options.ofArguments ["-", "--json"] = _ from rfl⟩
  exact ⟨⟨same, ((ofArguments_order _).1 _ same _).1 parsed⟩, paths,
    (ofArguments_order _).2.1.2 (.inr paths), fault,
    ((ofArguments_order _).2.2 _).2 ⟨_, _, ["--fast"], rfl, fault, faultless⟩⟩

end LoxSyntax.CommandLine
