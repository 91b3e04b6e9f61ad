import LoxSyntax.CommandLine.Options

/-! # Flags among the arguments

A flag sets one field of the options wherever it stands, and no other argument does.  So a flag may
be put between any two arguments (`addAll_insert`), the field tells whether the flag is among the
arguments (`isSet_addAll`), and taking a flag out leaves the other fields as they are
(`addAll_filter`). -/

namespace LoxSyntax.CommandLine

/-- The options that have no value, but for the one that asks for help, which has two names. -/
inductive Flag where
  | tokens
  | json
  | trace

namespace Flag

/-- The argument that sets a flag. -/
def argument : Flag → String
  | tokens => "--tokens"
  | json => "--json"
  | trace => "--trace"

/-- Whether a flag is set. -/
def isSet : Flag → Options → Bool
  | tokens => Options.tokens
  | json => Options.json
  | trace => Options.trace

/-- The options with a flag set or not. -/
def put (value : Bool) : Flag → Options → Options
  | tokens, options => { options with tokens := value }
  | json, options => { options with json := value }
  | trace, options => { options with trace := value }

variable {flag : Flag} {options : Options} {value : Bool}

@[simp] theorem isSet_put : flag.isSet (flag.put value options) = value := by cases flag <;> rfl

@[simp] theorem put_put {value' : Bool} :
    flag.put value (flag.put value' options) = flag.put value options := by cases flag <;> rfl

@[simp] theorem path_put : (flag.put value options).path = options.path := by cases flag <;> rfl

@[simp] theorem help_put : (flag.put value options).help = options.help := by cases flag <;> rfl

/-- Putting a flag to what it is changes nothing. -/
theorem put_eq_self (same : flag.isSet options = value) : flag.put value options = options := by
  subst same
  cases flag <;> rfl

end Flag

namespace Options

variable {flag : Flag} {options result : Options} {argument : String} {value : Bool}

/-- A flag among the arguments sets its field. -/
theorem add_flag (flag : Flag) (options : Options) :
    options.add flag.argument = .ok (flag.put true options) := by
  cases flag <;> rfl

/-- Another argument means the same whether the flag is set or not. -/
private theorem add_put (ne : argument ≠ flag.argument) :
    (flag.put value options).add argument = (options.add argument).map (flag.put value) := by
  cases flag <;>
    (simp only [Flag.argument] at ne
     simp only [add, if_neg ne, apply_ite (Except.map _)]
     rfl)

/-- No other argument changes the field of a flag. -/
private theorem isSet_add (ne : argument ≠ flag.argument)
    (added : options.add argument = .ok result) : flag.isSet result = flag.isSet options := by
  -- The argument means the same with the field put to what it is already.
  have same := @add_put flag options argument (flag.isSet options) ne
  rw [Flag.put_eq_self rfl, added] at same
  injection same with same
  rw [same, Flag.isSet_put]

/-- A flag that is already set means nothing more. -/
private theorem add_put_true :
    (flag.put true options).add argument = (options.add argument).map (flag.put true) := by
  by_cases h : argument = flag.argument
  · rw [h, add_flag, add_flag, Flag.put_put]
    simp [Except.map]
  · exact add_put h

/-- A flag that is set before some arguments could as well be set behind them. -/
private theorem addAll_put_true (arguments : List String) :
    (flag.put true options).addAll arguments =
      (options.addAll arguments).map (flag.put true) := by
  induction arguments generalizing options with
  | nil => rfl
  | cons argument rest ih =>
    rw [addAll, addAll, add_put_true]
    cases options.add argument with
    | error _ => rfl
    | ok next => exact ih

/-- A flag may stand between any two arguments. -/
theorem addAll_insert (flag : Flag) (options : Options) (front back : List String) :
    options.addAll (front ++ flag.argument :: back) =
      (options.addAll (front ++ back)).map (flag.put true) := by
  induction front generalizing options with
  | nil =>
    rw [List.nil_append, addAll, add_flag]
    -- The flag comes first here, and what it sets goes through the arguments behind it.
    exact addAll_put_true back
  | cons argument rest ih =>
    rw [List.cons_append, List.cons_append, addAll, addAll]
    cases options.add argument with
    | error _ => rfl
    | ok next => exact ih next

/-- A flag is set if it was or if it is among the arguments. -/
theorem isSet_addAll {arguments : List String} (added : options.addAll arguments = .ok result) :
    flag.isSet result = true ↔ flag.isSet options = true ∨ flag.argument ∈ arguments := by
  induction arguments generalizing options with
  | nil =>
    cases added
    simp
  | cons argument rest ih =>
    rw [addAll] at added
    cases step : options.add argument with
    | error _ => rw [step] at added; cases added
    | ok next =>
      rw [step] at added
      rw [ih added, List.mem_cons]
      -- The first argument is the flag itself, or leaves its field alone.
      by_cases h : argument = flag.argument
      · rw [h, add_flag] at step
        cases step
        simp [h]
      · simp [isSet_add h step, Ne.symm h]

/-- Without a flag, the other arguments mean what they mean with it. -/
theorem addAll_filter (flag : Flag) (options : Options) (arguments : List String) :
    options.addAll (arguments.filter (· ≠ flag.argument)) =
      (options.addAll arguments).map (flag.put (flag.isSet options)) := by
  induction arguments generalizing options with
  | nil => simp [addAll, Except.map, Flag.put_eq_self]
  | cons argument rest ih =>
    by_cases h : argument = flag.argument
    · -- The flag sets its field, which is put back to what it was.
      rw [List.filter_cons_of_neg (by simpa using h), ih, h, addAll, add_flag]
      simp only [addAll_put_true]
      cases options.addAll rest with
      | error _ => rfl
      | ok result => simp [Except.map]
    · rw [List.filter_cons_of_pos (by simpa using h), addAll, addAll]
      cases step : options.add argument with
      | error _ => rfl
      | ok next =>
        dsimp only
        rw [ih, isSet_add h step]

end Options

end LoxSyntax.CommandLine
