import LoxSyntax.Proofs.Grammar.Derives

/-! # Balanced braces

A word of a nonterminal has as many closing braces as opening ones (`depth_of_derives`).  Only the
production of `block` has braces, and it has one of each; that all productions are balanced is read
off them (`Form.depth?`). -/

namespace LoxSyntax

variable {form : Form} {word more : List Kind}

/-- The number of blocks that a word opens and does not close: of its opening braces less its
    closing ones. -/
def depth (word : List Kind) : Int := word.count .leftBrace - word.count .rightBrace

@[simp] theorem depth_nil : depth [] = 0 := rfl

@[simp] theorem depth_append : depth (word ++ more) = depth word + depth more := by
  simp only [depth, List.count_append]
  omega

@[simp] theorem depth_replicate (n : Nat) : depth (.replicate n .rightBrace) = -n := by
  simp [depth, List.count_replicate]

/-- The number of blocks that every word of a form opens and does not close, if it is the same for
    all of them by the look of the form.  The words of nonterminals are taken to be balanced. -/
def Form.depth? : Form → Option Int
  | empty => some 0
  | token kinds => kinds.head?.bind fun first =>
      if kinds.all fun kind => depth [kind] == depth [first] then some (depth [first]) else none
  | category _ => some 0
  | seq first second => first.depth?.bind fun d => second.depth?.map (d + ·)
  | choice left right => if left.depth? = right.depth? then left.depth? else none
  | many item => if item.depth? = some 0 then some 0 else none

/-- All productions are balanced. -/
private theorem Nonterminal.depth?_production (n : Nonterminal) : n.production.depth? = some 0 := by
  cases n <;> decide

/-- All words of a form leave as many braces open as is read off the form. -/
theorem depth_of_derives {d : Int} (h : Derives form word) (same : form.depth? = some d) :
    depth word = d := by
  induction h generalizing d with
  | empty => exact Option.some.inj same
  | @token kind kinds member =>
    unfold Form.depth? at same
    simp only [Option.bind_eq_some_iff, Option.ite_none_right_eq_some, List.all_eq_true,
      beq_iff_eq, Option.some.injEq] at same
    -- All kinds that the form allows here count as much as the first one of them.
    obtain ⟨first, -, all, rfl⟩ := same
    exact all kind member
  | @category n _ _ ih =>
    rw [← Option.some.inj same]
    exact ih n.depth?_production
  | seq _ _ ih ih' =>
    simp only [Form.depth?, Option.bind_eq_some_iff, Option.map_eq_some_iff] at same
    obtain ⟨d, isFirst, d', isSecond, rfl⟩ := same
    rw [depth_append, ih isFirst, ih' isSecond]
  | left _ ih =>
    simp only [Form.depth?, Option.ite_none_right_eq_some] at same
    exact ih same.2
  | right _ ih =>
    simp only [Form.depth?, Option.ite_none_right_eq_some] at same
    exact ih (same.1 ▸ same.2)
  | manyNil =>
    simp only [Form.depth?, Option.ite_none_right_eq_some] at same
    exact Option.some.inj same.2
  | manyCons _ _ ih ih' =>
    -- A form whose repetition is balanced leaves no brace open itself.
    have both := same
    simp only [Form.depth?, Option.ite_none_right_eq_some] at same
    rw [depth_append, ih same.1, ih' both, Int.zero_add]

end LoxSyntax
