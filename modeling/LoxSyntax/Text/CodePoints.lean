/-! # Sets of characters given by ranges of code points

A Unicode property is stored as the list of its ranges in ascending order.  Membership stops at
the first range that ends at or after the code point, so characters with small code points are
decided after a few comparisons.

Main statement: as the ranges ascend, `contains_iff` says that the early stop loses nothing. -/

namespace LoxSyntax

namespace CodePoints

/-- Whether ranges start at `bound` or later, and each one behind the end of the one before. -/
def ascendingFrom (bound : Nat) : List (Nat × Nat) → Bool
  | [] => true
  | (low, high) :: rest => bound ≤ low && low ≤ high && ascendingFrom (high + 1) rest

/-- Whether the code point of a character lies in one of some ascending ranges. -/
def liesIn (c : Char) : List (Nat × Nat) → Bool
  | [] => false
  | (low, high) :: rest => if c.toNat ≤ high then decide (low ≤ c.toNat) else liesIn c rest

end CodePoints

/-- Ranges of code points, both ends included, which are disjoint and in ascending order. -/
structure CodePoints where
  ranges : List (Nat × Nat)
  ascending : CodePoints.ascendingFrom 0 ranges = true := by decide +kernel

namespace CodePoints

/-- No range starts before the bound. -/
private theorem le_of_ascendingFrom {ranges : List (Nat × Nat)} {bound : Nat}
    (h : ascendingFrom bound ranges = true) : ∀ range ∈ ranges, bound ≤ range.1 := by
  induction ranges generalizing bound with
  | nil => simp
  | cons first rest ih =>
    simp only [ascendingFrom, Bool.and_eq_true, decide_eq_true_eq] at h
    intro range member
    rcases List.mem_cons.mp member with rfl | later
    · exact h.1.1
    · -- A later range starts behind the end of the first one.
      have := ih h.2 range later
      omega

/-- Where ranges ascend, none behind the one that the search stops at holds the character. -/
private theorem liesIn_iff {ranges : List (Nat × Nat)} {bound : Nat}
    (h : ascendingFrom bound ranges = true) (c : Char) :
    liesIn c ranges = true ↔ ∃ range ∈ ranges, range.1 ≤ c.toNat ∧ c.toNat ≤ range.2 := by
  induction ranges generalizing bound with
  | nil => simp [liesIn]
  | cons first rest ih =>
    obtain ⟨low, high⟩ := first
    simp only [ascendingFrom, Bool.and_eq_true, decide_eq_true_eq] at h
    by_cases within : c.toNat ≤ high
    · simp only [liesIn, within, if_true, decide_eq_true_eq, List.mem_cons, exists_eq_or_imp,
        and_true]
      -- A later range that held the character would start before the end of this one.
      refine ⟨Or.inl, fun found => found.elim id ?_⟩
      rintro ⟨later, member, above, -⟩
      have := le_of_ascendingFrom h.2 later member
      omega
    · simp only [liesIn, within, if_false, List.mem_cons, exists_eq_or_imp, and_false,
        false_or]
      exact ih h.2

/-- Whether the code point of a character lies in one of the ranges. -/
def contains (set : CodePoints) (c : Char) : Bool := liesIn c set.ranges

/-- The early stop of `contains` is right: it finds a range that holds the character exactly when
    there is one. -/
theorem contains_iff (set : CodePoints) (c : Char) :
    set.contains c = true ↔ ∃ range ∈ set.ranges, range.1 ≤ c.toNat ∧ c.toNat ≤ range.2 :=
  liesIn_iff set.ascending c

end CodePoints

end LoxSyntax
