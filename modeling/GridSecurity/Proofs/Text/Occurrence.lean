import GridSecurity.Fqan

/-!
# The first occurrence of a pattern

A text that contains a pattern is cut where the pattern occurs first.  What stands in front of
the cut is found by trying one place after the other.
-/

namespace GridSecurity

variable {pattern text before after : List Char}

/-- A text falls into what stands before the first occurrence of a pattern, the pattern and
what stands behind. -/
structure CutAtFirst (pattern text before after : List Char) : Prop where
  whole : text = before ++ pattern ++ after
  first : ∀ front back, text = front ++ pattern ++ back → before.length ≤ front.length

/-- There is one first occurrence at most. -/
theorem CutAtFirst.unique {otherBefore otherAfter : List Char}
    (cut : CutAtFirst pattern text before after)
    (other : CutAtFirst pattern text otherBefore otherAfter) :
    before = otherBefore ∧ after = otherAfter := by
  have same := cut.whole.symm.trans other.whole
  have lengths : before.length = otherBefore.length :=
    Nat.le_antisymm (cut.first _ _ other.whole) (other.first _ _ cut.whole)
  rw [List.append_assoc, List.append_assoc] at same
  obtain ⟨sameBefore, sameRest⟩ := List.append_inj same lengths
  exact ⟨sameBefore, List.append_cancel_left sameRest⟩

private theorem cutAtFirst_nil_iff :
    CutAtFirst pattern text [] after ↔ text = pattern ++ after := by
  constructor
  · intro cut
    exact cut.whole
  · rintro rfl
    exact ⟨rfl, fun _ _ _ => Nat.zero_le _⟩

/-- A pattern that does not stand in front occurs first where it does in the rest. -/
theorem cutAtFirst_cons_iff {character : Char} (notHere : ¬ pattern <+: character :: text) :
    CutAtFirst pattern (character :: text) before after ↔
      ∃ tail, before = character :: tail ∧ CutAtFirst pattern text tail after := by
  constructor
  · intro cut
    cases before with
    | nil => exact absurd ⟨after, cut.whole.symm⟩ notHere
    | cons head tail =>
        obtain ⟨rfl, whole⟩ := List.cons.inj cut.whole
        refine ⟨tail, rfl, whole, ?_⟩
        intro front back other
        apply Nat.le_of_succ_le_succ
        exact cut.first (character :: front) back (congrArg (character :: ·) other)
  · rintro ⟨tail, rfl, cut⟩
    refine ⟨congrArg (character :: ·) cut.whole, ?_⟩
    intro front back other
    cases front with
    | nil => exact absurd ⟨back, other.symm⟩ notHere
    | cons head front =>
        obtain ⟨_, rest⟩ := List.cons.inj other
        exact Nat.succ_le_succ (cut.first front back rest)

theorem beforeFirst?_eq_some_iff :
    beforeFirst? pattern text = some before ↔ ∃ after, CutAtFirst pattern text before after := by
  induction text generalizing before with
  | nil =>
      constructor
      · intro found
        rw [beforeFirst?, Option.ite_none_right_eq_some] at found
        obtain ⟨empty, found⟩ := found
        obtain rfl := Option.some.inj found
        obtain rfl := List.isEmpty_iff.mp empty
        exact ⟨[], cutAtFirst_nil_iff.mpr rfl⟩
      · rintro ⟨after, whole, _⟩
        obtain ⟨joined, rfl⟩ := List.append_eq_nil_iff.mp whole.symm
        obtain ⟨rfl, rfl⟩ := List.append_eq_nil_iff.mp joined
        rfl
  | cons character text induction =>
      by_cases here : pattern <+: character :: text
      · rw [beforeFirst?, if_pos (List.isPrefixOf_iff_prefix.mpr here), Option.some.injEq]
        obtain ⟨after, whole⟩ := here
        have first := cutAtFirst_nil_iff.mpr whole.symm
        constructor
        · rintro rfl
          exact ⟨after, first⟩
        · rintro ⟨otherAfter, cut⟩
          exact (first.unique cut).1
      · rw [beforeFirst?, if_neg (mt List.isPrefixOf_iff_prefix.mp here)]
        simp only [Option.map_eq_some_iff, induction, cutAtFirst_cons_iff here]
        constructor
        · rintro ⟨tail, ⟨after, cut⟩, rfl⟩
          exact ⟨after, tail, rfl, cut⟩
        · rintro ⟨after, tail, rfl, cut⟩
          exact ⟨tail, ⟨after, cut⟩, rfl⟩

theorem beforeFirst?_eq_none_iff : beforeFirst? pattern text = none ↔ ¬ pattern <:+: text := by
  induction text with
  | nil =>
      rw [beforeFirst?, List.infix_nil]
      cases pattern with
      | nil => simp
      | cons head tail => simp
  | cons character text induction =>
      rw [List.infix_cons_iff, not_or, ← induction]
      by_cases here : pattern <+: character :: text
      · rw [beforeFirst?, if_pos (List.isPrefixOf_iff_prefix.mpr here)]
        simp [here]
      · rw [beforeFirst?, if_neg (mt List.isPrefixOf_iff_prefix.mp here)]
        simp [here]

end GridSecurity
