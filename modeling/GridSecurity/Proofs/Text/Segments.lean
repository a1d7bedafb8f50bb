import GridSecurity.Proofs.Text.Occurrence

/-!
# Segments of a path

A path is cut at each of its separators.  What is joined by a separator is cut there, and a key
behind a separator begins a segment, so that a path in which no segment begins with the key has
the first of them where it is added.
-/

namespace GridSecurity

namespace Text

variable {α : Type} {isSeparator : α → Bool}

private theorem splitAtEach_eq_splitOnP (isSeparator : α → Bool) (items : List α) :
    splitAtEach isSeparator items = items.splitOnP isSeparator := by
  induction items with
  | nil => rfl
  | cons item items induction =>
      rw [splitAtEach, List.splitOnP_cons_eq_if_modifyHead, induction]
      split
      · rfl
      · cases parts : items.splitOnP isSeparator with
        | nil => exact (List.splitOnP_ne_nil isSeparator items parts).elim
        | cons part parts => rfl

theorem splitAtEach_append_cons (isSeparator : α → Bool) {separator : α}
    (separates : isSeparator separator = true) (front back : List α) :
    splitAtEach isSeparator (front ++ separator :: back) =
      splitAtEach isSeparator front ++ splitAtEach isSeparator back := by
  simp only [splitAtEach_eq_splitOnP, List.splitOnP_append_cons front back separates]

/-- Items that are no separators belong to the part that they stand in front of. -/
private theorem splitAtEach_append {front : List α}
    (whole : ∀ item ∈ front, isSeparator item = false) (back : List α) :
    splitAtEach isSeparator (front ++ back) =
      (splitAtEach isSeparator back).modifyHead (front ++ ·) := by
  induction front with
  | nil => exact (congrFun List.modifyHead_id _).symm
  | cons item front induction =>
      obtain ⟨here, later⟩ := List.forall_mem_cons.mp whole
      have rest := induction later
      simp only [splitAtEach_eq_splitOnP] at rest ⊢
      rw [List.cons_append, List.splitOnP_cons_eq_if_modifyHead, if_neg (by simp [here]), rest,
        List.modifyHead_modifyHead]
      rfl

theorem splitAtEach_of_forall {items : List α}
    (whole : ∀ item ∈ items, isSeparator item = false) :
    splitAtEach isSeparator items = [items] := by
  have alone := splitAtEach_append whole []
  rwa [List.append_nil, splitAtEach, List.modifyHead, List.append_nil] at alone

end Text

/-! ## Keys -/

variable {separator : Char} {key text group rest : List Char}

/-- A segment begins with a key that stands behind a separator. -/
theorem exists_segment_of_infix (whole : separator ∉ key) (occurs : separator :: key <:+: text) :
    ∃ segment ∈ Text.splitAtEach (· == separator) text, key <+: segment := by
  obtain ⟨front, back, rfl⟩ := occurs
  have inKey : ∀ character ∈ key, (character == separator) = false := by
    intro character member
    rw [beq_eq_false_iff_ne]
    rintro rfl
    exact whole member
  have cut : Text.splitAtEach (· == separator) (front ++ separator :: (key ++ back)) =
      Text.splitAtEach (· == separator) front ++
        (Text.splitAtEach (· == separator) back).modifyHead (key ++ ·) := by
    rw [← Text.splitAtEach_append inKey]
    exact Text.splitAtEach_append_cons (· == separator) (beq_self_eq_true separator) front _
  rw [List.append_assoc, List.cons_append, cut]
  cases parts : Text.splitAtEach (· == separator) back with
  | nil =>
      rw [Text.splitAtEach_eq_splitOnP] at parts
      exact (List.splitOnP_ne_nil _ back parts).elim
  | cons part parts =>
      exact ⟨key ++ part, List.mem_append_right _ List.mem_cons_self, List.prefix_append ..⟩

/-- A key that is added behind a path in which it does not stand behind a separator occurs
first where it is added. -/
theorem cutAtFirst_of_absent (whole : separator ∉ key) (absent : ¬ separator :: key <:+: group) :
    CutAtFirst (separator :: key) (group ++ separator :: key ++ rest) group rest := by
  refine ⟨rfl, ?_⟩
  intro front back other
  rw [List.append_assoc, List.append_assoc, List.append_eq_append_iff] at other
  rcases other with ⟨between, rfl, _⟩ | ⟨between, rfl, behind⟩
  · rw [List.length_append]
    exact Nat.le_add_right _ _
  · cases between with
    | nil => exact Nat.le_of_eq (congrArg List.length (List.append_nil front))
    | cons first between =>
        exfalso
        obtain ⟨rfl, sameBehind⟩ := List.cons.inj behind
        rcases List.append_eq_append_iff.mp sameBehind with
          ⟨more, rfl, _⟩ | ⟨more, rfl, begins⟩
        · exact absent ⟨front, more, by simp⟩
        · cases more with
          | nil => exact absent ⟨front, [], by simp⟩
          | cons first more =>
              obtain ⟨rfl, _⟩ := List.cons.inj begins
              exact whole (List.mem_append_right _ List.mem_cons_self)

end GridSecurity
