import Mathlib.Data.List.Forall2

/-!
# What a success consists of

A computation in several steps succeeds exactly if every step of it does, and
otherwise fails with the fault of the first step that does not.
-/

namespace GridSecurity

variable {ε ζ α β : Type}

theorem bind_eq_ok_iff {computation : Except ε α} {continuation : α → Except ε β}
    {result : β} :
    computation >>= continuation = .ok result ↔
      ∃ value, computation = .ok value ∧ continuation value = .ok result := by
  constructor
  · intro succeeded
    cases computation with
    | error fault => cases succeeded
    | ok value => exact ⟨value, rfl, succeeded⟩
  · rintro ⟨value, rfl, succeeded⟩
    exact succeeded

theorem map_eq_ok_iff {computation : Except ε α} {change : α → β} {result : β} :
    computation.map change = .ok result ↔
      ∃ value, computation = .ok value ∧ change value = result := by
  constructor
  · intro succeeded
    cases computation with
    | error fault => cases succeeded
    | ok value => exact ⟨value, rfl, Except.ok.inj succeeded⟩
  · rintro ⟨value, rfl, rfl⟩
    rfl

theorem mapError_eq_ok_iff {computation : Except ε α} {change : ε → ζ} {result : α} :
    computation.mapError change = .ok result ↔ computation = .ok result := by
  constructor
  · intro succeeded
    cases computation with
    | error fault => cases succeeded
    | ok value => rw [Except.ok.inj succeeded]
  · rintro rfl
    rfl

theorem bind_eq_error_iff {computation : Except ε α} {continuation : α → Except ε β}
    {fault : ε} :
    computation >>= continuation = .error fault ↔
      computation = .error fault ∨
        ∃ value, computation = .ok value ∧ continuation value = .error fault := by
  constructor
  · intro failed
    cases computation with
    | error cause =>
        obtain rfl := Except.error.inj failed
        exact .inl rfl
    | ok value => exact .inr ⟨value, rfl, failed⟩
  · rintro (rfl | ⟨value, rfl, failed⟩)
    · rfl
    · exact failed

theorem mapError_eq_error_iff {computation : Except ε α} {change : ε → ζ} {fault : ζ} :
    computation.mapError change = .error fault ↔
      ∃ cause, computation = .error cause ∧ change cause = fault := by
  constructor
  · intro failed
    cases computation with
    | error cause => exact ⟨cause, rfl, Except.error.inj failed⟩
    | ok value => cases failed
  · rintro ⟨cause, rfl, rfl⟩
    rfl

theorem toOption_eq_some_iff {computation : Except ε α} {result : α} :
    computation.toOption = some result ↔ computation = .ok result := by
  cases computation with
  | error fault => simp [Except.toOption]
  | ok value => simp [Except.toOption]

/-! ## Computations on lists -/

/-- A computation on a list succeeds with the results of the items one by one. -/
theorem mapM_eq_ok_iff {compute : α → Except ε β} {items : List α} {results : List β} :
    items.mapM compute = .ok results ↔
      List.Forall₂ (fun item result => compute item = .ok result) items results := by
  induction items generalizing results with
  | nil =>
      rw [List.mapM_nil, List.forall₂_nil_left_iff]
      exact ⟨fun same => (Except.ok.inj same).symm, fun same => by rw [same]; rfl⟩
  | cons item items induction =>
      rw [List.mapM_cons, List.forall₂_cons_left_iff]
      simp only [bind_eq_ok_iff, induction]
      constructor
      · rintro ⟨first, computed, others, othersComputed, whole⟩
        exact ⟨first, others, computed, othersComputed, (Except.ok.inj whole).symm⟩
      · rintro ⟨first, others, computed, othersComputed, rfl⟩
        exact ⟨first, computed, others, othersComputed, rfl⟩

/-- A computation on a list fails with the fault of the first item for which it fails. -/
theorem exists_of_mapM_eq_error {compute : α → Except ε β} {items : List α} {fault : ε}
    (failed : items.mapM compute = .error fault) :
    ∃ front item back, items = front ++ item :: back ∧ compute item = .error fault ∧
      ∀ earlier ∈ front, ∃ result, compute earlier = .ok result := by
  induction items with
  | nil => cases failed
  | cons item rest induction =>
      rw [List.mapM_cons] at failed
      rcases bind_eq_error_iff.mp failed with here | ⟨result, computed, later⟩
      · exact ⟨[], item, rest, rfl, here, fun _ member => by cases member⟩
      · rcases bind_eq_error_iff.mp later with later | ⟨_, _, isError⟩
        · obtain ⟨front, failing, back, rfl, fails, before⟩ := induction later
          exact ⟨item :: front, failing, back, rfl, fails,
            List.forall_mem_cons.mpr ⟨⟨result, computed⟩, before⟩⟩
        · cases isError

/-- The same for a computation that gives no reason when it fails. -/
theorem mapM_eq_some_iff {compute : α → Option β} {items : List α} {results : List β} :
    items.mapM compute = some results ↔
      List.Forall₂ (fun item result => compute item = some result) items results := by
  induction items generalizing results with
  | nil => simp [eq_comm]
  | cons item items induction =>
      rw [List.mapM_cons, List.forall₂_cons_left_iff]
      simp only [Option.bind_eq_bind, Option.bind_eq_some_iff, Option.pure_def,
        Option.some.injEq, induction]
      constructor
      · rintro ⟨first, computed, others, othersComputed, rfl⟩
        exact ⟨first, others, computed, othersComputed, rfl⟩
      · rintro ⟨first, others, computed, othersComputed, rfl⟩
        exact ⟨first, computed, others, othersComputed, rfl⟩

theorem mapM_eq_none_iff {compute : α → Option β} {items : List α} :
    items.mapM compute = none ↔ ∃ item ∈ items, compute item = none := by
  induction items with
  | nil => simp
  | cons item items induction =>
      simp only [List.mapM_cons, List.mem_cons, exists_eq_or_imp, ← induction]
      cases compute item with
      | none => simp
      | some result => cases items.mapM compute <;> simp

theorem exists_mem_of_forall₂ {related : α → β → Prop} {items : List α} {results : List β}
    (relatedAll : List.Forall₂ related items results) {result : β} (member : result ∈ results) :
    ∃ item ∈ items, related item result := by
  induction relatedAll with
  | nil => cases member
  | cons here _ induction =>
      rcases List.mem_cons.mp member with rfl | later
      · exact ⟨_, List.mem_cons_self, here⟩
      · obtain ⟨origin, originMember, holds⟩ := induction later
        exact ⟨origin, List.mem_cons_of_mem _ originMember, holds⟩

/-- Every result of a computation on a list comes from an item of it. -/
theorem exists_of_mem_mapM {compute : α → Except ε β} {items : List α} {results : List β}
    (succeeded : items.mapM compute = .ok results) {result : β} (member : result ∈ results) :
    ∃ item ∈ items, compute item = .ok result :=
  exists_mem_of_forall₂ (mapM_eq_ok_iff.mp succeeded) member

theorem exists_of_mem_mapM? {compute : α → Option β} {items : List α} {results : List β}
    (succeeded : items.mapM compute = some results) {result : β} (member : result ∈ results) :
    ∃ item ∈ items, compute item = some result :=
  exists_mem_of_forall₂ (mapM_eq_some_iff.mp succeeded) member

/-- A computation on a list has the result of every item. -/
theorem mem_of_mapM {compute : α → Except ε β} {items : List α} {results : List β}
    (succeeded : items.mapM compute = .ok results) {item : α} (member : item ∈ items)
    {result : β} (computed : compute item = .ok result) : result ∈ results := by
  have turned : List.Forall₂ (fun result item => compute item = .ok result) results items :=
    (mapM_eq_ok_iff.mp succeeded).flip
  obtain ⟨other, otherMember, alsoComputed⟩ := exists_mem_of_forall₂ turned member
  obtain rfl := Except.ok.inj (computed.symm.trans alsoComputed)
  exact otherMember

theorem mapM_append_eq_ok_iff {compute : α → Except ε β} {items others : List α}
    {results : List β} :
    (items ++ others).mapM compute = .ok results ↔
      ∃ first second, items.mapM compute = .ok first ∧ others.mapM compute = .ok second ∧
        first ++ second = results := by
  rw [List.mapM_append]
  constructor
  · intro succeeded
    obtain ⟨first, firstComputed, rest⟩ := bind_eq_ok_iff.mp succeeded
    obtain ⟨second, secondComputed, whole⟩ := bind_eq_ok_iff.mp rest
    exact ⟨first, second, firstComputed, secondComputed, Except.ok.inj whole⟩
  · rintro ⟨first, second, firstComputed, secondComputed, rfl⟩
    rw [firstComputed, secondComputed]
    rfl

end GridSecurity
