import GridSecurity.Der.SetOf
import GridSecurity.Proofs.Der.Faithful
import GridSecurity.Proofs.Success

/-!
# Sets and optional fields

Two things make the written form differ from the accepted one.  The members of
a set may stand in any order and are written in the ascending one, and a field
that is passed over because a later one is looked for is not written at all.
-/

namespace GridSecurity.Der

/-! ## Sets -/

namespace SetOf

variable {α : Type} {encode : α → Octets}

private theorem insert_perm (value : α) (values : List α) :
    (insert encode value values).Perm (value :: values) := by
  induction values with
  | nil => exact .refl _
  | cons first rest induction =>
      unfold insert
      split
      · exact .refl _
      · exact (induction.cons first).trans (.swap value first rest)

theorem sort_perm (values : List α) : (sort encode values).Perm values := by
  induction values with
  | nil => exact .refl _
  | cons value values induction =>
      exact (insert_perm value _).trans (induction.cons value)

/-- Sorting leaves an ascending list as it is. -/
theorem sort_eq_self {values : List α} (ascending : Ascending encode values) :
    sort encode values = values := by
  induction values with
  | nil => rfl
  | cons value values induction =>
      obtain ⟨before, later⟩ := List.pairwise_cons.mp ascending
      have sorted : sort encode (value :: values) = insert encode value values :=
        congrArg (insert encode value) (induction later)
      rw [sorted]
      cases values with
      | nil => rfl
      | cons first rest => rw [insert, if_pos (before first (by simp))]

theorem ofList?_eq_some_iff {values : List α} {set : SetOf encode} :
    ofList? encode values = some set ↔ set.values = sort encode values := by
  unfold ofList?
  constructor
  · intro found
    split at found
    · obtain rfl := Option.some.inj found
      rfl
    · cases found
  · intro same
    obtain ⟨kept, ascending⟩ := set
    dsimp only at same
    subst same
    rw [dif_pos ascending]

private theorem ofList?_values (set : SetOf encode) : ofList? encode set.values = some set :=
  ofList?_eq_some_iff.mpr (sort_eq_self set.ascending).symm

end SetOf

private theorem mapM_map_eq_some_iff {α β : Type} {read : β → Option α} {write : α → β}
    {values : List α} :
    (values.map write).mapM read = some values ↔
      ∀ value ∈ values, read (write value) = some value := by
  rw [mapM_eq_some_iff, List.forall₂_map_left_iff, List.forall₂_same]

/-- A set of members with one form each is kept; it stands as it is written
exactly if its fields ascend. -/
theorem FaithfulFields.setOf {α : Type} {read : Element → Option α}
    {write : α → Element} (faithful : Faithful read write fun _ => True) :
    FaithfulFields
      (fun fields => (fields.mapM read).bind
        (SetOf.ofList? fun value => (write value).write))
      (fun set => set.values.map write) (Ascending Element.write) := by
  intro fields set fit found
  obtain ⟨values, valuesRead, sorted⟩ := Option.bind_eq_some_iff.mp found
  have kept := faithful.list fields values fit valuesRead
  have written : values.map write = fields := kept.unchanged.mpr fun _ _ => trivial
  subst written
  have same : set.values = SetOf.sort (fun value => (write value).write) values :=
    SetOf.ofList?_eq_some_iff.mp sorted
  have permuted : set.values.Perm values := by
    rw [same]
    exact SetOf.sort_perm values
  refine ⟨?_, ?_, ?_⟩
  · exact Nat.le_of_eq (Element.length_writeAll_perm (permuted.map write))
  · have readAgain : (set.values.map write).mapM read = some set.values := by
      apply mapM_map_eq_some_iff.mpr
      intro value member
      exact mapM_map_eq_some_iff.mp valuesRead value (permuted.subset member)
    rw [readAgain]
    exact SetOf.ofList?_values set
  · have ascendingMap (list : List α) :
        Ascending Element.write (list.map write) ↔
          Ascending (fun value => (write value).write) list :=
      List.pairwise_map
    constructor
    · intro unchanged
      rw [← unchanged]
      exact (ascendingMap set.values).mpr set.ascending
    · intro ascending
      rw [same, SetOf.sort_eq_self ((ascendingMap values).mp ascending)]

/-! ## Two optional fields -/

namespace Element

private theorem eq_of_takeIf {accepts : Element → Bool} {fields rest : List Element}
    {field? : Option Element} (taken : takeIf accepts fields = (field?, rest)) :
    fields = field?.toList ++ rest ∧ ∀ field ∈ field?, accepts field = true := by
  unfold takeIf at taken
  split at taken
  · obtain ⟨rfl, rfl⟩ := Prod.mk.inj taken
    simp
  · split at taken
    · next accepted =>
        obtain ⟨rfl, rfl⟩ := Prod.mk.inj taken
        exact ⟨rfl, by simpa using accepted⟩
    · obtain ⟨rfl, rfl⟩ := Prod.mk.inj taken
      simp

/-- Nothing is taken exactly if the first field is not accepted. -/
private theorem takeIf_fst_eq_none_iff {accepts : Element → Bool} {fields : List Element} :
    (takeIf accepts fields).1 = none ↔ ∀ field ∈ fields.head?, accepts field = false := by
  cases fields with
  | nil => simp [takeIf]
  | cons field fields => cases here : accepts field <;> simp [takeIf, here]

private theorem takeIf_append {accepts : Element → Bool} {field? : Option Element}
    {rest : List Element} (accepted : ∀ field ∈ field?, accepts field = true)
    (others : ∀ field ∈ rest, accepts field = false) :
    takeIf accepts (field?.toList ++ rest) = (field?, rest) := by
  cases field? with
  | some field => simp [takeIf, accepted field rfl]
  | none =>
      cases rest with
      | nil => rfl
      | cons field rest => simp [takeIf, others field (by simp)]

theorem takeTwo?_eq_some_iff
    {takeFirst takeSecond : List Element → Option Element × List Element}
    {fields : List Element} {first? second? : Option Element} :
    takeTwo? takeFirst takeSecond fields = some (first?, second?) ↔
      ∃ rest, takeFirst fields = (first?, rest) ∧ takeSecond rest = (second?, []) := by
  constructor
  · intro found
    unfold takeTwo? at found
    dsimp only at found
    split at found
    · next nothing =>
        obtain ⟨rfl, rfl⟩ := Prod.mk.inj (Option.some.inj found)
        exact ⟨_, rfl, Prod.ext rfl (List.isEmpty_iff.mp nothing)⟩
    · cases found
  · rintro ⟨rest, firstTaken, secondTaken⟩
    simp [takeTwo?, firstTaken, secondTaken]

theorem isContext_zero (known : isKnownTag (contextCompositeTag 0) = true)
    (fields : List Element) :
    (composite (contextCompositeTag 0) known fields).isContext 0 = true := by
  simp only [isContext, isContextSpecific, number, composite_tag]
  decide

theorem isContext_one (known : isKnownTag (contextCompositeTag 1) = true)
    (fields : List Element) :
    (composite (contextCompositeTag 1) known fields).isContext 1 = true := by
  simp only [isContext, isContextSpecific, number, composite_tag]
  decide

theorem takeContext_zero : takeContext 0 = takeIf (isContext 0) := by
  funext fields
  cases fields <;> simp [takeContext]

/-- Before the field with the number one those with the number zero are passed
over. -/
private theorem takeContext_one (fields : List Element) :
    takeContext 1 fields = takeIf (isContext 1) (fields.dropWhile (isContext 0)) := by
  have below : (fun field : Element =>
      field.isContextSpecific && decide (field.number < 1)) = isContext 0 := by
    funext field
    rw [isContext, Bool.eq_iff_iff]
    simp
  rw [takeContext, below]

private theorem number_of_isContext {number : Nat} {field : Element}
    (here : field.isContext number = true) : field.number = number := by
  simp only [isContext, Bool.and_eq_true, beq_iff_eq] at here
  exact here.2

private theorem isContext_one_of_zero (field : Element) (isZero : field.isContext 0 = true) :
    field.isContext 1 = false := by
  simp [isContext, number_of_isContext isZero]

/-- Fields with the number zero may stand between the two that are taken, but
only behind the first of them. -/
private theorem eq_of_takeTwo?_context {fields : List Element} {first? second? : Option Element}
    (found : takeTwo? (takeContext 0) (takeContext 1) fields = some (first?, second?)) :
    ∃ passed : List Element, fields = first?.toList ++ (passed ++ second?.toList) ∧
      (∀ field ∈ passed, field.isContext 0 = true) ∧ (first? = none → passed = []) ∧
      (∀ field ∈ first?, field.isContext 0 = true) ∧
      ∀ field ∈ second?, field.isContext 1 = true := by
  obtain ⟨rest, firstTaken, secondTaken⟩ := takeTwo?_eq_some_iff.mp found
  rw [takeContext_zero] at firstTaken
  rw [takeContext_one] at secondTaken
  obtain ⟨whole, firstZero⟩ := eq_of_takeIf firstTaken
  obtain ⟨remaining, secondOne⟩ := eq_of_takeIf secondTaken
  have split : rest.takeWhile (isContext 0) ++ second?.toList = rest := by
    rw [← List.append_nil second?.toList, ← remaining]
    exact List.takeWhile_append_dropWhile
  refine ⟨rest.takeWhile (isContext 0), by rw [split, whole],
    List.all_eq_true.mp List.all_takeWhile, ?_, firstZero, secondOne⟩
  rintro rfl
  have headOther := takeIf_fst_eq_none_iff.mp (congrArg Prod.fst firstTaken)
  obtain rfl : fields = rest := whole
  cases fields with
  | nil => rfl
  | cons field fields => simp [headOther field (by simp)]

/-- The numbers of the fields increase. -/
def Increasing (fields : List Element) : Prop :=
  fields.Pairwise fun left right => left.number < right.number

instance (fields : List Element) : Decidable (Increasing fields) :=
  inferInstanceAs (Decidable (List.Pairwise _ _))

end Element

private theorem eq_false_of_disjoint {first second : Element → Bool}
    (disjoint : ∀ field, first field = true → second field = false) {field : Element}
    (isSecond : second field = true) : first field = false := by
  cases isFirst : first field with
  | false => rfl
  | true =>
      rw [disjoint field isFirst] at isSecond
      cases isSecond

/-- How two optional fields are taken: what is taken stands in the fields in
this order, and is taken again when it stands alone; that nothing else stands
there is said by `plain`. -/
structure TakesTwo
    (take : List Element → Option (Option Element × Option Element))
    (first second : Element → Bool) (plain : List Element → Prop) : Prop where
  disjoint : ∀ field, first field = true → second field = false
  taken : ∀ {fields first? second?}, take fields = some (first?, second?) →
    (first?.toList ++ second?.toList).Sublist fields ∧
      (∀ field ∈ first?, first field = true) ∧ ∀ field ∈ second?, second field = true
  again : ∀ {first? second?}, (∀ field ∈ first?, first field = true) →
    (∀ field ∈ second?, second field = true) →
      take (first?.toList ++ second?.toList) = some (first?, second?)
  alone : ∀ {fields first? second?}, take fields = some (first?, second?) →
    (plain fields ↔ fields = first?.toList ++ second?.toList)

theorem TakesTwo.of_takeIf {first second : Element → Bool}
    (disjoint : ∀ field, first field = true → second field = false) :
    TakesTwo (Element.takeTwo? (Element.takeIf first) (Element.takeIf second)) first second
      fun _ => True where
  disjoint := disjoint
  taken := by
    intro fields first? second? found
    obtain ⟨rest, firstTaken, secondTaken⟩ := Element.takeTwo?_eq_some_iff.mp found
    obtain ⟨rfl, firstAccepted⟩ := Element.eq_of_takeIf firstTaken
    obtain ⟨rfl, secondAccepted⟩ := Element.eq_of_takeIf secondTaken
    exact ⟨by simp, firstAccepted, secondAccepted⟩
  again := by
    intro first? second? firstAccepted secondAccepted
    apply Element.takeTwo?_eq_some_iff.mpr
    refine ⟨second?.toList, Element.takeIf_append firstAccepted ?_, ?_⟩
    · intro field member
      exact eq_false_of_disjoint disjoint (secondAccepted field (by simpa using member))
    · have nothing : ∀ field ∈ ([] : List Element), second field = false := by simp
      have secondTaken := Element.takeIf_append secondAccepted nothing
      rwa [List.append_nil] at secondTaken
  alone := by
    intro fields first? second? found
    obtain ⟨rest, firstTaken, secondTaken⟩ := Element.takeTwo?_eq_some_iff.mp found
    obtain ⟨rfl, firstAccepted⟩ := Element.eq_of_takeIf firstTaken
    obtain ⟨rfl, secondAccepted⟩ := Element.eq_of_takeIf secondTaken
    simp

/-- The numbers of two fields increase, and those of more fields do not if all but
the last have the number zero. -/
private theorem increasing_iff {first? second? : Option Element} {passed : List Element}
    (zeros : ∀ field ∈ passed, field.isContext 0 = true)
    (noneFirst : first? = none → passed = [])
    (firstZero : ∀ field ∈ first?, field.isContext 0 = true)
    (secondOne : ∀ field ∈ second?, field.isContext 1 = true) :
    Element.Increasing (first?.toList ++ (passed ++ second?.toList)) ↔ passed = [] := by
  constructor
  · intro increasing
    cases first? with
    | none => exact noneFirst rfl
    | some field =>
        cases passed with
        | nil => rfl
        | cons other passed =>
            have less : field.number < other.number :=
              (List.pairwise_cons.mp increasing).1 other (by simp)
            rw [Element.number_of_isContext (firstZero field rfl),
              Element.number_of_isContext (zeros other (by simp))] at less
            exact absurd less (Nat.lt_irrefl 0)
  · rintro rfl
    cases first? with
    | none => cases second? <;> simp [Element.Increasing]
    | some field =>
        have zero := Element.number_of_isContext (firstZero field rfl)
        cases second? with
        | none => simp [Element.Increasing]
        | some second =>
            have one := Element.number_of_isContext (secondOne second rfl)
            simp [Element.Increasing, zero, one]

/-- Fields with the numbers zero and one stand alone exactly if the numbers
increase. -/
theorem TakesTwo.of_takeContext :
    TakesTwo (Element.takeTwo? (Element.takeContext 0) (Element.takeContext 1))
      (Element.isContext 0) (Element.isContext 1) Element.Increasing where
  disjoint := Element.isContext_one_of_zero
  taken := by
    intro fields first? second? found
    obtain ⟨passed, rfl, _, _, firstZero, secondOne⟩ := Element.eq_of_takeTwo?_context found
    exact ⟨by simp, firstZero, secondOne⟩
  again := by
    intro first? second? firstZero secondOne
    have taken := (TakesTwo.of_takeIf Element.isContext_one_of_zero).again firstZero secondOne
    obtain ⟨rest, firstTaken, secondTaken⟩ := Element.takeTwo?_eq_some_iff.mp taken
    obtain ⟨rfl, _⟩ := Element.eq_of_takeIf secondTaken
    apply Element.takeTwo?_eq_some_iff.mpr
    rw [Element.takeContext_zero]
    refine ⟨_, firstTaken, ?_⟩
    rw [Element.takeContext_one]
    cases second? with
    | none => rfl
    | some field =>
        have notZero : field.isContext 0 = false :=
          eq_false_of_disjoint Element.isContext_one_of_zero (secondOne field rfl)
        simpa [notZero] using secondTaken
  alone := by
    intro fields first? second? found
    obtain ⟨passed, rfl, zeros, noneFirst, firstZero, secondOne⟩ :=
      Element.eq_of_takeTwo?_context found
    rw [increasing_iff zeros noneFirst firstZero secondOne]
    simp

/-- The written form of two optional fields. -/
def writeTwo {α β : Type} (first : α → Element) (second : β → Element)
    (pair : Option α × Option β) : List Element :=
  (pair.1.map first).toList ++ (pair.2.map second).toList

section Two

variable {α β : Type} {readFirst : Element → Option α} {writeFirst : α → Element}
  {canonicalFirst : Element → Prop} {readSecond : Element → Option β}
  {writeSecond : β → Element} {canonicalSecond : Element → Prop}

/-- An optional field is kept like the one it may be. -/
theorem Faithful.optional (faithful : Faithful readFirst writeFirst canonicalFirst)
    {field? : Option Element} {value? : Option α}
    (fits : ∀ field ∈ field?, field.Fits)
    (found : field?.mapM readFirst = some value?) :
    (Element.writeAll (value?.map writeFirst).toList).length ≤
        (Element.writeAll field?.toList).length ∧
      (value?.map writeFirst).mapM readFirst = some value? ∧
      (value?.map writeFirst = field? ↔ ∀ field ∈ field?, canonicalFirst field) := by
  cases field? with
  | none =>
      obtain rfl : value? = none := by simpa [eq_comm] using found
      simp
  | some field =>
      simp only [Option.mapM_some, Option.map_eq_map, Option.map_eq_some_iff] at found
      obtain ⟨value, valueRead, rfl⟩ := found
      have kept := faithful field value (fits field rfl) valueRead
      refine ⟨?_, ?_, ?_⟩
      · simpa using kept.length_write_le
      · simp [kept.again]
      · simpa using kept.unchanged

/-- Among fields that stand alone, each canonical form is asked of the one that was
taken in its place. -/
theorem TakesTwo.canonical_iff
    {take : List Element → Option (Option Element × Option Element)}
    {isFirst isSecond : Element → Bool} {plain : List Element → Prop}
    (takes : TakesTwo take isFirst isSecond plain) {first? second? : Option Element}
    (firstHere : ∀ field ∈ first?, isFirst field = true)
    (secondHere : ∀ field ∈ second?, isSecond field = true) :
    (∀ field ∈ first?.toList ++ second?.toList, (isFirst field = true → canonicalFirst field) ∧
        (isSecond field = true → canonicalSecond field)) ↔
      (∀ field ∈ first?, canonicalFirst field) ∧ ∀ field ∈ second?, canonicalSecond field := by
  simp only [List.mem_append, Option.mem_toList]
  constructor
  · intro canonical
    constructor
    · intro field member
      exact (canonical field (.inl member)).1 (firstHere field member)
    · intro field member
      exact (canonical field (.inr member)).2 (secondHere field member)
  · rintro ⟨firstCanonical, secondCanonical⟩ field (inFirst | inSecond)
    · refine ⟨fun _ => firstCanonical field inFirst, fun second => ?_⟩
      rw [takes.disjoint field (firstHere field inFirst)] at second
      cases second
    · refine ⟨fun first => ?_, fun _ => secondCanonical field inSecond⟩
      rw [eq_false_of_disjoint takes.disjoint (secondHere field inSecond)] at first
      cases first

/-- Two optional fields stand as they are written if they stand alone and each
stands as it is written. -/
theorem FaithfulFields.two
    {take : List Element → Option (Option Element × Option Element)}
    {isFirst isSecond : Element → Bool} {plain : List Element → Prop}
    (takes : TakesTwo take isFirst isSecond plain)
    (first : Faithful readFirst writeFirst canonicalFirst)
    (second : Faithful readSecond writeSecond canonicalSecond)
    (firstWritten : ∀ value, isFirst (writeFirst value) = true)
    (secondWritten : ∀ value, isSecond (writeSecond value) = true) :
    FaithfulFields (Element.readTwo? take readFirst readSecond)
      (writeTwo writeFirst writeSecond)
      fun fields => plain fields ∧ ∀ field ∈ fields,
        (isFirst field = true → canonicalFirst field) ∧
        (isSecond field = true → canonicalSecond field) := by
  intro fields pair fit found
  simp only [Element.readTwo?, Option.bind_eq_bind, Option.bind_eq_some_iff,
    Option.pure_def, Option.some.injEq] at found
  obtain ⟨⟨first?, second?⟩, taken, firstValue?, firstRead, secondValue?, secondRead,
    rfl⟩ := found
  obtain ⟨sublist, firstHere, secondHere⟩ := takes.taken taken
  have firstMember : ∀ field ∈ first?, field ∈ fields := fun field member =>
    sublist.subset (by simp [Option.mem_def.mp member])
  have secondMember : ∀ field ∈ second?, field ∈ fields := fun field member =>
    sublist.subset (by simp [Option.mem_def.mp member])
  obtain ⟨firstShorter, firstAgain, firstUnchanged⟩ := first.optional
    (fun field member => fit.fits (firstMember field member)) firstRead
  obtain ⟨secondShorter, secondAgain, secondUnchanged⟩ := second.optional
    (fun field member => fit.fits (secondMember field member)) secondRead
  have takenAgain : take (writeTwo writeFirst writeSecond (firstValue?, secondValue?)) =
      some (firstValue?.map writeFirst, secondValue?.map writeSecond) := by
    apply takes.again
    · simpa using fun value _ => firstWritten value
    · simpa using fun value _ => secondWritten value
  refine ⟨?_, ?_, ?_⟩
  · have shorter := Element.length_writeAll_sublist sublist
    simp only [writeTwo, Element.writeAll_append, List.length_append] at shorter ⊢
    omega
  · simp [Element.readTwo?, takenAgain, firstAgain, secondAgain]
  · rw [takes.alone taken]
    constructor
    · intro unchanged
      rw [unchanged, taken] at takenAgain
      obtain ⟨sameFirst, sameSecond⟩ := Prod.mk.inj (Option.some.inj takenAgain)
      have alone : fields = first?.toList ++ second?.toList := by
        rw [← unchanged, sameFirst, sameSecond, writeTwo]
      refine ⟨alone, ?_⟩
      rw [alone]
      exact (takes.canonical_iff firstHere secondHere).mpr
        ⟨firstUnchanged.mp sameFirst.symm, secondUnchanged.mp sameSecond.symm⟩
    · rintro ⟨alone, canonical⟩
      rw [alone] at canonical
      obtain ⟨firstCanonical, secondCanonical⟩ :=
        (takes.canonical_iff firstHere secondHere).mp canonical
      rw [writeTwo, firstUnchanged.mpr firstCanonical, secondUnchanged.mpr secondCanonical,
        alone]

/-- A view of another type that has the same fields carries the law over. -/
theorem FaithfulFields.through {read : List Element → Option α}
    {write : α → List Element} {canonical : List Element → Prop}
    (faithful : FaithfulFields read write canonical)
    {readView : List Element → Option β} (view : β → α)
    (sameRead : ∀ fields value, readView fields = some value ↔
      read fields = some (view value)) :
    FaithfulFields readView (fun value => write (view value)) canonical := by
  intro fields value fit found
  have kept := faithful fields (view value) fit ((sameRead fields value).mp found)
  exact ⟨kept.shorter, (sameRead _ value).mpr kept.again, kept.unchanged⟩

end Two

end GridSecurity.Der
