import GridSecurity.Proofs.Der.Framing

/-!
# Readers and writers that keep values

A reader may accept more than one element for a value, while a writer produces
one.  What matters for signatures is that writing a value that was read and
reading it again gives the value back, and to know when the element comes back
as it stood.  Both are stated here once, for elements and for lists of fields,
and carried over from the fields to the composite element around them.
-/

namespace GridSecurity.Der

variable {α : Type}

/-- Fields that fit into one content. -/
def FitTogether (fields : List Element) : Prop :=
  (Element.writeAll fields).length ≤ longestLength

theorem FitTogether.fits {fields : List Element} (fit : FitTogether fields)
    {field : Element} (member : field ∈ fields) : field.Fits :=
  Element.fits_of_length_write
    (Nat.le_trans (Element.length_write_le_writeAll member) fit)

theorem FitTogether.tail {field : Element} {fields : List Element}
    (fit : FitTogether (field :: fields)) : FitTogether fields := by
  unfold FitTogether at fit ⊢
  rw [Element.writeAll_cons, List.length_append] at fit
  omega

/-- What becomes of a value that was read from an element: it is written no
longer than it stood, is read from what is written, and is written as it stood
exactly if it stood in the canonical form. -/
structure Keeps (read : Element → Option α) (write : α → Element)
    (canonical : Element → Prop) (element : Element) (value : α) : Prop where
  shorter : (write value).content.length ≤ element.content.length
  again : read (write value) = some value
  unchanged : write value = element ↔ canonical element

/-- Every value read from an element that fits is kept. -/
def Faithful (read : Element → Option α) (write : α → Element)
    (canonical : Element → Prop) : Prop :=
  ∀ (element : Element) (value : α), element.Fits → read element = some value →
    Keeps read write canonical element value

/-- What becomes of a value that was read from fields. -/
structure KeepsFields (read : List Element → Option α) (write : α → List Element)
    (canonical : List Element → Prop) (fields : List Element) (value : α) : Prop where
  shorter : (Element.writeAll (write value)).length ≤ (Element.writeAll fields).length
  again : read (write value) = some value
  unchanged : write value = fields ↔ canonical fields

/-- Every value read from fields that fit together is kept. -/
def FaithfulFields (read : List Element → Option α) (write : α → List Element)
    (canonical : List Element → Prop) : Prop :=
  ∀ (fields : List Element) (value : α), FitTogether fields → read fields = some value →
    KeepsFields read write canonical fields value

theorem KeepsFields.of_same {read : List Element → Option α}
    {write : α → List Element} {canonical : List Element → Prop} {fields : List Element}
    {value : α} (same : write value = fields) (found : read fields = some value)
    (holds : canonical fields) : KeepsFields read write canonical fields value :=
  ⟨Nat.le_of_eq (by rw [same]), by rw [same, found], iff_of_true same holds⟩

theorem FaithfulFields.of_exact {read : List Element → Option α}
    {write : α → List Element}
    (exactly : ∀ fields value, FitTogether fields → read fields = some value →
      write value = fields) :
    FaithfulFields read write fun _ => True :=
  fun fields value fit found => .of_same (exactly fields value fit found) found trivial

namespace Keeps

variable {read : Element → Option α} {write : α → Element}
  {canonical : Element → Prop} {element : Element} {value : α}

/-- A value that is written as it stood is kept. -/
theorem of_same (same : write value = element) (found : read element = some value)
    (holds : canonical element) : Keeps read write canonical element value :=
  ⟨Nat.le_of_eq (by rw [same]), by rw [same, found], iff_of_true same holds⟩

theorem length_write_le (kept : Keeps read write canonical element value) :
    (write value).write.length ≤ element.write.length :=
  Element.length_write_mono kept.shorter

/-- Without another form the element comes back as it stood. -/
theorem eq (kept : Keeps read write (fun _ => True) element value) :
    write value = element :=
  kept.unchanged.mpr trivial

end Keeps

/-- A reader that accepts only what the writer produces keeps every value. -/
theorem Faithful.of_exact {read : Element → Option α} {write : α → Element}
    (exactly : ∀ element value, read element = some value → write value = element) :
    Faithful read write fun _ => True :=
  fun element value _ found => .of_same (exactly element value found) found trivial

/-- An element that is kept as it is has one form. -/
theorem Faithful.element : Faithful some (fun element => element) fun _ => True :=
  .of_exact fun _ _ found => (Option.some.inj found).symm

/-- The canonical form may be described in another way. -/
theorem Faithful.describe {read : Element → Option α} {write : α → Element}
    {canonical description : Element → Prop} (faithful : Faithful read write canonical)
    (same : ∀ element, canonical element ↔ description element) :
    Faithful read write description := by
  intro element value fits found
  have kept := faithful element value fits found
  exact ⟨kept.shorter, kept.again, kept.unchanged.trans (same element)⟩

theorem FaithfulFields.describe {read : List Element → Option α}
    {write : α → List Element} {canonical description : List Element → Prop}
    (faithful : FaithfulFields read write canonical)
    (same : ∀ fields, canonical fields ↔ description fields) :
    FaithfulFields read write description := by
  intro fields value fit found
  have kept := faithful fields value fit found
  exact ⟨kept.shorter, kept.again, kept.unchanged.trans (same fields)⟩

/-- Elements that are kept one by one are kept as a list. -/
theorem Faithful.list {read : Element → Option α} {write : α → Element}
    {canonical : Element → Prop} (faithful : Faithful read write canonical) :
    FaithfulFields (fun fields => fields.mapM read) (List.map write)
      fun fields => ∀ field ∈ fields, canonical field := by
  intro fields
  induction fields with
  | nil =>
      intro values _ found
      obtain rfl : values = [] := by simpa [eq_comm] using found
      exact ⟨by simp, by simp, by simp⟩
  | cons field fields induction =>
      intro values fit found
      simp only [List.mapM_cons, Option.bind_eq_bind, Option.bind_eq_some_iff,
        Option.pure_def, Option.some.injEq] at found
      obtain ⟨value, here, later, others, rfl⟩ := found
      have kept := faithful field value (fit.fits (by simp)) here
      have keptLater := induction later fit.tail others
      refine ⟨?_, ?_, ?_⟩
      · have front := kept.length_write_le
        have back := keptLater.shorter
        simp only [List.map_cons, Element.writeAll_cons, List.length_append]
        omega
      · have again := keptLater.again
        simp only [List.map_cons, List.mapM_cons, kept.again] at again ⊢
        simp [again]
      · simp only [List.map_cons, List.cons.injEq, List.mem_cons, forall_eq_or_imp]
        exact and_congr kept.unchanged keptLater.unchanged

/-- A composite element is kept when its fields are. -/
theorem FaithfulFields.tagged {read : List Element → Option α}
    {write : α → List Element} {canonical : List Element → Prop}
    (faithful : FaithfulFields read write canonical) (tag : UInt8)
    (known : isKnownTag tag = true) :
    Faithful (fun element => (element.children? tag).bind read)
      (fun value => .composite tag known (write value))
      fun element => canonical element.parts := by
  intro element value fits found
  obtain ⟨fields, children, fieldsRead⟩ := Option.bind_eq_some_iff.mp found
  have whole : element = .composite tag known fields :=
    Element.eq_composite_of_children? children
  have fit : FitTogether fields := by
    rw [whole] at fits
    exact fits
  have kept := faithful fields value fit fieldsRead
  have fitWritten : FitTogether (write value) := Nat.le_trans kept.shorter fit
  have childrenWritten : (Element.composite tag known (write value)).children? tag =
      some (write value) :=
    Element.children?_composite fun _ member => fitWritten.fits member
  refine ⟨?_, ?_, ?_⟩
  · rw [whole]
    exact kept.shorter
  · simp only [childrenWritten, Option.bind_some]
    exact kept.again
  · rw [Element.parts_of_children? children, ← kept.unchanged]
    constructor
    · intro same
      rw [same, children] at childrenWritten
      exact (Option.some.inj childrenWritten).symm
    · intro same
      rw [same, whole]

/-- A list of elements inside one composite element is kept. -/
theorem Faithful.taggedList {read : Element → Option α} {write : α → Element}
    {canonical : Element → Prop} (faithful : Faithful read write canonical)
    (tag : UInt8) (known : isKnownTag tag = true) :
    Faithful (fun element => (element.children? tag).bind fun fields => fields.mapM read)
      (fun values => .composite tag known (values.map write))
      fun element => ∀ part ∈ element.parts, canonical part :=
  FaithfulFields.tagged faithful.list tag known

end GridSecurity.Der
