import GridSecurity.Proofs.Chain.Order
import Mathlib.Data.List.Nodup

/-!
# Further certificates of a chain

A peer may present more certificates than its chain needs.  Those that continue
the chain towards a trust anchor stand behind it.  Those that the leaf's subject
issued, directly or through others of them, stand in front of it, because the
leaf is told from the names alone.
-/

namespace GridSecurity.Chain

/-- A further certificate is below a leaf if it was issued by the leaf or by
another further certificate below it. -/
inductive Below (isFurther : Certificate → Prop) (leaf : Certificate) : Certificate → Prop
  | direct {certificate : Certificate} :
      isFurther certificate → certificate.IssuedBy leaf → Below isFurther leaf certificate
  | through {authority certificate : Certificate} :
      Below isFurther leaf authority → isFurther certificate →
      certificate.IssuedBy authority → Below isFurther leaf certificate

private theorem Below.isFurther {isFurther : Certificate → Prop} {leaf certificate : Certificate}
    (below : Below isFurther leaf certificate) : isFurther certificate := by
  cases below with
  | direct further _ => exact further
  | through _ further _ => exact further

/-- In a linked list, everything in front of the leaf is below it, as long as
neither the leaf nor a certificate below it issued one that was there before. -/
theorem below_of_linked (known : Certificate → Prop) {isFurther : Certificate → Prop}
    {leaf : Certificate} {front back : List Certificate} (linked : Linked (front ++ leaf :: back))
    (origin : ∀ certificate ∈ front, known certificate ∨ isFurther certificate)
    (leafIssuesNone : ∀ certificate, known certificate → ¬ certificate.IssuedBy leaf)
    (apart : ∀ authority, Below isFurther leaf authority →
      ∀ certificate, known certificate → ¬ certificate.IssuedBy authority) :
    ∀ certificate ∈ front, Below isFurther leaf certificate := by
  induction front with
  | nil => simp
  | cons first front induction =>
      have firstOrigin := origin first List.mem_cons_self
      cases front with
      | nil =>
          obtain ⟨issued, _⟩ := linked
          intro certificate member
          obtain rfl := List.mem_singleton.mp member
          rcases firstOrigin with before | further
          · exact absurd issued (leafIssuesNone certificate before)
          · exact .direct further issued
      | cons second front =>
          obtain ⟨issued, linkedRest⟩ := linked
          have later := induction linkedRest
            (fun certificate member => origin certificate (List.mem_cons_of_mem first member))
          have secondBelow := later second List.mem_cons_self
          intro certificate member
          rcases List.mem_cons.mp member with rfl | inRest
          · rcases firstOrigin with before | further
            · exact absurd issued (apart second secondBelow certificate before)
            · exact .through secondBelow further issued
          · exact later certificate inRest

/-! ## A walk among more places -/

private theorem nextPosition?_append_of_some {places : Places} {certificate : Certificate}
    {next : Nat} (found : nextPosition? places certificate = some next) (more : Places) :
    nextPosition? (places ++ more) certificate = some next := by
  unfold nextPosition? at found ⊢
  split at found
  · cases found
  · next notSelfIssued =>
      rw [if_neg notSelfIssued, List.findIdx?_append, found]
      rfl

/-- Further places are looked at last, so that a walk goes the same way as
without them before it gets to one. -/
theorem walk_append_isPrefix {places more : Places} {position : Nat}
    {ordered longer : List Certificate} (walked : walk places position = .ok ordered)
    (longerWalked : walk (places ++ more) position = .ok longer) : ordered <+: longer := by
  induction ordered generalizing places position longer with
  | nil => exact List.nil_prefix
  | cons certificate ordered induction =>
      obtain ⟨_, _, found, same, goesOn⟩ := walk_cases walked
      obtain ⟨rfl, rfl⟩ := List.cons.inj same
      obtain ⟨_, others, alsoFound, rfl, alsoGoesOn⟩ := walk_cases longerWalked
      have inside : position < places.length := (List.getElem?_eq_some_iff.mp found).1
      rw [List.getElem?_append_left inside, found] at alsoFound
      obtain rfl := Option.some.inj (Option.some.inj alsoFound)
      apply List.cons_prefix_cons.mpr
      refine ⟨rfl, ?_⟩
      rcases goesOn with ⟨_, rfl⟩ | ⟨next, nextFound, later⟩
      · exact List.nil_prefix
      · rw [List.set_append_left _ _ inside,
          nextPosition?_append_of_some nextFound] at alsoGoesOn
        rcases alsoGoesOn with ⟨ends, _⟩ | ⟨_, sameNext, alsoLater⟩
        · cases ends
        · obtain rfl := Option.some.inj sameNext
          exact induction later alsoLater

/-- A walk that has been to further places only has left the others as they
were. -/
theorem exists_walk_after {places more : Places} {position : Nat}
    {front ordered : List Certificate} (goesOn : ordered ≠ [])
    (walked : walk (places ++ more) position = .ok (front ++ ordered))
    (outside : ∀ certificate ∈ front, some certificate ∉ places) :
    ∃ left next, walk (places ++ left) next = .ok ordered ∧
      ∀ certificate, some certificate ∈ left → some certificate ∈ more := by
  induction front generalizing more position with
  | nil => exact ⟨more, position, walked, fun _ member => member⟩
  | cons first front induction =>
      obtain ⟨_, rest, found, same, continues⟩ := walk_cases walked
      obtain ⟨rfl, rfl⟩ := List.cons.inj same
      have beyond : places.length ≤ position := by
        apply Nat.le_of_not_lt
        intro inside
        rw [List.getElem?_append_left inside] at found
        exact outside first List.mem_cons_self (List.mem_of_getElem? found)
      rw [List.set_append_right _ _ beyond] at continues
      rcases continues with ⟨_, empty⟩ | ⟨next, _, later⟩
      · exact absurd (List.append_eq_nil_iff.mp empty).2 goesOn
      · obtain ⟨left, last, whole, kept⟩ := induction later
          (fun certificate member => outside certificate (List.mem_cons_of_mem first member))
        refine ⟨left, last, whole, ?_⟩
        intro certificate member
        rcases List.mem_or_eq_of_mem_set (kept certificate member) with before | emptied
        · exact before
        · cases emptied

/-- Once a walk among more certificates, which has been to further ones only, gets
to the leaf, it goes on as the walk from the leaf does without them. -/
theorem isPrefix_of_walk_append {certificates more front back rest : List Certificate}
    {leaf : Certificate} {position start : Nat} (distinct : (certificates ++ more).Nodup)
    (walked : walk (certificates.map some) position = .ok (leaf :: rest))
    (longerWalked :
      walk ((certificates ++ more).map some) start = .ok (front ++ leaf :: back))
    (outside : ∀ certificate ∈ front, certificate ∉ certificates) :
    leaf :: rest <+: leaf :: back := by
  rw [List.map_append] at longerWalked
  obtain ⟨left, next, arrived, kept⟩ := exists_walk_after (List.cons_ne_nil leaf back)
    longerWalked (by simpa using outside)
  obtain ⟨_, _, found, same, _⟩ := walk_cases walked
  obtain ⟨rfl, rfl⟩ := List.cons.inj same
  obtain ⟨_, _, alsoFound, sameLeaf, _⟩ := walk_cases arrived
  obtain ⟨rfl, rfl⟩ := List.cons.inj sameLeaf
  have isHere : certificates[position]? = some leaf := by
    simpa [List.getElem?_map] using found
  have isKnown : leaf ∈ certificates := List.mem_of_getElem? isHere
  obtain ⟨certificatesDistinct, _, apart⟩ := List.nodup_append.mp distinct
  -- The leaf has one place only, so that both walks are at the same one.
  have inside : next < (certificates.map some).length := by
    apply Nat.lt_of_not_le
    intro beyond
    rw [List.getElem?_append_right beyond] at alsoFound
    have further := kept leaf (List.mem_of_getElem? alsoFound)
    have inMore : leaf ∈ more := by simpa using further
    exact apart leaf isKnown leaf inMore rfl
  rw [List.getElem?_append_left inside] at alsoFound
  have isThere : certificates[next]? = some leaf := by
    simpa [List.getElem?_map] using alsoFound
  have samePlace : position = next := by
    apply (List.getElem?_inj (List.getElem?_eq_some_iff.mp isHere).1 certificatesDistinct).mp
    rw [isHere, isThere]
  subst samePlace
  exact walk_append_isPrefix walked arrived

/-! ## The order of more certificates -/

/-- A certificate came further: it was not among the presented ones. -/
def IsFurther (presented further : List Certificate) (certificate : Certificate) : Prop :=
  certificate ∈ further ∧ certificate ∉ presented

private theorem exists_dropRepeated_append (presented further : List Certificate) :
    ∃ more, dropRepeated (presented ++ further) = dropRepeated presented ++ more ∧
      ∀ certificate ∈ more, IsFurther presented further certificate := by
  obtain ⟨known, whole, _, covered⟩ := exists_dropSeen_append [] presented further
  refine ⟨dropSeen known further, whole, ?_⟩
  intro certificate member
  constructor
  · exact (dropSeen_sublist known further).subset member
  · intro before
    exact fingerprint_notMem_of_mem_dropSeen member (covered certificate before)

/-- With further certificates an ordered chain stays together, as long as no
certificate below its leaf issued a presented one: in front of it stand
certificates below the leaf, and all others stand behind it. -/
theorem exists_of_sort_append {presented further ordered longer : List Certificate}
    (sorted : sort presented = .ok ordered)
    (longerSorted : sort (presented ++ further) = .ok longer) {leaf : Certificate}
    (first : ordered.head? = some leaf)
    (apart : ∀ authority, Below (IsFurther presented further) leaf authority →
      ∀ certificate ∈ presented, certificate ≠ leaf → ¬ certificate.IssuedBy authority) :
    ∃ front back, longer = front ++ ordered ++ back ∧
      ∀ certificate ∈ front, Below (IsFurther presented further) leaf certificate := by
  obtain ⟨position, _, walked, _⟩ := sort_eq_ok_iff.mp sorted
  obtain ⟨start, _, longerWalked, _⟩ := sort_eq_ok_iff.mp longerSorted
  obtain ⟨more, split, isFurther⟩ := exists_dropRepeated_append presented further
  have perm := sort_perm longerSorted
  have distinct := nodup_dropRepeated (presented ++ further)
  rw [split] at perm distinct longerWalked
  have longerDistinct := perm.nodup_iff.mpr distinct
  obtain ⟨rest, rfl⟩ := List.head?_eq_some_iff.mp first
  have isKnown : leaf ∈ dropRepeated presented :=
    (sort_perm sorted).subset List.mem_cons_self
  obtain ⟨front, back, rfl⟩ :=
    List.append_of_mem (perm.symm.subset (List.mem_append_left more isKnown))
  have below : ∀ certificate ∈ front,
      Below (IsFurther presented further) leaf certificate := by
    apply below_of_linked
      (fun certificate => certificate ∈ dropRepeated presented ∧ certificate ≠ leaf)
      (linked_of_walk longerWalked)
    · intro certificate member
      rcases List.mem_append.mp (perm.subset (List.mem_append_left _ member)) with
        before | later
      · left
        refine ⟨before, ?_⟩
        exact (List.nodup_append.mp longerDistinct).2.2 certificate member leaf
          List.mem_cons_self
      · right
        exact isFurther certificate later
    · rintro certificate ⟨before, notLeaf⟩
      exact not_issuedBy_of_sort sorted first certificate before notLeaf
    · rintro authority authorityBelow certificate ⟨before, notLeaf⟩
      exact apart authority authorityBelow certificate
        ((dropSeen_sublist [] presented).subset before) notLeaf
  have outside : ∀ certificate ∈ front, certificate ∉ dropRepeated presented := by
    intro certificate member before
    exact (below certificate member).isFurther.2 ((dropSeen_sublist [] presented).subset before)
  obtain ⟨others, continued⟩ := isPrefix_of_walk_append distinct walked longerWalked outside
  refine ⟨front, others, ?_, below⟩
  rw [List.append_assoc, continued]

end GridSecurity.Chain
