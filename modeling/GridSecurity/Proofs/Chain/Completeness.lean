import GridSecurity.Proofs.Chain.Arrangement

/-!
# Certificates of distinct subjects

If no two certificates have the same subject, an issuer is one certificate at most,
and the walk has no choice.  Then the presented certificates stand in order in at most
one way, and ordering finds it in whatever order they are presented.
-/

namespace GridSecurity

namespace Chain

/-- No two certificates have the same subject. -/
def DistinctSubjects (certificates : List Certificate) : Prop :=
  certificates.Pairwise fun certificate other => ¬ certificate.subject.Same other.subject

instance (certificates : List Certificate) : Decidable (DistinctSubjects certificates) :=
  inferInstanceAs (Decidable (certificates.Pairwise _))

theorem distinctSubjects_iff_nodup {certificates : List Certificate} :
    DistinctSubjects certificates ↔ (certificates.map (·.subject.relativeNames)).Nodup := by
  unfold DistinctSubjects List.Nodup
  rw [List.pairwise_map]
  rfl

theorem distinctSubjects_iff_of_perm {first second : List Certificate}
    (permutation : first.Perm second) : DistinctSubjects first ↔ DistinctSubjects second := by
  rw [distinctSubjects_iff_nodup, distinctSubjects_iff_nodup]
  exact (permutation.map _).nodup_iff

theorem DistinctSubjects.eq {certificates : List Certificate}
    (distinct : DistinctSubjects certificates) {certificate other : Certificate}
    (member : certificate ∈ certificates) (otherMember : other ∈ certificates)
    (same : certificate.subject.Same other.subject) : certificate = other :=
  List.inj_on_of_nodup_map (distinctSubjects_iff_nodup.mp distinct) member otherMember same

/-! ## The walk without a choice -/

private theorem mem_filterMap_id_iff {places : Places} {certificate : Certificate} :
    certificate ∈ places.filterMap id ↔ some certificate ∈ places := by
  simp

private theorem exists_nextPosition? {places : Places} {certificate authority : Certificate}
    (notSelfIssued : certificate.isSelfIssued = false) (left : some authority ∈ places)
    (issued : certificate.IssuedBy authority) :
    ∃ next, nextPosition? places certificate = some next := by
  unfold nextPosition?
  rw [notSelfIssued, if_neg Bool.false_ne_true, ← Option.isSome_iff_exists,
    List.findIdx?_isSome, List.any_eq_true]
  exact ⟨some authority, left, decide_eq_true issued⟩

/-- From the first certificate of a linked list, a walk among the certificates of that
list takes them in their order, if only one of them has the subject it looks for. -/
theorem walk_of_distinctSubjects {places : Places} {position : Nat} {leaf : Certificate}
    {rest : List Certificate} (found : places[position]? = some (some leaf))
    (left : (leaf :: rest).Perm (places.filterMap id)) (distinct : DistinctSubjects (leaf :: rest))
    (linked : Linked (leaf :: rest))
    (lastOnlySelfIssued : ∀ certificate ∈ (leaf :: rest).dropLast,
      certificate.isSelfIssued = false) :
    walk places position = .ok (leaf :: rest) := by
  -- Every step leaves in the places the certificates of the list that are still to come.
  induction rest generalizing places position leaf with
  | nil =>
      have nothingLeft : (places.set position none).filterMap id = [] :=
        ((filterMap_set_none_perm found).trans left.symm).cons_inv.eq_nil
      apply walk_of_nextPosition?_eq_none found
      rw [Option.eq_none_iff_forall_ne_some]
      intro next goesOn
      obtain ⟨_, authority, there, _⟩ := exists_of_nextPosition? goesOn
      have among := mem_filterMap_id_iff.mpr (List.mem_of_getElem? there)
      rw [nothingLeft] at among
      cases among
  | cons authority rest induction =>
      have othersLeft : (authority :: rest).Perm ((places.set position none).filterMap id) :=
        (left.trans (filterMap_set_none_perm found).symm).cons_inv
      obtain ⟨issued, restLinked⟩ := linked
      rw [List.dropLast_cons_cons] at lastOnlySelfIssued
      obtain ⟨notSelfIssued, restNotSelfIssued⟩ := List.forall_mem_cons.mp lastOnlySelfIssued
      have authorityLeft : some authority ∈ places.set position none :=
        mem_filterMap_id_iff.mp (othersLeft.subset List.mem_cons_self)
      obtain ⟨next, goesOn⟩ := exists_nextPosition? notSelfIssued authorityLeft issued
      obtain ⟨_, other, there, alsoIssued⟩ := exists_of_nextPosition? goesOn
      have restDistinct : DistinctSubjects (authority :: rest) := distinct.of_cons
      have otherLeft : other ∈ authority :: rest :=
        othersLeft.symm.subset (mem_filterMap_id_iff.mpr (List.mem_of_getElem? there))
      obtain rfl : authority = other :=
        restDistinct.eq List.mem_cons_self otherLeft (issued.symm.trans alsoIssued)
      rw [walk_of_nextPosition?_eq_some found goesOn,
        induction there othersLeft restDistinct restLinked restNotSelfIssued]
      rfl

/-! ## Arrangements -/

/-- The distinct ones of the presented certificates stand in order: each but the last
in front of its issuer, no one but the last self-issued, and none behind the first
issued by it. -/
structure Orders (presented chain : List Certificate) : Prop where
  permutes : chain.Perm (dropRepeated presented)
  linked : Linked chain
  lastOnlySelfIssued : ∀ certificate ∈ chain.dropLast, certificate.isSelfIssued = false
  leafIssuesNone : ∀ leaf, chain.head? = some leaf →
    ∀ certificate ∈ chain.tail, ¬ certificate.IssuedBy leaf

private theorem dropRepeated_ne_nil {presented : List Certificate} (nonempty : presented ≠ []) :
    dropRepeated presented ≠ [] := by
  obtain ⟨first, others, rfl⟩ := List.exists_cons_of_ne_nil nonempty
  exact List.cons_ne_nil first (dropSeen [first.fingerprint] others)

theorem Orders.inOrder {presented chain : List Certificate} (orders : Orders presented chain)
    (nonempty : presented ≠ []) : InOrder chain where
  nonempty := by
    rintro rfl
    exact dropRepeated_ne_nil nonempty orders.permutes.symm.eq_nil
  distinct := (orders.permutes.map _).nodup_iff.mpr (nodup_dropSeen [] presented)
  linked := orders.linked
  lastOnlySelfIssued := orders.lastOnlySelfIssued
  leafIssuesNone := orders.leafIssuesNone

theorem orders_of_sort {presented ordered : List Certificate}
    (sorted : sort presented = .ok ordered) : Orders presented ordered :=
  have inOrder := inOrder_of_sort sorted
  { permutes := sort_perm sorted
    linked := inOrder.linked
    lastOnlySelfIssued := inOrder.lastOnlySelfIssued
    leafIssuesNone := inOrder.leafIssuesNone }

theorem Orders.sort_eq {presented chain : List Certificate} (orders : Orders presented chain)
    (nonempty : presented ≠ []) (distinct : DistinctSubjects (dropRepeated presented)) :
    sort presented = .ok chain := by
  have inOrder := orders.inOrder nonempty
  obtain ⟨leaf, rest, rfl⟩ := List.exists_cons_of_ne_nil inOrder.nonempty
  obtain ⟨position, found⟩ := List.getElem?_of_mem (orders.permutes.subset List.mem_cons_self)
  refine sort_eq_ok_iff.mpr ⟨position, inOrder.leafPositions_of_perm orders.permutes found, ?_,
    orders.permutes.length_eq⟩
  apply walk_of_distinctSubjects _ _ ((distinctSubjects_iff_of_perm orders.permutes).mpr distinct)
    inOrder.linked inOrder.lastOnlySelfIssued
  · rw [List.getElem?_map, found]
    rfl
  · simpa [List.filterMap_map] using orders.permutes

/-- Of certificates with distinct subjects, ordering returns the only list that orders
them, and it fails only if there is none. -/
theorem sort_eq_ok_iff_orders {presented : List Certificate} (nonempty : presented ≠ [])
    (distinct : DistinctSubjects (dropRepeated presented)) :
    (∀ ordered, sort presented = .ok ordered ↔ Orders presented ordered) ∧
      (∀ first second, Orders presented first → Orders presented second → first = second) ∧
      ((¬ ∃ ordered, Orders presented ordered) → ∃ fault, sort presented = .error fault) := by
  refine ⟨?_, ?_, ?_⟩
  · intro ordered
    exact ⟨orders_of_sort, fun orders => orders.sort_eq nonempty distinct⟩
  · intro first second orders alsoOrders
    exact Except.ok.inj ((orders.sort_eq nonempty distinct).symm.trans
      (alsoOrders.sort_eq nonempty distinct))
  · intro none
    cases sorted : sort presented with
    | error fault => exact ⟨fault, rfl⟩
    | ok ordered => exact absurd ⟨ordered, orders_of_sort sorted⟩ none

end Chain

namespace Sample

/-- What is made of presented certificates and of their order. -/
def sorting {α : Type} (encodings : List Octets)
    (continuation : List Certificate → List Certificate → α) : Option α :=
  (Chain.parse encodings).toOption.bind fun presented =>
    (Chain.sort presented).toOption.map (continuation presented)

theorem exists_of_sorting {α : Type} {encodings : List Octets}
    {continuation : List Certificate → List Certificate → α} {value : α}
    (found : sorting encodings continuation = some value) :
    ∃ presented ordered, Chain.parse encodings = .ok presented ∧
      Chain.sort presented = .ok ordered ∧ continuation presented ordered = value := by
  obtain ⟨presented, parsed, rest⟩ := Option.bind_eq_some_iff.mp found
  obtain ⟨ordered, sorted, same⟩ := Option.map_eq_some_iff.mp rest
  exact ⟨presented, ordered, toOption_eq_some_iff.mp parsed, toOption_eq_some_iff.mp sorted, same⟩

end Sample

theorem Chain.orders_repeated :
    ∃ presented ordered, Chain.parse Sample.withRepetition = .ok presented ∧
      presented ≠ [] ∧ Chain.DistinctSubjects (Chain.dropRepeated presented) ∧
      ordered.length = 4 ∧ Chain.Orders presented ordered ∧
      ∀ other, Chain.Orders presented other → other = ordered := by
  have computed : (Sample.sorting Sample.withRepetition fun presented ordered =>
      (presented.isEmpty, decide (Chain.DistinctSubjects (Chain.dropRepeated presented)),
        ordered.length)) = some (false, true, 4) := by
    decide +kernel
  obtain ⟨presented, ordered, parsed, sorted, rest⟩ := Sample.exists_of_sorting computed
  simp only [Prod.mk.injEq, List.isEmpty_eq_false_iff, decide_eq_true_eq] at rest
  obtain ⟨nonempty, distinct, length⟩ := rest
  obtain ⟨found, unique, _⟩ := Chain.sort_eq_ok_iff_orders nonempty distinct
  have orders := (found ordered).mp sorted
  exact ⟨presented, ordered, parsed, nonempty, distinct, length, orders,
    fun other alsoOrders => unique other ordered alsoOrders orders⟩

end GridSecurity
