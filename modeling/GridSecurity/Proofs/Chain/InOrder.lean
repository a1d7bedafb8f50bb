import GridSecurity.Proofs.Chain.Order
import Mathlib.Data.List.Chain
import Mathlib.Data.List.Nodup

/-!
# Chains in order

Ordering a chain that is in order leaves it as it is, because the walk finds the
issuer of each certificate in the next place.  Every result of ordering is in
order, and so is what is left of it without certificates at the end.
-/

namespace GridSecurity.Chain

/-- Certificates stand in order from the leaf towards the trust anchor. -/
structure InOrder (chain : List Certificate) : Prop where
  nonempty : chain ≠ []
  distinct : (chain.map (·.fingerprint)).Nodup
  linked : Linked chain
  lastOnlySelfIssued : ∀ certificate ∈ chain.dropLast, certificate.isSelfIssued = false
  leafIssuesNone : ∀ leaf, chain.head? = some leaf →
    ∀ certificate ∈ chain.tail, ¬ certificate.IssuedBy leaf

/-! ## Links -/

theorem linked_iff_isChain {chain : List Certificate} :
    Linked chain ↔ chain.IsChain Certificate.IssuedBy := by
  induction chain with
  | nil => simp [Linked]
  | cons certificate chain induction =>
      cases chain with
      | nil => simp [Linked]
      | cons authority rest => rw [List.isChain_cons_cons, ← induction, Linked]

/-- Certificates that follow each other in a linked chain are linked. -/
theorem Linked.issuedBy {chain : List Certificate} (linked : Linked chain) {position : Nat}
    {certificate authority : Certificate} (found : chain[position]? = some certificate)
    (next : chain[position + 1]? = some authority) : certificate.IssuedBy authority := by
  obtain ⟨_, rfl⟩ := List.getElem?_eq_some_iff.mp found
  obtain ⟨inside, rfl⟩ := List.getElem?_eq_some_iff.mp next
  exact List.isChain_iff_getElem.mp (linked_iff_isChain.mp linked) position inside

theorem not_issuedBy_self {certificate : Certificate}
    (notSelfIssued : certificate.isSelfIssued = false) : ¬ certificate.IssuedBy certificate :=
  fun issued => of_decide_eq_false notSelfIssued issued.symm

/-- The certificate in front of another one in a linked chain was issued by it. -/
theorem Linked.getLast_issuedBy {front back : List Certificate} {authority : Certificate}
    (linked : Linked (front ++ authority :: back)) (nonempty : front ≠ []) :
    (front.getLast nonempty).IssuedBy authority := by
  obtain ⟨_, _, joined⟩ := List.isChain_append.mp (linked_iff_isChain.mp linked)
  exact joined _ (List.getLast?_eq_some_getLast nonempty) authority rfl

theorem firstBreak?_eq_none_iff {chain : List Certificate} (position : Nat) :
    firstBreak? position chain = none ↔ Linked chain := by
  induction chain generalizing position with
  | nil => simp [firstBreak?, Linked]
  | cons certificate chain induction =>
      cases chain with
      | nil => simp [firstBreak?, Linked]
      | cons authority rest =>
          unfold firstBreak? Linked
          split
          · next issued =>
              rw [induction]
              simp [issued]
          · next notIssued => simp [notIssued]

theorem checkLinkage_eq_ok_iff {chain : List Certificate} :
    checkLinkage chain = .ok () ↔ chain ≠ [] ∧ Linked chain := by
  rw [← firstBreak?_eq_none_iff 0]
  unfold checkLinkage
  cases chain with
  | nil => simp
  | cons certificate rest =>
      rw [List.isEmpty_cons, if_neg Bool.false_ne_true]
      split
      · next fault broken => simp [broken]
      · next linked => simp [linked]

/-! ## Results of ordering are in order -/

private theorem not_isSelfIssued_of_walk {places : Places} {position : Nat}
    {ordered : List Certificate} (walked : walk places position = .ok ordered) :
    ∀ certificate ∈ ordered.dropLast, certificate.isSelfIssued = false := by
  induction ordered generalizing places position with
  | nil => simp
  | cons first ordered induction =>
      obtain ⟨_, _, _, same, goesOn⟩ := walk_cases walked
      obtain ⟨rfl, rfl⟩ := List.cons.inj same
      rcases goesOn with ⟨_, rfl⟩ | ⟨next, found, later⟩
      · simp
      · obtain ⟨notSelfIssued, _⟩ := exists_of_nextPosition? found
        obtain ⟨_, _, _, rfl, _⟩ := walk_cases later
        rw [List.dropLast_cons_cons]
        exact List.forall_mem_cons.mpr ⟨notSelfIssued, induction later⟩

theorem inOrder_of_sort {presented ordered : List Certificate}
    (sorted : sort presented = .ok ordered) : InOrder ordered := by
  obtain ⟨_, _, walked, _⟩ := sort_eq_ok_iff.mp sorted
  have perm := sort_perm sorted
  have distinct : (ordered.map (·.fingerprint)).Nodup :=
    (perm.map (·.fingerprint)).nodup_iff.mpr (nodup_dropSeen [] presented)
  refine {
    nonempty := ?_
    distinct := distinct
    linked := linked_of_walk walked
    lastOnlySelfIssued := not_isSelfIssued_of_walk walked
    leafIssuesNone := ?_ }
  · obtain ⟨first, rest, _, rfl, _⟩ := walk_cases walked
    exact List.cons_ne_nil first rest
  · intro leaf first certificate member
    obtain ⟨rest, rfl⟩ := List.head?_eq_some_iff.mp first
    apply not_issuedBy_of_sort sorted first certificate
      (perm.subset (List.mem_cons_of_mem leaf member))
    rintro rfl
    exact (List.nodup_cons.mp (List.Nodup.of_map _ distinct)).1 member

/-- A chain in order stays so without certificates at its end. -/
theorem InOrder.of_append {front back : List Certificate} (inOrder : InOrder (front ++ back))
    (nonempty : front ≠ []) : InOrder front := by
  obtain ⟨leaf, rest, rfl⟩ := List.exists_cons_of_ne_nil nonempty
  refine {
    nonempty := nonempty
    distinct := inOrder.distinct.sublist ((List.sublist_append_left _ back).map _)
    linked := linked_iff_isChain.mpr (linked_iff_isChain.mp inOrder.linked).left_of_append
    lastOnlySelfIssued := ?_
    leafIssuesNone := ?_ }
  · intro certificate member
    apply inOrder.lastOnlySelfIssued
    cases back with
    | nil => simpa using member
    | cons next back =>
        rw [List.dropLast_append_cons]
        exact List.mem_append_left _ ((List.dropLast_sublist _).subset member)
  · intro first isFirst certificate member
    exact inOrder.leafIssuesNone first isFirst certificate (List.mem_append_left back member)

/-! ## A chain in order is a fixed point -/

theorem dropSeen_eq_self {seen : List String} {chain : List Certificate}
    (distinct : (chain.map (·.fingerprint)).Nodup)
    (unseen : ∀ certificate ∈ chain, certificate.fingerprint ∉ seen) :
    dropSeen seen chain = chain := by
  induction chain generalizing seen with
  | nil => rfl
  | cons first chain induction =>
      obtain ⟨firstUnseen, laterUnseen⟩ := List.forall_mem_cons.mp unseen
      rw [List.map_cons, List.nodup_cons] at distinct
      rw [dropSeen_cons_of_notMem firstUnseen, induction distinct.2]
      intro certificate member seenBefore
      rcases List.mem_cons.mp seenBefore with same | before
      · exact distinct.1 (same ▸ List.mem_map_of_mem member)
      · exact laterUnseen certificate member before

theorem InOrder.nodup {chain : List Certificate} (inOrder : InOrder chain) : chain.Nodup :=
  inOrder.distinct.of_map

/-- The leaf of a chain in order is the only certificate that issues no other one:
each of the others issues the one in front of it. -/
theorem InOrder.eq_leaf_iff {leaf : Certificate} {rest : List Certificate}
    (inOrder : InOrder (leaf :: rest)) {certificate : Certificate}
    (member : certificate ∈ leaf :: rest) :
    certificate = leaf ↔
      ∀ other ∈ leaf :: rest, other ≠ certificate → ¬ other.IssuedBy certificate := by
  constructor
  · rintro rfl other otherMember different
    apply inOrder.leafIssuesNone certificate rfl other
    exact (List.mem_cons.mp otherMember).resolve_left different
  · intro issuesNoOther
    obtain ⟨front, back, whole⟩ := List.append_of_mem member
    cases front with
    | nil => exact (List.cons.inj whole).1.symm
    | cons first front =>
        have nonempty := List.cons_ne_nil first front
        have linked := inOrder.linked
        have distinct := inOrder.nodup
        rw [whole] at linked distinct issuesNoOther
        have inFront := List.getLast_mem nonempty
        have different := (List.nodup_append.mp distinct).2.2 _ inFront certificate
          List.mem_cons_self
        exact absurd (linked.getLast_issuedBy nonempty)
          (issuesNoOther _ (List.mem_append_left _ inFront) different)

/-- The leaf of a chain in order is told in whatever order its certificates stand. -/
theorem InOrder.leafPositions_of_perm {leaf : Certificate} {rest certificates : List Certificate}
    (inOrder : InOrder (leaf :: rest)) (permutation : (leaf :: rest).Perm certificates)
    {position : Nat} (found : certificates[position]? = some leaf) :
    leafPositions certificates = [position] := by
  have distinct : certificates.Nodup := permutation.nodup_iff.mp inOrder.nodup
  apply List.perm_singleton.mp
  rw [List.perm_ext_iff_of_nodup (nodup_leafPositions certificates) (List.nodup_singleton position)]
  intro place
  rw [mem_leafPositions_iff_of_nodup distinct, List.mem_singleton]
  constructor
  · rintro ⟨certificate, there, issuesNoOther⟩
    have member := permutation.symm.subset (List.mem_of_getElem? there)
    obtain rfl : certificate = leaf := (inOrder.eq_leaf_iff member).mpr
      fun other otherMember => issuesNoOther other (permutation.subset otherMember)
    apply (List.getElem?_inj (List.getElem?_eq_some_iff.mp there).1 distinct).mp
    rw [there, found]
  · rintro rfl
    refine ⟨leaf, found, ?_⟩
    intro other member
    exact (inOrder.eq_leaf_iff List.mem_cons_self).mp rfl other (permutation.symm.subset member)

theorem InOrder.leafPositions_eq {chain : List Certificate} (inOrder : InOrder chain) :
    leafPositions chain = [0] := by
  obtain ⟨leaf, rest, rfl⟩ := List.exists_cons_of_ne_nil inOrder.nonempty
  exact inOrder.leafPositions_of_perm (.refl _) rfl

theorem walk_of_nextPosition?_eq_some {places : Places} {position next : Nat}
    {certificate : Certificate} (found : places[position]? = some (some certificate))
    (goesOn : nextPosition? (places.set position none) certificate = some next) :
    walk places position =
      (walk (places.set position none) next).map (certificate :: ·) := by
  rw [walk]
  split
  · next other alsoFound =>
      obtain rfl := Option.some.inj (Option.some.inj (found.symm.trans alsoFound))
      dsimp only
      rw [goesOn]
  · next nobody =>
      exact absurd found (nobody certificate)

/-- A walk along a chain in order uses one place after the other. -/
theorem walk_eq_self {chain : List Certificate} (nonempty : chain ≠ []) (linked : Linked chain)
    (lastOnlySelfIssued : ∀ certificate ∈ chain.dropLast, certificate.isSelfIssued = false)
    (used : Nat) :
    walk (List.replicate used none ++ chain.map some) used = .ok chain := by
  -- The places that are used already stay empty, whatever comes behind them.
  induction chain generalizing used with
  | nil => exact absurd rfl nonempty
  | cons certificate rest induction =>
      have found : (List.replicate used none ++ (certificate :: rest).map some)[used]? =
          some (some certificate) := by
        rw [List.getElem?_append_right (by simp)]
        simp
      have emptied : (List.replicate used none ++ (certificate :: rest).map some).set used none =
          List.replicate (used + 1) none ++ rest.map some := by
        rw [List.set_append_right _ _ (by simp)]
        simp [List.replicate_succ']
      cases rest with
      | nil =>
          apply walk_of_nextPosition?_eq_none found
          rw [emptied]
          simp [nextPosition?]
      | cons authority rest =>
          obtain ⟨issued, restLinked⟩ := linked
          rw [List.dropLast_cons_cons] at lastOnlySelfIssued
          obtain ⟨notSelfIssued, restNotSelfIssued⟩ := List.forall_mem_cons.mp lastOnlySelfIssued
          have goesOn : nextPosition?
              (List.replicate (used + 1) none ++ (authority :: rest).map some) certificate =
              some (used + 1) := by
            unfold nextPosition?
            rw [notSelfIssued, if_neg Bool.false_ne_true, List.findIdx?_append]
            simp [List.findIdx?_cons, issued]
          rw [← emptied] at goesOn
          rw [walk_of_nextPosition?_eq_some found goesOn, emptied,
            induction (List.cons_ne_nil _ _) restLinked restNotSelfIssued]
          rfl

theorem InOrder.sort_eq {chain : List Certificate} (inOrder : InOrder chain) :
    sort chain = .ok chain := by
  have distinct : dropRepeated chain = chain :=
    dropSeen_eq_self inOrder.distinct (by simp)
  apply sort_eq_ok_iff.mpr
  rw [distinct]
  exact ⟨0, inOrder.leafPositions_eq,
    walk_eq_self inOrder.nonempty inOrder.linked inOrder.lastOnlySelfIssued 0, rfl⟩

end GridSecurity.Chain
