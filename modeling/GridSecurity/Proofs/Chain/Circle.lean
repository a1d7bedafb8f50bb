import GridSecurity.Proofs.Chain.Completeness
import Mathlib.Logic.Relation

/-!
# Circles

Certificates may issue each other in a circle.  The walk looks for an issuer only among
the certificates that are left, so that it goes through a circle behind the leaf without
noticing it and ends where the circle closes, or leaves it by another certificate of a
subject it has met before.  What ordering returns leads out of the presented certificates
exactly if there is no circle among them.
-/

namespace GridSecurity

namespace Chain

/-- One of the certificates, which is not self-issued, was issued by another one. -/
structure LeadsTo (certificates : List Certificate) (certificate authority : Certificate) :
    Prop where
  member : certificate ∈ certificates
  authorityMember : authority ∈ certificates
  notSelfIssued : certificate.isSelfIssued = false
  issued : certificate.IssuedBy authority

/-- From one of the certificates, following the issuers leads back to it. -/
def HasCircle (certificates : List Certificate) : Prop :=
  ∃ certificate, Relation.TransGen (LeadsTo certificates) certificate certificate

/-- A chain comes to no subject twice, and its last certificate does not lead back into
it. -/
@[mk_iff] structure LeadsOut (chain : List Certificate) : Prop where
  distinctSubjects : DistinctSubjects chain
  endsOutside : ∀ last ∈ chain.getLast?,
    last.isSelfIssued = true ∨ ∀ authority ∈ chain, ¬ last.IssuedBy authority

instance (chain : List Certificate) : Decidable (LeadsOut chain) :=
  decidable_of_iff _ (leadsOut_iff chain).symm

theorem LeadsTo.mono {certificates more : List Certificate} (inside : certificates ⊆ more) :
    LeadsTo certificates ≤ LeadsTo more := by
  intro certificate authority leads
  exact { leads with
    member := inside leads.member
    authorityMember := inside leads.authorityMember }

theorem HasCircle.mono {certificates more : List Certificate} (inside : certificates ⊆ more)
    (hasCircle : HasCircle certificates) : HasCircle more := by
  obtain ⟨certificate, circle⟩ := hasCircle
  exact ⟨certificate, Relation.TransGen.mono (LeadsTo.mono inside) _ _ circle⟩

theorem hasCircle_iff_of_perm {first second : List Certificate} (permutation : first.Perm second) :
    HasCircle first ↔ HasCircle second :=
  ⟨.mono permutation.subset, .mono permutation.symm.subset⟩

/-! ## Without a circle a chain leads out -/

/-- What leads to a certificate leads to every other one of its subject. -/
private theorem transGen_leadsTo_of_same {certificates : List Certificate}
    {certificate authority other : Certificate}
    (path : Relation.TransGen (LeadsTo certificates) certificate authority)
    (otherMember : other ∈ certificates) (same : authority.subject.Same other.subject) :
    Relation.TransGen (LeadsTo certificates) certificate other := by
  cases path with
  | single leads =>
      exact .single { leads with
        authorityMember := otherMember
        issued := leads.issued.trans same }
  | tail front leads =>
      exact .tail front { leads with
        authorityMember := otherMember
        issued := leads.issued.trans same }

private theorem InOrder.isChain_leadsTo {chain : List Certificate} (inOrder : InOrder chain) :
    chain.IsChain (LeadsTo chain) := by
  rw [List.isChain_iff_getElem]
  intro position inside
  have before : position < chain.dropLast.length := by
    rw [List.length_dropLast]
    omega
  have inFront : chain[position] ∈ chain.dropLast := by
    rw [← List.getElem_dropLast before]
    exact List.getElem_mem before
  exact {
    member := List.getElem_mem _
    authorityMember := List.getElem_mem _
    notSelfIssued := inOrder.lastOnlySelfIssued _ inFront
    issued := inOrder.linked.issuedBy (List.getElem?_eq_getElem (Nat.lt_of_succ_lt inside))
      (List.getElem?_eq_getElem inside) }

/-- Every certificate of a chain in order leads to all those behind it. -/
theorem InOrder.pairwise_leadsTo {chain : List Certificate} (inOrder : InOrder chain) :
    chain.Pairwise (Relation.TransGen (LeadsTo chain)) :=
  (inOrder.isChain_leadsTo.imp fun _ _ => .single).pairwise

theorem InOrder.leadsOut {chain : List Certificate} (inOrder : InOrder chain)
    (noCircle : ¬ HasCircle chain) : LeadsOut chain := by
  have behind := inOrder.pairwise_leadsTo
  -- A subject that comes again, or an issuer inside the chain, would close a circle.
  constructor
  · apply behind.imp
    intro certificate other path same
    obtain ⟨_, leads, _⟩ := Relation.TransGen.head'_iff.mp path
    exact noCircle ⟨certificate, transGen_leadsTo_of_same path leads.member same.symm⟩
  · intro last isLast
    obtain ⟨front, rfl⟩ := List.getLast?_eq_some_iff.mp isLast
    rw [or_iff_not_imp_left, Bool.not_eq_true]
    intro notSelfIssued authority member issued
    rcases List.mem_append.mp member with inFront | isLast
    · have onward := (List.pairwise_append.mp behind).2.2 authority inFront last
        (List.mem_singleton_self last)
      have back : LeadsTo (front ++ [last]) last authority :=
        ⟨List.mem_append_right front (List.mem_singleton_self last), member, notSelfIssued, issued⟩
      exact noCircle ⟨authority, onward.tail back⟩
    · obtain rfl := List.mem_singleton.mp isLast
      exact not_issuedBy_self notSelfIssued issued

theorem distinctSubjects_of_no_circle {presented ordered : List Certificate}
    (sorted : sort presented = .ok ordered) (noCircle : ¬ HasCircle (dropRepeated presented)) :
    DistinctSubjects (dropRepeated presented) := by
  have permutation := sort_perm sorted
  rw [← hasCircle_iff_of_perm permutation] at noCircle
  rw [← distinctSubjects_iff_of_perm permutation]
  exact ((inOrder_of_sort sorted).leadsOut noCircle).distinctSubjects

/-! ## A chain that leads out has no circle -/

/-- Every step to an issuer goes to a later place of a chain that leads out. -/
theorem LeadsOut.idxOf_lt {chain : List Certificate} (leadsOut : LeadsOut chain)
    (linked : Linked chain) {certificate authority : Certificate}
    (leads : LeadsTo chain certificate authority) :
    chain.idxOf certificate < chain.idxOf authority := by
  have distinct : chain.Nodup :=
    (distinctSubjects_iff_nodup.mp leadsOut.distinctSubjects).of_map
  obtain ⟨position, inside, rfl⟩ := List.getElem_of_mem leads.member
  by_cases next : position + 1 < chain.length
  · have issued : chain[position].IssuedBy chain[position + 1] :=
      linked.issuedBy (List.getElem?_eq_getElem inside) (List.getElem?_eq_getElem next)
    obtain rfl : authority = chain[position + 1] :=
      leadsOut.distinctSubjects.eq leads.authorityMember (List.getElem_mem next)
        (leads.issued.symm.trans issued)
    rw [distinct.idxOf_getElem, distinct.idxOf_getElem]
    exact position.lt_succ_self
  · have isLast : chain[position] ∈ chain.getLast? := by
      rw [List.getLast?_eq_getElem?, Option.mem_def, List.getElem?_eq_some_iff]
      have lastPosition : chain.length - 1 = position := by omega
      exact ⟨by omega, by simp [lastPosition]⟩
    rcases leadsOut.endsOutside _ isLast with selfIssued | outside
    · exact absurd selfIssued (Bool.eq_false_iff.mp leads.notSelfIssued)
    · exact absurd leads.issued (outside authority leads.authorityMember)

theorem LeadsOut.not_hasCircle {chain : List Certificate} (leadsOut : LeadsOut chain)
    (linked : Linked chain) : ¬ HasCircle chain := by
  rintro ⟨certificate, circle⟩
  have later : ∀ {authority}, Relation.TransGen (LeadsTo chain) certificate authority →
      chain.idxOf certificate < chain.idxOf authority := by
    intro authority path
    induction path with
    | single leads => exact leadsOut.idxOf_lt linked leads
    | tail _ leads induction => exact induction.trans (leadsOut.idxOf_lt linked leads)
  exact Nat.lt_irrefl _ (later circle)

/-- Ordering does not tell whether there is a circle: what it returns leads out of the
presented certificates exactly if they have none. -/
theorem leadsOut_iff_no_circle {presented ordered : List Certificate}
    (sorted : sort presented = .ok ordered) :
    LeadsOut ordered ↔ ¬ HasCircle (dropRepeated presented) := by
  rw [← hasCircle_iff_of_perm (sort_perm sorted)]
  have inOrder := inOrder_of_sort sorted
  exact ⟨fun leadsOut => leadsOut.not_hasCircle inOrder.linked, inOrder.leadsOut⟩

end Chain

theorem Chain.leadsOut_of_repeated :
    ∃ presented ordered, Chain.parse Sample.withRepetition = .ok presented ∧
      Chain.sort presented = .ok ordered ∧ Chain.LeadsOut ordered ∧
      ¬ Chain.HasCircle (Chain.dropRepeated presented) := by
  have computed : (Sample.sorting Sample.withRepetition fun _ ordered =>
      decide (Chain.LeadsOut ordered)) = some true := by
    decide +kernel
  obtain ⟨presented, ordered, parsed, sorted, leadsOut⟩ := Sample.exists_of_sorting computed
  exact ⟨presented, ordered, parsed, sorted, of_decide_eq_true leadsOut,
    (Chain.leadsOut_iff_no_circle sorted).mp (of_decide_eq_true leadsOut)⟩

/-- A user and two authorities that issued each other. -/
def Sample.circular : List Octets :=
  [endEntity 5 'a' 'c', endEntity 6 'z' 'a', endEntity 7 'a' 'z']

/-- Ordering takes two authorities that issued each other for a chain. -/
theorem Chain.not_leadsOut_of_circular :
    ∃ presented ordered, Chain.parse Sample.circular = .ok presented ∧
      Chain.sort presented = .ok ordered ∧ ¬ Chain.LeadsOut ordered := by
  have computed : (Sample.sorting Sample.circular fun _ ordered =>
      decide (Chain.LeadsOut ordered)) = some false := by
    decide +kernel
  obtain ⟨presented, ordered, parsed, sorted, leadsBack⟩ := Sample.exists_of_sorting computed
  exact ⟨presented, ordered, parsed, sorted, of_decide_eq_false leadsBack⟩

end GridSecurity
