import GridSecurity.Proofs.Chain.InOrder
import GridSecurity.Proofs.Identity.Extension

/-!
# What ordering makes of presented certificates

Ordering puts the presented certificates one behind the other, each but the last in
front of its issuer.  Of certificates with the same fingerprint it keeps the one that
was presented first, and it loses no other.  The first certificate of the result is
told by the names alone: every other one has issued the certificate in front of it.
-/

namespace GridSecurity

namespace Chain

/-- A certificate was presented before all others of its fingerprint. -/
def FirstOfFingerprint (presented : List Certificate) (certificate : Certificate) : Prop :=
  ∃ before after, presented = before ++ certificate :: after ∧
    ∀ other ∈ before, other.fingerprint ≠ certificate.fingerprint

theorem firstOfFingerprint_cons_iff {first certificate : Certificate}
    {presented : List Certificate} :
    FirstOfFingerprint (first :: presented) certificate ↔
      certificate = first ∨ first.fingerprint ≠ certificate.fingerprint ∧
        FirstOfFingerprint presented certificate := by
  constructor
  · rintro ⟨before, after, whole, others⟩
    cases before with
    | nil => exact .inl (List.cons.inj whole).1.symm
    | cons head before =>
        obtain ⟨rfl, rfl⟩ := List.cons.inj whole
        obtain ⟨headDiffers, beforeDiffer⟩ := List.forall_mem_cons.mp others
        exact .inr ⟨headDiffers, before, after, rfl, beforeDiffer⟩
  · rintro (rfl | ⟨firstDiffers, before, after, rfl, others⟩)
    · exact ⟨[], presented, rfl, by simp⟩
    · exact ⟨first :: before, after, rfl, List.forall_mem_cons.mpr ⟨firstDiffers, others⟩⟩

theorem mem_dropSeen_iff {seen : List String} {presented : List Certificate}
    {certificate : Certificate} :
    certificate ∈ dropSeen seen presented ↔
      certificate.fingerprint ∉ seen ∧ FirstOfFingerprint presented certificate := by
  induction presented generalizing seen with
  | nil => simp [dropSeen, FirstOfFingerprint]
  | cons first presented induction =>
      rw [firstOfFingerprint_cons_iff]
      by_cases before : first.fingerprint ∈ seen
      · rw [dropSeen_cons_of_mem before, induction]
        constructor
        · rintro ⟨unseen, isFirst⟩
          refine ⟨unseen, .inr ⟨?_, isFirst⟩⟩
          intro same
          exact unseen (same ▸ before)
        · rintro ⟨unseen, rfl | ⟨_, isFirst⟩⟩
          · exact absurd before unseen
          · exact ⟨unseen, isFirst⟩
      · rw [dropSeen_cons_of_notMem before, List.mem_cons, induction, List.mem_cons, not_or]
        constructor
        · rintro (rfl | ⟨⟨differs, unseen⟩, isFirst⟩)
          · exact ⟨before, .inl rfl⟩
          · exact ⟨unseen, .inr ⟨Ne.symm differs, isFirst⟩⟩
        · rintro ⟨unseen, rfl | ⟨differs, isFirst⟩⟩
          · exact .inl rfl
          · exact .inr ⟨⟨Ne.symm differs, unseen⟩, isFirst⟩

theorem mem_dropRepeated_iff {presented : List Certificate} {certificate : Certificate} :
    certificate ∈ dropRepeated presented ↔ FirstOfFingerprint presented certificate := by
  rw [dropRepeated, mem_dropSeen_iff]
  simp

/-- The certificate at a position of a chain issued none at another position. -/
def IssuesNone (chain : List Certificate) (position : Nat) (certificate : Certificate) : Prop :=
  ∀ (other : Certificate) (otherPosition : Nat), chain[otherPosition]? = some other →
    otherPosition ≠ position → ¬ other.IssuedBy certificate

/-- A chain consists of presented certificates, those with new fingerprints, from the
only leaf towards the trust anchor. -/
structure Arranges (presented chain : List Certificate) : Prop where
  permutes : chain.Perm (dropRepeated presented)
  inPresentedOrder : (dropRepeated presented).Sublist presented
  distinct : (chain.map (·.fingerprint)).Nodup
  complete : ∀ certificate, certificate ∈ chain ↔ FirstOfFingerprint presented certificate
  issued : ∀ (position : Nat) (certificate authority : Certificate),
    chain[position]? = some certificate → chain[position + 1]? = some authority →
      certificate.IssuedBy authority
  accepted : checkLinkage chain = .ok ()
  lastOnlySelfIssued : ∀ certificate ∈ chain.dropLast, certificate.isSelfIssued = false
  onlyLeaf : ∀ (position : Nat) (certificate : Certificate),
    chain[position]? = some certificate → (IssuesNone chain position certificate ↔ position = 0)

theorem InOrder.issuesNone_iff {chain : List Certificate} (inOrder : InOrder chain)
    {position : Nat} {certificate : Certificate} (found : chain[position]? = some certificate) :
    IssuesNone chain position certificate ↔ position = 0 := by
  rw [← List.mem_singleton, ← inOrder.leafPositions_eq, mem_leafPositions_iff]
  constructor
  · intro issuesNone
    exact ⟨certificate, found, issuesNone⟩
  · rintro ⟨leaf, here, issuesNone⟩
    obtain rfl := Option.some.inj (here.symm.trans found)
    exact issuesNone

/-- Whatever certificates are presented, a chain that ordering returns arranges them. -/
theorem arranges_of_sort {presented ordered : List Certificate}
    (sorted : sort presented = .ok ordered) : Arranges presented ordered := by
  have inOrder := inOrder_of_sort sorted
  have permutes := sort_perm sorted
  exact {
    permutes := permutes
    inPresentedOrder := dropSeen_sublist [] presented
    distinct := inOrder.distinct
    complete := fun _ => permutes.mem_iff.trans mem_dropRepeated_iff
    issued := fun _ _ _ found next => inOrder.linked.issuedBy found next
    accepted := checkLinkage_eq_ok_iff.mpr ⟨inOrder.nonempty, inOrder.linked⟩
    lastOnlySelfIssued := inOrder.lastOnlySelfIssued
    onlyLeaf := fun _ _ found => inOrder.issuesNone_iff found }

end Chain

namespace Sample

/-- A user with a proxy, an authority that was presented twice, and a self-issued one. -/
def withRepetition : List Octets :=
  [endEntity 6 'z' 'a', endEntity 5 'a' 'c', endEntity 6 'z' 'a', endEntity 8 'z' 'z',
    proxy 7 'c' 'p']

end Sample

theorem Chain.arranges_of_sort_repeated :
    ∃ presented ordered, Chain.parse Sample.withRepetition = .ok presented ∧
      Chain.sort presented = .ok ordered ∧ presented.length = 5 ∧ ordered.length = 4 ∧
      Chain.Arranges presented ordered := by
  have computed : ((Chain.parse Sample.withRepetition).toOption.bind fun presented =>
      (Chain.sort presented).toOption.map fun ordered =>
        (presented.length, ordered.length)) = some (5, 4) := by
    decide +kernel
  obtain ⟨presented, parsed, rest⟩ := Option.bind_eq_some_iff.mp computed
  obtain ⟨ordered, sorted, lengths⟩ := Option.map_eq_some_iff.mp rest
  obtain ⟨presentedLength, orderedLength⟩ := Prod.mk.inj lengths
  have isSorted := toOption_eq_some_iff.mp sorted
  exact ⟨presented, ordered, toOption_eq_some_iff.mp parsed, isSorted, presentedLength,
    orderedLength, Chain.arranges_of_sort isSorted⟩

end GridSecurity
