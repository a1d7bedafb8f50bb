import GridSecurity.Proofs.Identity

/-!
# Where the identity stands

Each strategy cuts an ordered chain at the certificate of the end user.  What it
asks of the certificates in front of the cut or behind it decides which changes
to a chain leave the identity where it is.
-/

namespace GridSecurity.Chain

/-- A strategy takes a certificate, with those in front of it and those behind it,
for the end user's. -/
def IsEndUser (strategy : ResolutionStrategy) (front : List Certificate)
    (certificate : Certificate) (back : List Certificate) : Prop :=
  match strategy with
  | .proxyAware => (∀ proxy ∈ front, proxy.isProxy = true) ∧ certificate.isProxy = false
  | .basicConstraintsScan =>
      isEndEntity certificate = true ∧ ∀ other ∈ back, isEndEntity other = false

theorem lastEndEntity?_eq_some_iff {chain : List Certificate} {certificate : Certificate}
    {position : Nat} :
    lastEndEntity? chain = some (certificate, position) ↔
      ∃ front back, chain = front ++ certificate :: back ∧
        IsEndUser .basicConstraintsScan front certificate back ∧ front.length = position := by
  unfold lastEndEntity?
  rw [List.find?_eq_some_iff_append]
  constructor
  · rintro ⟨found, behind, before, reversed, none⟩
    have numbered : chain.zipIdx = before.reverse ++ (certificate, position) :: behind.reverse := by
      rw [← List.reverse_reverse chain.zipIdx, reversed]
      simp
    have whole : chain =
        before.reverse.map Prod.fst ++ certificate :: behind.reverse.map Prod.fst := by
      simpa using congrArg (List.map Prod.fst) numbered
    have number : chain.zipIdx[before.reverse.length]? = some (certificate, position) := by
      rw [numbered]
      simp
    refine ⟨_, _, whole, ⟨found, ?_⟩, ?_⟩
    · intro other member
      obtain ⟨entry, entryMember, rfl⟩ := List.mem_map.mp member
      simpa using none entry (List.mem_reverse.mp entryMember)
    · obtain ⟨_, _, same⟩ := Option.map_eq_some_iff.mp (List.getElem?_zipIdx.symm.trans number)
      simpa using congrArg Prod.snd same
  · rintro ⟨front, back, rfl, ⟨found, none⟩, rfl⟩
    refine ⟨found, (back.zipIdx (front.length + 1)).reverse, front.zipIdx.reverse, ?_, ?_⟩
    · simp [List.zipIdx_append]
    · intro entry member
      have inBack := List.fst_mem_of_mem_zipIdx (List.mem_reverse.mp member)
      simpa using none entry.1 inBack

/-- The identity is the certificate that the strategy takes for the end user's,
and its depth is the number of those in front of it. -/
theorem resolveIdentity_eq_ok_iff {strategy : ResolutionStrategy} {chain : List Certificate}
    {identity : Identity} :
    resolveIdentity strategy chain = .ok identity ↔
      ∃ front back, chain = front ++ identity.certificate :: back ∧
        IsEndUser strategy front identity.certificate back ∧ front.length = identity.depth := by
  cases strategy with
  | proxyAware =>
      rw [resolveIdentity_proxyAware_eq_ok_iff]
      simp only [IsEndUser, and_assoc]
  | basicConstraintsScan =>
      rw [← lastEndEntity?_eq_some_iff]
      unfold resolveIdentity
      cases chain with
      | nil => simp [lastEndEntity?]
      | cons leaf rest =>
          dsimp only
          split
          · next found =>
              rw [found]
              obtain ⟨certificate, depth⟩ := identity
              simp
          · next none =>
              rw [none]
              simp

end GridSecurity.Chain
