import GridSecurity.Proofs.Identity.Prefix

/-!
# The choice of a strategy

A strategy goes along an ordered chain, one from the leaf and the other from the trust
anchor, and passes over certificates until it gets to the end user's.  The identity is
that certificate at its place in the chain, and there is none only if the strategy passes
over all of them.
-/

namespace GridSecurity

namespace Chain

/-- A strategy does not take a certificate for the end user's. -/
def PassesOver (strategy : ResolutionStrategy) (certificate : Certificate) : Prop :=
  match strategy with
  | .proxyAware => certificate.isProxy = true
  | .basicConstraintsScan => certificate.isAuthority = true ∨ certificate.isSelfIssued = true

/-- The fault of a chain in which a strategy passes over every certificate. -/
def onlyPassedOver (strategy : ResolutionStrategy) : ChainFault :=
  match strategy with
  | .proxyAware => .onlyProxies
  | .basicConstraintsScan => .onlyAuthorities

theorem isEndEntity_eq_false_iff {certificate : Certificate} :
    isEndEntity certificate = false ↔ PassesOver .basicConstraintsScan certificate := by
  unfold isEndEntity PassesOver
  cases certificate.isAuthority <;> simp

theorem endUser?_eq_none_iff {chain : List Certificate} :
    endUser? chain = none ↔ ∀ certificate ∈ chain, PassesOver .proxyAware certificate := by
  simp [endUser?, PassesOver]

theorem lastEndEntity?_eq_none_iff {chain : List Certificate} :
    lastEndEntity? chain = none ↔
      ∀ certificate ∈ chain, PassesOver .basicConstraintsScan certificate := by
  unfold lastEndEntity?
  rw [List.find?_eq_none]
  simp only [← isEndEntity_eq_false_iff, Prod.forall, List.mem_reverse,
    List.mem_zipIdx_iff_getElem?, Bool.not_eq_true]
  constructor
  · intro none certificate member
    obtain ⟨position, found⟩ := List.getElem?_of_mem member
    exact none certificate position found
  · intro none certificate position found
    exact none certificate (List.mem_of_getElem? found)

theorem resolveIdentity_eq_error_iff {strategy : ResolutionStrategy} {chain : List Certificate}
    (nonempty : chain ≠ []) {fault : ChainFault} :
    resolveIdentity strategy chain = .error fault ↔
      fault = onlyPassedOver strategy ∧
        ∀ certificate ∈ chain, PassesOver strategy certificate := by
  obtain ⟨leaf, rest, rfl⟩ := List.exists_cons_of_ne_nil nonempty
  cases strategy with
  | proxyAware =>
      rw [← endUser?_eq_none_iff, resolveIdentity_proxyAware_cons]
      split
      · next found => simp [found]
      · next none => simp [none, onlyPassedOver, eq_comm]
  | basicConstraintsScan =>
      rw [← lastEndEntity?_eq_none_iff]
      unfold resolveIdentity
      dsimp only
      split
      · next found => simp [found]
      · next none => simp [none, onlyPassedOver, eq_comm]

/-- An identity stands at its depth in a linked chain, and the strategy, which did not
pass over it, has passed over all certificates on its way to it. -/
structure Locates (strategy : ResolutionStrategy) (resolved : ResolvedChain) : Prop where
  nonempty : resolved.chain ≠ []
  linked : Linked resolved.chain
  located : resolved.chain[resolved.identity.depth]? = some resolved.identity.certificate
  named : ∀ certificate, resolved.chain[resolved.identity.depth]? = some certificate →
    resolved.identity.subject = certificate.subject ∧
      resolved.identity.issuer = certificate.issuer ∧
      resolved.identity.serial = certificate.serial
  isEndUser : ¬ PassesOver strategy resolved.identity.certificate
  inFront : strategy = .proxyAware →
    ∀ certificate ∈ resolved.chain.take resolved.identity.depth,
      PassesOver strategy certificate
  delegates : ∀ position, resolved.identity.depth = position + 1 →
    ∃ delegate, resolved.chain[position]? = some delegate ∧
      delegate.IssuedBy resolved.identity.certificate
  behind : strategy = .basicConstraintsScan →
    ∀ certificate ∈ resolved.chain.drop (resolved.identity.depth + 1),
      PassesOver strategy certificate

private theorem IsEndUser.not_passesOver {strategy : ResolutionStrategy}
    {front back : List Certificate} {certificate : Certificate}
    (isEndUser : IsEndUser strategy front certificate back) :
    ¬ PassesOver strategy certificate := by
  cases strategy with
  | proxyAware =>
      obtain ⟨_, notProxy⟩ := isEndUser
      exact Bool.eq_false_iff.mp notProxy
  | basicConstraintsScan =>
      obtain ⟨endEntity, _⟩ := isEndUser
      rw [← isEndEntity_eq_false_iff, Bool.not_eq_false]
      exact endEntity

theorem locates_of_resolveIdentity {strategy : ResolutionStrategy} {resolved : ResolvedChain}
    (linked : Linked resolved.chain)
    (found : resolveIdentity strategy resolved.chain = .ok resolved.identity) :
    Locates strategy resolved := by
  obtain ⟨front, back, whole, isEndUser, depth⟩ := resolveIdentity_eq_ok_iff.mp found
  have located : resolved.chain[resolved.identity.depth]? = some resolved.identity.certificate := by
    rw [whole, ← depth]
    simp
  refine {
    nonempty := ?_
    linked := linked
    located := located
    named := ?_
    isEndUser := isEndUser.not_passesOver
    inFront := ?_
    delegates := ?_
    behind := ?_ }
  · rw [whole]
    simp
  · intro certificate here
    obtain rfl := Option.some.inj (located.symm.trans here)
    exact ⟨rfl, rfl, rfl⟩
  · rintro rfl
    rw [whole, ← depth, List.take_left]
    exact isEndUser.1
  · intro position following
    rw [following] at located
    have inside : position < resolved.chain.length :=
      Nat.lt_of_succ_lt (List.getElem?_eq_some_iff.mp located).1
    have here := List.getElem?_eq_getElem inside
    exact ⟨_, here, linked.issuedBy here located⟩
  · rintro rfl
    intro certificate member
    rw [whole, ← depth, List.append_cons, List.drop_left' (by simp)] at member
    exact isEndEntity_eq_false_iff.mp (isEndUser.2 certificate member)

end Chain

namespace IdentityResolver

theorem linked_of_order {resolver : IdentityResolver} {presented chain : List Certificate}
    (ordered : resolver.order presented = .ok chain) : Chain.Linked chain := by
  unfold order at ordered
  split at ordered
  · exact (Chain.inOrder_of_sort ordered).linked
  · obtain ⟨_, accepted, rfl⟩ := map_eq_ok_iff.mp ordered
    exact (Chain.checkLinkage_eq_ok_iff.mp accepted).2

/-- Whatever is resolved, the identity is the certificate that the strategy chooses at its
place in the chain.  A chain has no identity, and is malformed, only if the strategy
passes over every certificate of it. -/
theorem identity_located (resolver : IdentityResolver) :
    (∀ (encodings : List Octets) (resolved : ResolvedChain),
        resolver.resolve encodings = .ok resolved →
          Chain.Locates resolver.strategy resolved) ∧
      ∀ (chain : List Certificate) (fault : ChainFault), chain ≠ [] →
        (Chain.resolveIdentity resolver.strategy chain = .error fault ↔
          fault = Chain.onlyPassedOver resolver.strategy ∧
            ∀ certificate ∈ chain, Chain.PassesOver resolver.strategy certificate) := by
  constructor
  · intro encodings resolved found
    obtain ⟨_, _, ordered, identified⟩ := resolve_eq_ok_iff.mp found
    exact Chain.locates_of_resolveIdentity (linked_of_order ordered) identified
  · intro chain fault nonempty
    exact Chain.resolveIdentity_eq_error_iff nonempty

/-- The user behind a proxy is found, and no user behind a proxy that was presented
alone. -/
theorem identity_located_of_unordered :
    ∃ resolved delegate,
      (⟨.proxyAware, true⟩ : IdentityResolver).resolve Sample.unordered = .ok resolved ∧
      resolved.identity.depth = 1 ∧ Chain.Locates .proxyAware resolved ∧
      Certificate.parse (Sample.proxy 7 'c' 'p') = .ok delegate ∧
      Chain.PassesOver .proxyAware delegate ∧
      Chain.resolveIdentity .proxyAware [delegate] = .error .onlyProxies := by
  have computed : (Sample.reading (Sample.proxy 7 'c' 'p') fun delegate =>
      some delegate.isProxy) = some true := by
    decide +kernel
  obtain ⟨delegate, parsed, isProxy⟩ := Sample.exists_of_reading computed
  obtain ⟨resolved, found, depth, _⟩ := Sample.exists_resolved
  obtain ⟨locates, refuses⟩ := identity_located ⟨.proxyAware, true⟩
  have passedOver : Chain.PassesOver .proxyAware delegate := Option.some.inj isProxy
  refine ⟨resolved, delegate, found, depth, locates _ resolved found, parsed, passedOver, ?_⟩
  apply (refuses [delegate] .onlyProxies (List.cons_ne_nil delegate [])).mpr
  exact ⟨rfl, List.forall_mem_singleton.mpr passedOver⟩

end IdentityResolver

end GridSecurity
