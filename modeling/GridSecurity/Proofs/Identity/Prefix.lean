import GridSecurity.Proofs.Chain.InOrder
import GridSecurity.Proofs.Identity.Extension
import GridSecurity.Proofs.Identity.Location

/-!
# The front of a resolved chain

The certificates at the end of a resolved chain, towards the trust anchor, are
not needed to tell who the client is.  As long as the identity is among those
that are left, they resolve to the same identity and stay in the order they are
in, whether or not they are sorted again.
-/

namespace GridSecurity

namespace Chain

variable {strategy : ResolutionStrategy}

/-- Neither strategy misses certificates behind the end user's: one does not look
there, and the other asks something of each of those that are there. -/
theorem IsEndUser.take {front back : List Certificate} {certificate : Certificate}
    (isEndUser : IsEndUser strategy front certificate back) (count : Nat) :
    IsEndUser strategy front certificate (back.take count) := by
  cases strategy with
  | proxyAware => exact isEndUser
  | basicConstraintsScan =>
      obtain ⟨found, none⟩ := isEndUser
      exact ⟨found, fun other member => none other (List.mem_of_mem_take member)⟩

theorem resolveIdentity_take {chain : List Certificate} {identity : Identity}
    (resolved : resolveIdentity strategy chain = .ok identity) {count : Nat}
    (beyond : identity.depth < count) :
    resolveIdentity strategy (chain.take count) = .ok identity := by
  obtain ⟨front, back, rfl, isEndUser, depth⟩ := resolveIdentity_eq_ok_iff.mp resolved
  apply resolveIdentity_eq_ok_iff.mpr
  obtain ⟨behind, rfl⟩ := Nat.exists_eq_add_of_lt beyond
  refine ⟨front, back.take behind, ?_, isEndUser.take behind, depth⟩
  rw [← depth, Nat.add_assoc, List.take_length_add_append, List.take_succ_cons]

end Chain

namespace IdentityResolver

/-- A chain in order stays as it is, sorted or checked. -/
theorem order_eq_self {chain : List Certificate} (inOrder : Chain.InOrder chain)
    (resolver : IdentityResolver) : resolver.order chain = .ok chain := by
  unfold order
  split
  · exact inOrder.sort_eq
  · rw [Chain.checkLinkage_eq_ok_iff.mpr ⟨inOrder.nonempty, inOrder.linked⟩]
    rfl

private theorem resolveParsed_of_inOrder {resolver : IdentityResolver} {chain : List Certificate}
    {identity : Identity} (inOrder : Chain.InOrder chain)
    (resolved : Chain.resolveIdentity resolver.strategy chain = .ok identity) :
    resolver.resolveParsed chain = .ok ⟨identity, chain⟩ := by
  apply bind_eq_ok_iff.mpr
  exact ⟨chain, order_eq_self inOrder resolver, bind_eq_ok_iff.mpr ⟨identity, resolved, rfl⟩⟩

/-- A part of a chain in order that reaches from the leaf beyond the identity
resolves to the same identity, and none of it is put in another place. -/
theorem resolveParsed_take_of_inOrder (resolver : IdentityResolver) {chain : List Certificate}
    {identity : Identity} (inOrder : Chain.InOrder chain)
    (resolved : Chain.resolveIdentity resolver.strategy chain = .ok identity) {count : Nat}
    (beyond : identity.depth < count) :
    resolver.resolveParsed (chain.take count) = .ok ⟨identity, chain.take count⟩ := by
  have nonempty : chain.take count ≠ [] := by
    intro empty
    rcases List.take_eq_nil_iff.mp empty with noneTaken | noneThere
    · exact Nat.not_lt_zero _ (noneTaken ▸ beyond)
    · exact inOrder.nonempty noneThere
  rw [← List.take_append_drop count chain] at inOrder
  exact resolveParsed_of_inOrder (inOrder.of_append nonempty)
    (Chain.resolveIdentity_take resolved beyond)

end IdentityResolver

namespace Sample

/-- A user with a proxy, its authority and the authority's, in no order. -/
def unordered : List Octets :=
  [endEntity 6 'z' 'a', proxy 7 'c' 'p', endEntity 8 'y' 'z', endEntity 5 'a' 'c']

theorem exists_resolved :
    ∃ resolved, (⟨.proxyAware, true⟩ : IdentityResolver).resolve unordered = .ok resolved ∧
      resolved.identity.depth = 1 ∧ resolved.chain.length = 4 := by
  have computed : (resolving unordered fun resolved =>
      some (resolved.identity.depth, resolved.chain.length)) = some (1, 4) := by
    decide +kernel
  obtain ⟨resolved, found, rest⟩ := exists_of_resolving computed
  simp only [Option.some.injEq, Prod.mk.injEq] at rest
  exact ⟨resolved, found, rest⟩

end Sample

namespace IdentityResolver

/-- Presented certificates that have been sorted and resolved once are resolved to
the same identity again, in the same order, by a resolver that sorts as well as by
one that does not.  This holds also without certificates at the end of the chain,
as long as the identity is left. -/
theorem resolveParsed_take {strategy : ResolutionStrategy} {encodings : List Octets}
    {resolved : ResolvedChain}
    (found : (⟨strategy, true⟩ : IdentityResolver).resolve encodings = .ok resolved)
    {count : Nat} (beyond : resolved.identity.depth < count)
    (within : count ≤ resolved.chain.length) (sorts : Bool) :
    (⟨strategy, sorts⟩ : IdentityResolver).resolveParsed (resolved.chain.take count) =
        .ok ⟨resolved.identity, resolved.chain.take count⟩ ∧
      (resolved.chain.take count).length = count := by
  obtain ⟨presented, _, sorted, identified⟩ := resolve_eq_ok_iff.mp found
  exact ⟨resolveParsed_take_of_inOrder ⟨strategy, sorts⟩ (Chain.inOrder_of_sort sorted)
      identified beyond,
    List.length_take_of_le within⟩

theorem resolveParsed_take_of_unordered :
    ∃ resolved,
      (⟨.proxyAware, true⟩ : IdentityResolver).resolve Sample.unordered = .ok resolved ∧
      resolved.identity.depth < 2 ∧ 2 ≤ resolved.chain.length ∧
      (⟨.proxyAware, true⟩ : IdentityResolver).resolveParsed (resolved.chain.take 2) =
        .ok ⟨resolved.identity, resolved.chain.take 2⟩ ∧
      (⟨.proxyAware, false⟩ : IdentityResolver).resolveParsed (resolved.chain.take 2) =
        .ok ⟨resolved.identity, resolved.chain.take 2⟩ := by
  obtain ⟨resolved, found, depth, length⟩ := Sample.exists_resolved
  have beyond : resolved.identity.depth < 2 := by omega
  have within : 2 ≤ resolved.chain.length := by omega
  exact ⟨resolved, found, beyond, within, (resolveParsed_take found beyond within true).1,
    (resolveParsed_take found beyond within false).1⟩

end IdentityResolver

end GridSecurity
