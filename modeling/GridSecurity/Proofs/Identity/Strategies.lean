import GridSecurity.Proofs.Identity.Choice

/-!
# The strategies compared

One strategy looks for the end user behind the proxies in front, and the other in front of
the authorities at the end.  They agree on a chain in which nothing stands between the two.
The depth of an identity tells how many proxies act for it as long as it is no greater than
the number of the proxies in front of the chain.  With the first strategy it is that number;
with the second one it is a position, and may be greater.
-/

namespace GridSecurity

namespace Chain

variable {chain : List Certificate} {identity : Identity}

/-! ## Where the strategies agree -/

/-- Both strategies find the same identity exactly if they cut the chain in the same place. -/
theorem resolveIdentity_eq_ok_iff_of_both :
    (∀ strategy, resolveIdentity strategy chain = .ok identity) ↔
      ∃ front back, chain = front ++ identity.certificate :: back ∧
        (∀ strategy, IsEndUser strategy front identity.certificate back) ∧
        front.length = identity.depth := by
  constructor
  · intro both
    obtain ⟨front, back, whole, isEndUser, depth⟩ :=
      resolveIdentity_eq_ok_iff.mp (both .proxyAware)
    refine ⟨front, back, whole, ?_, depth⟩
    intro strategy
    -- Equal depths are cuts in the same place, so the other strategy has the same front.
    obtain ⟨otherFront, otherBack, otherWhole, otherIsEndUser, otherDepth⟩ :=
      resolveIdentity_eq_ok_iff.mp (both strategy)
    obtain ⟨rfl, tails⟩ :=
      List.append_inj (otherWhole.symm.trans whole) (otherDepth.trans depth.symm)
    obtain ⟨_, rfl⟩ := List.cons.inj tails
    exact otherIsEndUser
  · rintro ⟨front, back, whole, isEndUser, depth⟩ strategy
    exact resolveIdentity_eq_ok_iff.mpr ⟨front, back, whole, isEndUser strategy, depth⟩

theorem isEndUser_both_iff {front back : List Certificate} {user : Certificate} :
    (∀ strategy, IsEndUser strategy front user back) ↔
      ((∀ proxy ∈ front, proxy.isProxy = true) ∧ user.isProxy = false) ∧
        ¬ PassesOver .basicConstraintsScan user ∧
        ∀ other ∈ back, PassesOver .basicConstraintsScan other := by
  simp only [← isEndEntity_eq_false_iff, Bool.not_eq_false]
  constructor
  · intro both
    exact ⟨both .proxyAware, both .basicConstraintsScan⟩
  · rintro ⟨behindProxies, beforeAuthorities⟩ strategy
    cases strategy with
    | proxyAware => exact behindProxies
    | basicConstraintsScan => exact beforeAuthorities

/-- The strategies find the same certificate at the same depth exactly if the first
certificate that is no proxy belongs neither to an authority nor to a trust anchor, and all
of those behind it do. -/
theorem strategies_agree_iff (chain : List Certificate) :
    (∃ identity, ∀ strategy, resolveIdentity strategy chain = .ok identity) ↔
      ∃ front user back, chain = front ++ user :: back ∧
        ((∀ proxy ∈ front, proxy.isProxy = true) ∧ user.isProxy = false) ∧
        ¬ (user.isAuthority = true ∨ user.isSelfIssued = true) ∧
        ∀ other ∈ back, other.isAuthority = true ∨ other.isSelfIssued = true := by
  constructor
  · rintro ⟨identity, both⟩
    obtain ⟨front, back, whole, isEndUser, _⟩ := resolveIdentity_eq_ok_iff_of_both.mp both
    exact ⟨front, identity.certificate, back, whole, isEndUser_both_iff.mp isEndUser⟩
  · rintro ⟨front, user, back, whole, stands⟩
    refine ⟨⟨user, front.length⟩, ?_⟩
    apply resolveIdentity_eq_ok_iff_of_both.mpr
    exact ⟨front, back, whole, isEndUser_both_iff.mpr stands, rfl⟩

/-! ## What the depth counts -/

/-- The depth of an identity is the number of the proxies in front of its certificate,
nothing else stands there, and others act for the identity only if the leaf is a proxy. -/
structure CountsProxies (chain front : List Certificate) (identity : Identity) : Prop where
  onlyProxies : ∀ certificate ∈ front, certificate.isProxy = true
  depth : identity.depth = front.countP (·.isProxy)
  leaf : identity.isDelegated = true → ∃ leaf, chain.head? = some leaf ∧ leaf.isProxy = true

private theorem countsProxies_of_forall {front back : List Certificate}
    (whole : chain = front ++ identity.certificate :: back)
    (depth : front.length = identity.depth)
    (onlyProxies : ∀ certificate ∈ front, certificate.isProxy = true) :
    CountsProxies chain front identity := by
  refine ⟨onlyProxies, ?_, ?_⟩
  · rw [List.countP_eq_length.mpr onlyProxies, depth]
  · intro delegated
    have positive : 0 < front.length := by
      rw [depth]
      exact of_decide_eq_true delegated
    obtain ⟨leaf, rest, rfl⟩ := List.exists_cons_of_length_pos positive
    exact ⟨leaf, by simp [whole], onlyProxies leaf List.mem_cons_self⟩

/-- As many certificates as the proxies in front of a chain, or fewer, are proxies all of
them. -/
private theorem length_le_delegationDepth_iff {front back : List Certificate} :
    front.length ≤ delegationDepth (front ++ back) ↔
      ∀ certificate ∈ front, certificate.isProxy = true := by
  constructor
  · intro notDeeper certificate member
    have begins : front <+: (front ++ back).takeWhile (·.isProxy) :=
      List.prefix_of_prefix_length_le (List.prefix_append front back)
        (List.takeWhile_prefix _) notDeeper
    exact List.all_eq_true.mp List.all_takeWhile certificate (begins.subset member)
  · intro onlyProxies
    rw [delegationDepth, List.takeWhile_append_of_pos onlyProxies, List.length_append]
    exact Nat.le_add_right _ _

private theorem depth_eq_delegationDepth
    (resolved : resolveIdentity .proxyAware chain = .ok identity) :
    identity.depth = delegationDepth chain := by
  obtain ⟨front, back, rfl, proxies, notProxy, depth⟩ :=
    resolveIdentity_proxyAware_eq_ok_iff.mp resolved
  rw [delegationDepth_append proxies notProxy, depth]

/-- The depth of an identity counts the proxies in front of its certificate exactly if it is
no greater than the number of the proxies in front of the chain, and if the number alone is
right, so is everything else.  The strategy that looks for proxies gives that number. -/
theorem depth_counts_proxies_iff {strategy : ResolutionStrategy}
    (resolved : resolveIdentity strategy chain = .ok identity) :
    ∃ front back, chain = front ++ identity.certificate :: back ∧
      IsEndUser strategy front identity.certificate back ∧ front.length = identity.depth ∧
      (CountsProxies chain front identity ↔ identity.depth ≤ delegationDepth chain) ∧
      (identity.depth = front.countP (·.isProxy) ↔ identity.depth ≤ delegationDepth chain) ∧
      (strategy = .proxyAware → identity.depth = delegationDepth chain) := by
  obtain ⟨front, back, whole, isEndUser, depth⟩ := resolveIdentity_eq_ok_iff.mp resolved
  have notDeeper_iff : identity.depth ≤ delegationDepth chain ↔
      ∀ certificate ∈ front, certificate.isProxy = true := by
    rw [whole, ← depth]
    exact length_le_delegationDepth_iff
  refine ⟨front, back, whole, isEndUser, depth, ?_, ?_, ?_⟩
  · rw [notDeeper_iff]
    exact ⟨CountsProxies.onlyProxies, countsProxies_of_forall whole depth⟩
  · rw [notDeeper_iff, ← depth, eq_comm]
    exact List.countP_eq_length
  · rintro rfl
    exact depth_eq_delegationDepth resolved

/-- A proxy acts for the end user behind it, and counts. -/
theorem depth_counts_proxies_of_delegate :
    ∃ delegate user identity front back,
      Certificate.parse (Sample.proxy 7 'c' 'p') = .ok delegate ∧
      Certificate.parse (Sample.endEntity 5 'a' 'c') = .ok user ∧
      Linked [delegate, user] ∧
      resolveIdentity .basicConstraintsScan [delegate, user] = .ok identity ∧
      [delegate, user] = front ++ identity.certificate :: back ∧
      identity.depth ≤ delegationDepth [delegate, user] ∧
      CountsProxies [delegate, user] front identity ∧ identity.isDelegated = true := by
  have computed : (Sample.reading (Sample.proxy 7 'c' 'p') fun delegate =>
      Sample.reading (Sample.endEntity 5 'a' 'c') fun user =>
      (resolveIdentity .basicConstraintsScan [delegate, user]).toOption.map fun identity =>
        (decide (delegate.IssuedBy user),
          decide (identity.depth ≤ delegationDepth [delegate, user]), identity.isDelegated)) =
      some (true, true, true) := by
    decide +kernel
  obtain ⟨delegate, delegateParsed, rest⟩ := Sample.exists_of_reading computed
  obtain ⟨user, userParsed, rest⟩ := Sample.exists_of_reading rest
  obtain ⟨identity, found, rest⟩ := Option.map_eq_some_iff.mp rest
  simp only [Prod.mk.injEq, decide_eq_true_eq] at rest
  obtain ⟨issued, notDeeper, delegated⟩ := rest
  have resolved := toOption_eq_some_iff.mp found
  obtain ⟨front, back, whole, _, _, counts_iff, _⟩ := depth_counts_proxies_iff resolved
  exact ⟨delegate, user, identity, front, back, delegateParsed, userParsed, ⟨issued, trivial⟩,
    resolved, whole, notDeeper, counts_iff.mpr notDeeper, delegated⟩

/-- An end user whose authority is not marked as one is counted as if it were a proxy. -/
theorem depth_counts_endEntity :
    ∃ user authority identity,
      Certificate.parse (Sample.endEntity 5 'a' 'c') = .ok user ∧
      Certificate.parse (Sample.endEntity 6 'z' 'a') = .ok authority ∧
      Linked [user, authority] ∧
      resolveIdentity .basicConstraintsScan [user, authority] = .ok identity ∧
      identity.certificate = authority ∧ user.isProxy = false ∧
      identity.depth = 1 ∧ [user].countP (·.isProxy) = 0 ∧ identity.isDelegated = true ∧
      ¬ CountsProxies [user, authority] [user] identity := by
  have computed : (Sample.reading (Sample.endEntity 5 'a' 'c') fun user =>
      Sample.reading (Sample.endEntity 6 'z' 'a') fun authority =>
      (resolveIdentity .basicConstraintsScan [user, authority]).toOption.map fun identity =>
        (decide (user.IssuedBy authority), decide (identity.certificate = authority),
          user.isProxy, identity.depth)) =
      some (true, true, false, 1) := by
    decide +kernel
  obtain ⟨user, userParsed, rest⟩ := Sample.exists_of_reading computed
  obtain ⟨authority, authorityParsed, rest⟩ := Sample.exists_of_reading rest
  obtain ⟨identity, found, rest⟩ := Option.map_eq_some_iff.mp rest
  simp only [Prod.mk.injEq, decide_eq_true_eq] at rest
  obtain ⟨issued, isAuthority, notProxy, depth⟩ := rest
  refine ⟨user, authority, identity, userParsed, authorityParsed, ⟨issued, trivial⟩,
    toOption_eq_some_iff.mp found, isAuthority, notProxy, depth, ?_, ?_, ?_⟩
  · simp [notProxy]
  · simp [Identity.isDelegated, depth]
  · intro counts
    have isProxy := counts.onlyProxies user List.mem_cons_self
    rw [notProxy] at isProxy
    cases isProxy

end Chain

end GridSecurity
