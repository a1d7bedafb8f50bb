import GridSecurity.Identity
import GridSecurity.Proofs.Chain.Order

/-!
# An identity was presented

The certificates of an ordered chain, and the one of the identity among them,
are certificates that the peer presented.
-/

namespace GridSecurity

/-- A certificate is one of those that were presented. -/
def Presented (encodings : List Octets) (certificate : Certificate) : Prop :=
  ∃ encoding ∈ encodings, Certificate.parse encoding = .ok certificate

namespace Chain

variable {chain : List Certificate}

theorem parse_eq_ok_iff {encodings : List Octets} :
    parse encodings = .ok chain ↔
      encodings ≠ [] ∧ encodings.mapM Certificate.parse = .ok chain := by
  unfold parse
  cases encodings with
  | nil =>
      constructor
      · intro parsed
        cases parsed
      · rintro ⟨isEmpty, _⟩
        exact absurd rfl isEmpty
  | cons encoding encodings =>
      rw [List.isEmpty_cons, if_neg Bool.false_ne_true, mapError_eq_ok_iff]
      simp

theorem presented_of_mem_parse {encodings : List Octets}
    (parsed : parse encodings = .ok chain) {certificate : Certificate}
    (member : certificate ∈ chain) : Presented encodings certificate := by
  obtain ⟨_, everyParsed⟩ := parse_eq_ok_iff.mp parsed
  exact exists_of_mem_mapM everyParsed member

/-- The certificates that were read are those that were presented. -/
theorem presented_iff_of_mapM {encodings : List Octets}
    (parsed : encodings.mapM Certificate.parse = .ok chain) {certificate : Certificate} :
    Presented encodings certificate ↔ certificate ∈ chain := by
  constructor
  · rintro ⟨encoding, member, read⟩
    exact mem_of_mapM parsed member read
  · intro member
    exact exists_of_mem_mapM parsed member

/-- More certificates are read one list after the other. -/
theorem parse_append_eq_ok {encodings further : List Octets} {longer : List Certificate}
    (parsed : parse encodings = .ok chain)
    (longerParsed : parse (encodings ++ further) = .ok longer) :
    ∃ others, further.mapM Certificate.parse = .ok others ∧ longer = chain ++ others := by
  obtain ⟨_, everyParsed⟩ := parse_eq_ok_iff.mp parsed
  obtain ⟨_, longerEveryParsed⟩ := parse_eq_ok_iff.mp longerParsed
  obtain ⟨first, others, firstParsed, othersParsed, whole⟩ :=
    mapM_append_eq_ok_iff.mp longerEveryParsed
  obtain rfl := Except.ok.inj (everyParsed.symm.trans firstParsed)
  exact ⟨others, othersParsed, whole.symm⟩

private theorem mem_of_lastEndEntity? {certificate : Certificate} {position : Nat}
    (found : lastEndEntity? chain = some (certificate, position)) : certificate ∈ chain := by
  have member := List.mem_of_find?_eq_some found
  rw [List.mem_reverse] at member
  exact List.fst_mem_of_mem_zipIdx member

theorem mem_of_resolveIdentity {strategy : ResolutionStrategy} {identity : Identity}
    (resolved : resolveIdentity strategy chain = .ok identity) :
    identity.certificate ∈ chain := by
  unfold resolveIdentity at resolved
  split at resolved
  · cases resolved
  · next leaf rest =>
      split at resolved
      · split at resolved
        · split at resolved
          · next found =>
              obtain rfl := Except.ok.inj resolved
              exact List.mem_of_find?_eq_some found
          · cases resolved
        · obtain rfl := Except.ok.inj resolved
          exact List.mem_cons_self
      · split at resolved
        · next found =>
            obtain rfl := Except.ok.inj resolved
            exact mem_of_lastEndEntity? found
        · cases resolved

/-! ## Proxies in front -/

theorem endUser?_eq_some_iff {certificate : Certificate} :
    endUser? chain = some certificate ↔
      ∃ front back, chain = front ++ certificate :: back ∧
        (∀ proxy ∈ front, proxy.isProxy = true) ∧ certificate.isProxy = false := by
  unfold endUser?
  rw [List.find?_eq_some_iff_append]
  constructor
  · rintro ⟨notProxy, front, back, whole, proxies⟩
    exact ⟨front, back, whole, by simpa using proxies, by simpa using notProxy⟩
  · rintro ⟨front, back, whole, proxies, notProxy⟩
    exact ⟨by simpa using notProxy, front, back, whole, by simpa using proxies⟩

theorem delegationDepth_append {front : List Certificate} {certificate : Certificate}
    (proxies : ∀ proxy ∈ front, proxy.isProxy = true)
    (notProxy : certificate.isProxy = false) (back : List Certificate) :
    delegationDepth (front ++ certificate :: back) = front.length := by
  unfold delegationDepth
  rw [List.takeWhile_append_of_pos proxies, List.takeWhile_cons_of_neg (by simp [notProxy]),
    List.append_nil]

/-- A leaf that is no proxy is no special case: it is the first certificate that
is none, with no proxy in front of it. -/
theorem resolveIdentity_proxyAware_cons (leaf : Certificate) (rest : List Certificate) :
    resolveIdentity .proxyAware (leaf :: rest) =
      match endUser? (leaf :: rest) with
      | some certificate => .ok ⟨certificate, delegationDepth (leaf :: rest)⟩
      | none => .error .onlyProxies := by
  unfold resolveIdentity
  dsimp only
  split
  · rfl
  · next notDelegated =>
      have notProxy : leaf.isProxy = false := Bool.eq_false_iff.mpr notDelegated
      have found : endUser? (leaf :: rest) = some leaf :=
        endUser?_eq_some_iff.mpr ⟨[], rest, rfl, by simp, notProxy⟩
      have depth : delegationDepth ([] ++ leaf :: rest) = 0 :=
        delegationDepth_append (by simp) notProxy rest
      rw [List.nil_append] at depth
      rw [found, depth]

/-- The identity is the first certificate that is no proxy. -/
theorem resolveIdentity_proxyAware_eq_ok_iff {identity : Identity} :
    resolveIdentity .proxyAware chain = .ok identity ↔
      ∃ front back, chain = front ++ identity.certificate :: back ∧
        (∀ proxy ∈ front, proxy.isProxy = true) ∧ identity.certificate.isProxy = false ∧
        front.length = identity.depth := by
  constructor
  · intro resolved
    cases chain with
    | nil => cases resolved
    | cons leaf rest =>
        rw [resolveIdentity_proxyAware_cons] at resolved
        split at resolved
        · next certificate found =>
            obtain rfl := Except.ok.inj resolved
            obtain ⟨front, back, whole, proxies, notProxy⟩ := endUser?_eq_some_iff.mp found
            refine ⟨front, back, whole, proxies, notProxy, ?_⟩
            rw [whole, delegationDepth_append proxies notProxy back]
        · cases resolved
  · rintro ⟨front, back, rfl, proxies, notProxy, depth⟩
    have found := endUser?_eq_some_iff.mpr ⟨front, back, rfl, proxies, notProxy⟩
    have counted := delegationDepth_append proxies notProxy back
    rw [depth] at counted
    cases whole : front ++ identity.certificate :: back with
    | nil => simp at whole
    | cons leaf rest =>
        rw [whole] at found counted
        rw [resolveIdentity_proxyAware_cons, found, counted]

end Chain

namespace IdentityResolver

variable {resolver : IdentityResolver}

private theorem mem_of_mem_order {presented chain : List Certificate}
    (ordered : resolver.order presented = .ok chain) {certificate : Certificate}
    (member : certificate ∈ chain) : certificate ∈ presented := by
  unfold order at ordered
  split at ordered
  · exact Chain.mem_of_mem_sort ordered member
  · obtain ⟨_, _, rfl⟩ := map_eq_ok_iff.mp ordered
    exact member

/-- A successful resolution reads the certificates, orders them and finds the
identity among them. -/
theorem resolve_eq_ok_iff {encodings : List Octets} {resolved : ResolvedChain} :
    resolver.resolve encodings = .ok resolved ↔
      ∃ presented, Chain.parse encodings = .ok presented ∧
        resolver.order presented = .ok resolved.chain ∧
        Chain.resolveIdentity resolver.strategy resolved.chain = .ok resolved.identity := by
  simp only [resolve, bind_eq_ok_iff, mapError_eq_ok_iff, resolveParsed]
  constructor
  · rintro ⟨presented, parsed, chain, ordered, identity, found, whole⟩
    obtain rfl := Except.ok.inj whole
    exact ⟨presented, parsed, ordered, found⟩
  · rintro ⟨presented, parsed, ordered, found⟩
    exact ⟨presented, parsed, resolved.chain, ordered, resolved.identity, found, rfl⟩

/-- Every certificate of the ordered chain was presented. -/
theorem presented_of_mem_resolve {encodings : List Octets} {resolved : ResolvedChain}
    (found : resolver.resolve encodings = .ok resolved) {certificate : Certificate}
    (member : certificate ∈ resolved.chain) : Presented encodings certificate := by
  obtain ⟨presented, parsed, ordered, _⟩ := resolve_eq_ok_iff.mp found
  exact Chain.presented_of_mem_parse parsed (mem_of_mem_order ordered member)

end IdentityResolver

end GridSecurity
