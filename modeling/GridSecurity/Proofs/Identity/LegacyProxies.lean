import GridSecurity.Proofs.Identity.Choice
import Mathlib.Data.List.Forall2

/-!
# The names of legacy proxies

No extension marks a legacy proxy.  It is told by its subject, which is the name of its
issuer followed by one of two common names.  In a linked chain that issuer is the next
certificate, so the subject of the leaf begins with the name of the owner and goes on with
one common name for each proxy on the way.
-/

namespace GridSecurity

theorem DistinguishedName.extends_iff {name parent : DistinguishedName} :
    name.Extends parent ↔
      ∃ last, name.relativeNames = parent.relativeNames ++ [last] := by
  constructor
  · rintro ⟨length, front⟩
    have rest : (name.relativeNames.drop parent.relativeNames.length).length = 1 := by
      rw [List.length_drop, length]
      omega
    obtain ⟨last, single⟩ := List.length_eq_one_iff.mp rest
    refine ⟨last, ?_⟩
    rw [← List.take_append_drop parent.relativeNames.length name.relativeNames, front, single]
  · rintro ⟨last, whole⟩
    simp [Extends, whole]

namespace Certificate

/-! ## One proxy -/

def IsLegacyProxy (certificate : Certificate) : Prop :=
  ∃ limited, certificate.proxyKind = some (.legacy limited)

/-- The relative name by which legacy proxies are told. -/
def legacyName (limited : Bool) : RelativeName :=
  .single "CN" (if limited then "limited proxy" else "proxy")

private theorem relativeNames_of_legacyProxyKind? {subject issuer : DistinguishedName}
    {limited : Bool} (found : legacyProxyKind? subject issuer = some (.legacy limited)) :
    subject.relativeNames = issuer.relativeNames ++ [legacyName limited] := by
  unfold legacyProxyKind? at found
  split at found
  · next extended =>
      obtain ⟨last, whole⟩ := DistinguishedName.extends_iff.mp extended
      have isLast : subject.lastRelativeName? = some last := by
        simp [DistinguishedName.lastRelativeName?, whole]
      rw [isLast] at found
      split at found
      · next unlimited =>
          obtain rfl := Option.some.inj unlimited
          cases found
          exact whole
      · split at found
        · next isLimited =>
            obtain rfl := Option.some.inj isLimited
            cases found
            exact whole
        · cases found
  · cases found

private theorem legacyProxyKind?_of_proxyKindBy {extensions : List ExtensionField}
    {subject issuer : DistinguishedName} {limited : Bool}
    (found : proxyKindBy extensions subject issuer = some (.legacy limited)) :
    legacyProxyKind? subject issuer = some (.legacy limited) := by
  rw [proxyKindBy, Option.orElse_eq_or, Option.or_eq_some_iff] at found
  rcases found with marked | ⟨_, unmarked⟩
  · -- No extension makes a legacy proxy.
    obtain ⟨extension, _, kind⟩ := List.exists_of_findSome?_eq_some marked
    split at kind
    · cases kind
    · split at kind <;> cases kind
  · exact unmarked

/-- The relative name that a legacy proxy adds to the name of its issuer. -/
def addedName (certificate : Certificate) : RelativeName :=
  legacyName (decide (certificate.proxyKind = some (.legacy true)))

private theorem IsLegacyProxy.relativeNames_eq {encoding : Octets} {certificate : Certificate}
    (legacy : certificate.IsLegacyProxy) (parsed : parse encoding = .ok certificate) :
    certificate.subject.relativeNames =
      certificate.issuer.relativeNames ++ [certificate.addedName] := by
  obtain ⟨limited, kind⟩ := legacy
  have named : certificate.addedName = legacyName limited := by
    cases limited <;> simp [addedName, kind]
  obtain ⟨fields, _, rfl⟩ := parse_eq_ok_iff.mp parsed
  rw [named]
  exact relativeNames_of_legacyProxyKind? (legacyProxyKind?_of_proxyKindBy kind)

/-- A relative name tells a legacy proxy, and whether it is a limited one. -/
structure ToldBy (certificate : Certificate) (relativeName : RelativeName) : Prop where
  fixed : relativeName = .single "CN" "proxy" ∨ relativeName = .single "CN" "limited proxy"
  limited_iff : relativeName = .single "CN" "limited proxy" ↔
    certificate.proxyKind = some (.legacy true)

private theorem toldBy_addedName (certificate : Certificate) :
    certificate.ToldBy certificate.addedName := by
  by_cases limited : certificate.proxyKind = some (.legacy true)
  · have named : certificate.addedName = .single "CN" "limited proxy" := by
      simp [addedName, limited, legacyName]
    exact ⟨.inr named, iff_of_true named limited⟩
  · have named : certificate.addedName = .single "CN" "proxy" := by
      simp [addedName, limited, legacyName]
    refine ⟨.inl named, iff_of_false ?_ limited⟩
    rw [named]
    decide

end Certificate

namespace Chain

/-! ## A chain of them -/

/-- If each certificate in front of the owner adds one relative name to the name of its
issuer, the leaf has the owner's name with all of them behind it, the last one first. -/
theorem relativeNames_of_linked {front back : List Certificate} {owner leaf : Certificate}
    (linked : Linked (front ++ owner :: back))
    (extended : ∀ certificate ∈ front, certificate.subject.relativeNames =
      certificate.issuer.relativeNames ++ [certificate.addedName])
    (first : (front ++ owner :: back).head? = some leaf) :
    leaf.subject.relativeNames =
      owner.subject.relativeNames ++ (front.map (·.addedName)).reverse := by
  -- The certificate behind the leaf is the leaf of a shorter chain, and its subject is the
  -- name that the leaf extends.
  induction front generalizing leaf with
  | nil =>
      obtain rfl := Option.some.inj first
      simp
  | cons certificate front induction =>
      obtain rfl := Option.some.inj first
      obtain ⟨here, later⟩ := List.forall_mem_cons.mp extended
      obtain ⟨issued, restLinked⟩ := List.isChain_cons.mp (linked_iff_isChain.mp linked)
      obtain ⟨issuer, next⟩ : ∃ issuer, (front ++ owner :: back).head? = some issuer :=
        ⟨_, List.head?_eq_some_head (by simp)⟩
      have sameName : certificate.issuer.relativeNames = issuer.subject.relativeNames :=
        issued issuer next
      calc certificate.subject.relativeNames
        _ = issuer.subject.relativeNames ++ [certificate.addedName] := by rw [here, sameName]
        _ = owner.subject.relativeNames ++ (front.map (·.addedName)).reverse ++
              [certificate.addedName] := by
          rw [induction (linked_iff_isChain.mpr restLinked) later next]
        _ = owner.subject.relativeNames ++
              ((certificate :: front).map (·.addedName)).reverse := by
          rw [List.map_cons, List.reverse_cons, List.append_assoc]

end Chain

namespace Sample

open Der

/-- A name of common names. -/
def commonNames (texts : List String) : Element :=
  sequenceOf (texts.map fun text => .composite setTag isKnownTag_set
    [sequenceOf [⟨identifierTag, [0x55, 0x04, 0x03], Eq.refl true⟩,
      ⟨utf8StringTag, Utf8.ofText text, Eq.refl true⟩]])

/-- A certificate whose subject is the name of its issuer and one common name more. -/
def named (serial : UInt8) (issuer : List String) (last : String) : Octets :=
  (sequenceOf [
    sequenceOf [.composite (contextCompositeTag 0) isKnownTag_zero [smallNumber 2],
      smallNumber serial, algorithm 5, commonNames issuer,
      sequenceOf [⟨0x17, Utf8.ofText "240101000000Z", Eq.refl true⟩,
        ⟨0x17, Utf8.ofText "340101000000Z", Eq.refl true⟩],
      commonNames (issuer ++ [last]),
      sequenceOf [algorithm 1, ⟨bitStringTag, [0, 1], Eq.refl true⟩]],
    algorithm 5, ⟨bitStringTag, [0, 0], Eq.refl true⟩]).write

/-- A user with a proxy, and a limited proxy of that one, in no order. -/
def legacyChain : List Octets :=
  [named 6 ["c"] "proxy", endEntity 5 'a' 'c', named 7 ["c", "proxy"] "limited proxy"]

end Sample

namespace IdentityResolver

/-- The subject of a leaf in front of legacy proxies is the name of the identity, followed by
one common name for each of them, which tells whether it is a limited one. -/
theorem leaf_named_for_owner {sorts : Bool} {encodings : List Octets}
    {resolved : ResolvedChain}
    (found : (⟨.proxyAware, sorts⟩ : IdentityResolver).resolve encodings = .ok resolved)
    (legacy : ∀ certificate ∈ resolved.chain.take resolved.identity.depth,
      certificate.IsLegacyProxy) :
    ∃ leaf added, resolved.chain.head? = some leaf ∧
      leaf.subject.relativeNames = resolved.identity.subject.relativeNames ++ added ∧
      added.length = resolved.identity.depth ∧
      List.Forall₂ Certificate.ToldBy (resolved.chain.take resolved.identity.depth)
        added.reverse := by
  obtain ⟨_, _, ordered, identified⟩ := resolve_eq_ok_iff.mp found
  have linked := linked_of_order ordered
  obtain ⟨front, back, whole, _, depth⟩ := Chain.resolveIdentity_eq_ok_iff.mp identified
  have inFront : resolved.chain.take resolved.identity.depth = front := by
    rw [whole, ← depth, List.take_left]
  obtain ⟨leaf, rest, chain⟩ := List.exists_cons_of_ne_nil
    (show resolved.chain ≠ [] by simp [whole])
  have first : resolved.chain.head? = some leaf := by
    rw [chain]
    rfl
  have extended : ∀ certificate ∈ front, certificate.subject.relativeNames =
      certificate.issuer.relativeNames ++ [certificate.addedName] := by
    intro certificate member
    have isLegacy := legacy certificate (inFront ▸ member)
    obtain ⟨_, _, parsed⟩ :=
      presented_of_mem_resolve found (whole ▸ List.mem_append_left _ member)
    exact isLegacy.relativeNames_eq parsed
  refine ⟨leaf, (front.map (·.addedName)).reverse, first, ?_, ?_, ?_⟩
  · rw [whole] at linked first
    exact Chain.relativeNames_of_linked linked extended first
  · simpa using depth
  · rw [inFront, List.reverse_reverse, List.forall₂_map_right_iff, List.forall₂_same]
    exact fun certificate _ => certificate.toldBy_addedName

theorem leaf_named_for_owner_of_limited :
    ∃ resolved leaf added,
      (⟨.proxyAware, true⟩ : IdentityResolver).resolve Sample.legacyChain = .ok resolved ∧
      (∀ certificate ∈ resolved.chain.take resolved.identity.depth,
        certificate.IsLegacyProxy) ∧
      resolved.chain.head? = some leaf ∧
      leaf.subject.readable = "CN=limited proxy,CN=proxy,CN=c" ∧
      leaf.subject.relativeNames = resolved.identity.subject.relativeNames ++ added ∧
      added.length = 2 ∧
      List.Forall₂ Certificate.ToldBy (resolved.chain.take 2) added.reverse := by
  have computed : (Sample.resolving Sample.legacyChain fun resolved =>
      resolved.chain.head?.map fun leaf =>
        (resolved.identity.depth, resolved.chain.map (·.proxyKind), leaf.subject.readable)) =
      some (2, [some (.legacy true), some (.legacy false), none],
        "CN=limited proxy,CN=proxy,CN=c") := by
    decide +kernel
  obtain ⟨resolved, found, rest⟩ := Sample.exists_of_resolving computed
  obtain ⟨leaf, first, rest⟩ := Option.map_eq_some_iff.mp rest
  simp only [Prod.mk.injEq] at rest
  obtain ⟨depth, kinds, readable⟩ := rest
  have legacy : ∀ certificate ∈ resolved.chain.take resolved.identity.depth,
      certificate.IsLegacyProxy := by
    intro certificate member
    have kind : certificate.proxyKind ∈
        (resolved.chain.take resolved.identity.depth).map (·.proxyKind) :=
      List.mem_map_of_mem member
    rw [List.map_take, kinds, depth] at kind
    rcases List.mem_cons.mp kind with limited | others
    · exact ⟨true, limited⟩
    · exact ⟨false, List.mem_singleton.mp others⟩
  obtain ⟨alsoLeaf, added, alsoFirst, whole, length, told⟩ := leaf_named_for_owner found legacy
  obtain rfl := Option.some.inj (first.symm.trans alsoFirst)
  rw [depth] at length told
  exact ⟨resolved, leaf, added, found, legacy, first, readable, whole, length, told⟩

end IdentityResolver

end GridSecurity
