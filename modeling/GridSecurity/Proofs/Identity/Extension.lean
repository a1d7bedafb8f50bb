import GridSecurity.Proofs.Chain.Extension
import GridSecurity.Proofs.Identity
import GridSecurity.Proofs.Validation.Trust

/-!
# Further certificates and the identity

Nobody vouches for the certificates that a peer presents beyond its own chain,
and yet the leaf is told from the names of all of them.  The identity stays the
same as long as those that come to stand in front of the chain only delegate.
-/

namespace GridSecurity

namespace Chain

/-- The further certificates below a leaf do nothing but act for it: they are
proxies, and none of them issued another presented certificate. -/
structure OnlyDelegate (isFurther isPresented : Certificate → Prop) (leaf : Certificate) :
    Prop where
  proxies : ∀ certificate, Below isFurther leaf certificate → certificate.isProxy = true
  apart : ∀ authority, Below isFurther leaf authority →
    ∀ certificate, isPresented certificate → certificate ≠ leaf →
      ¬ certificate.IssuedBy authority

/-- A single proxy of the leaf that issued nothing only delegates. -/
theorem OnlyDelegate.of_single {isFurther isPresented : Certificate → Prop}
    {leaf delegate : Certificate} (isProxy : delegate.isProxy = true)
    (single : ∀ certificate, isFurther certificate → certificate.IssuedBy leaf →
      certificate = delegate)
    (issuesNoFurther : ∀ certificate, isFurther certificate → ¬ certificate.IssuedBy delegate)
    (issuesNoOther : ∀ certificate, isPresented certificate → certificate ≠ leaf →
      ¬ certificate.IssuedBy delegate) : OnlyDelegate isFurther isPresented leaf := by
  have isDelegate : ∀ certificate, Below isFurther leaf certificate →
      certificate = delegate := by
    intro certificate below
    induction below with
    | direct further issued => exact single _ further issued
    | through _ further issued induction =>
        rw [induction] at issued
        exact absurd issued (issuesNoFurther _ further)
  constructor
  · intro certificate below
    rw [isDelegate certificate below]
    exact isProxy
  · intro authority below certificate presented notLeaf
    rw [isDelegate authority below]
    exact issuesNoOther certificate presented notLeaf

/-- Proxies in front of a chain act for the same certificate as the chain, and
what stands behind it does not count. -/
theorem resolveIdentity_append {front chain back : List Certificate} {identity : Identity}
    (resolved : resolveIdentity .proxyAware chain = .ok identity)
    (proxies : ∀ certificate ∈ front, certificate.isProxy = true) :
    resolveIdentity .proxyAware (front ++ chain ++ back) =
      .ok ⟨identity.certificate, front.length + identity.depth⟩ := by
  obtain ⟨before, after, rfl, beforeProxies, notProxy, depth⟩ :=
    resolveIdentity_proxyAware_eq_ok_iff.mp resolved
  apply resolveIdentity_proxyAware_eq_ok_iff.mpr
  refine ⟨front ++ before, after ++ back, by simp, ?_, notProxy, ?_⟩
  · intro certificate member
    rcases List.mem_append.mp member with inFront | inChain
    · exact proxies certificate inFront
    · exact beforeProxies certificate inChain
  · rw [List.length_append, depth]

end Chain

def PresentedFurther (encodings further : List Octets) (certificate : Certificate) : Prop :=
  Presented further certificate ∧ ¬ Presented encodings certificate

/-! ## Small chains

End entities and proxies, which carry the standard extension, of names of one
letter; a user and its authority; and what continues that chain on both sides. -/

namespace Sample

open Der

def endEntity (serial : UInt8) (issuer subject : Char) : Octets :=
  certificate serial issuer subject "240101000000Z" "340101000000Z" [1] []

def proxy (serial : UInt8) (issuer subject : Char) : Octets :=
  certificate serial issuer subject "240101000000Z" "340101000000Z" [1]
    [.composite (contextCompositeTag 3) (Eq.refl true) [sequenceOf [sequenceOf [
      ⟨identifierTag, [0x2b, 0x06, 0x01, 0x05, 0x05, 0x07, 0x01, 0x0e], Eq.refl true⟩,
      octetString []]]]]

/-- The chain that is resolved from encodings, in front of what is made of it. -/
def resolving {α : Type} (encodings : List Octets) (continuation : ResolvedChain → Option α) :
    Option α :=
  ((⟨.proxyAware, true⟩ : IdentityResolver).resolve encodings).toOption.bind continuation

theorem exists_of_resolving {α : Type} {encodings : List Octets}
    {continuation : ResolvedChain → Option α} {value : α}
    (found : resolving encodings continuation = some value) :
    ∃ resolved, (⟨.proxyAware, true⟩ : IdentityResolver).resolve encodings = .ok resolved ∧
      continuation resolved = some value := by
  obtain ⟨resolved, succeeded, continued⟩ := Option.bind_eq_some_iff.mp found
  exact ⟨resolved, toOption_eq_some_iff.mp succeeded, continued⟩

/-- The subject of the identity is another one with further certificates. -/
private theorem exists_changed {encodings further : List Octets}
    (computed : (resolving encodings fun resolved =>
      resolving (encodings ++ further) fun changed =>
        some (decide (changed.identity.subject.Same resolved.identity.subject))) =
      some false) :
    ∃ resolved changed,
      (⟨.proxyAware, true⟩ : IdentityResolver).resolve encodings = .ok resolved ∧
      (⟨.proxyAware, true⟩ : IdentityResolver).resolve (encodings ++ further) = .ok changed ∧
      ¬ changed.identity.subject.Same resolved.identity.subject := by
  obtain ⟨resolved, found, rest⟩ := exists_of_resolving computed
  obtain ⟨changed, changedFound, different⟩ := exists_of_resolving rest
  exact ⟨resolved, changed, found, changedFound,
    of_decide_eq_false (Option.some.inj different)⟩

def chain : List Octets := [endEntity 5 'a' 'c', endEntity 6 'z' 'a']

def continuation : List Octets := [proxy 7 'c' 'p', endEntity 8 'y' 'z']

private theorem exists_continued :
    ∃ resolved longer leaf,
      (⟨.proxyAware, true⟩ : IdentityResolver).resolve chain = .ok resolved ∧
      (⟨.proxyAware, true⟩ : IdentityResolver).resolve (chain ++ continuation) = .ok longer ∧
      resolved.chain.head? = some leaf ∧
      Chain.OnlyDelegate (PresentedFurther chain continuation) (Presented chain) leaf ∧
      longer.identity.depth = 1 := by
  have computed : (reading (endEntity 5 'a' 'c') fun user =>
      reading (endEntity 6 'z' 'a') fun authority => reading (proxy 7 'c' 'p') fun delegate =>
      reading (endEntity 8 'y' 'z') fun root => resolving chain fun resolved =>
      resolving (chain ++ continuation) fun longer =>
        some (decide (resolved.chain.head? = some user), delegate.isProxy,
          decide (root.IssuedBy user),
          [delegate, root, authority].any fun other => decide (other.IssuedBy delegate),
          longer.identity.depth)) =
      some (true, true, false, false, 1) := by
    decide +kernel
  obtain ⟨user, userParsed, rest⟩ := exists_of_reading computed
  obtain ⟨authority, authorityParsed, rest⟩ := exists_of_reading rest
  obtain ⟨delegate, delegateParsed, rest⟩ := exists_of_reading rest
  obtain ⟨root, rootParsed, rest⟩ := exists_of_reading rest
  obtain ⟨resolved, found, rest⟩ := exists_of_resolving rest
  obtain ⟨longer, longerFound, rest⟩ := exists_of_resolving rest
  simp only [Option.some.injEq, Prod.mk.injEq, decide_eq_true_eq, decide_eq_false_iff_not,
    List.any_eq_false] at rest
  obtain ⟨first, isProxy, rootNotOfUser, issuesNone, depth⟩ := rest
  have chainParsed : chain.mapM Certificate.parse = .ok [user, authority] := by
    rw [chain, List.mapM_cons, userParsed, List.mapM_cons, authorityParsed]
    rfl
  have continuationParsed : continuation.mapM Certificate.parse = .ok [delegate, root] := by
    rw [continuation, List.mapM_cons, delegateParsed, List.mapM_cons, rootParsed]
    rfl
  have isFurther : ∀ certificate, PresentedFurther chain continuation certificate →
      certificate ∈ [delegate, root] := by
    rintro certificate ⟨presented, _⟩
    exact (Chain.presented_iff_of_mapM continuationParsed).mp presented
  refine ⟨resolved, longer, user, found, longerFound, first, ?_, depth⟩
  apply Chain.OnlyDelegate.of_single isProxy
  · intro certificate further issued
    rcases List.mem_cons.mp (isFurther certificate further) with same | inRest
    · exact same
    · rw [List.mem_singleton.mp inRest] at issued
      exact absurd issued rootNotOfUser
  · intro certificate further
    apply issuesNone certificate
    exact List.mem_append_left [authority] (isFurther certificate further)
  · intro certificate presented notUser
    rcases List.mem_cons.mp ((Chain.presented_iff_of_mapM chainParsed).mp presented) with
      same | inRest
    · exact absurd same notUser
    · apply issuesNone certificate
      exact List.mem_append_right [delegate, root] inRest

end Sample

namespace IdentityResolver

/-- Further certificates do not change who the client is, as long as those below
the leaf only delegate: the identity is the same certificate, with one proxy more
in front of it for each of those. -/
theorem identity_eq_of_resolve_append {encodings further : List Octets}
    {resolved longer : ResolvedChain}
    (found : (⟨.proxyAware, true⟩ : IdentityResolver).resolve encodings = .ok resolved)
    (longerFound :
      (⟨.proxyAware, true⟩ : IdentityResolver).resolve (encodings ++ further) = .ok longer)
    {leaf : Certificate} (first : resolved.chain.head? = some leaf)
    (delegate : Chain.OnlyDelegate (PresentedFurther encodings further) (Presented encodings)
      leaf) :
    longer.identity.subject = resolved.identity.subject ∧
    ∃ front back, longer.chain = front ++ resolved.chain ++ back ∧
      (∀ certificate ∈ front,
        Chain.Below (PresentedFurther encodings further) leaf certificate) ∧
      longer.identity =
        ⟨resolved.identity.certificate, front.length + resolved.identity.depth⟩ := by
  obtain ⟨presented, parsed, sorted, identified⟩ := resolve_eq_ok_iff.mp found
  obtain ⟨_, longerParsed, longerSorted, longerIdentified⟩ := resolve_eq_ok_iff.mp longerFound
  obtain ⟨others, othersParsed, rfl⟩ := Chain.parse_append_eq_ok parsed longerParsed
  have isPresented : Presented encodings = (· ∈ presented) := by
    funext certificate
    exact propext (Chain.presented_iff_of_mapM (Chain.parse_eq_ok_iff.mp parsed).2)
  have isFurther : PresentedFurther encodings further = Chain.IsFurther presented others := by
    funext certificate
    unfold PresentedFurther Chain.IsFurther
    rw [isPresented]
    exact propext (and_congr_left' (Chain.presented_iff_of_mapM othersParsed))
  rw [isFurther, isPresented] at delegate
  rw [isFurther]
  obtain ⟨front, back, whole, below⟩ :=
    Chain.exists_of_sort_append sorted longerSorted first delegate.apart
  rw [whole, Chain.resolveIdentity_append identified
    (fun certificate member => delegate.proxies certificate (below certificate member))]
    at longerIdentified
  have same := Except.ok.inj longerIdentified
  refine ⟨?_, front, back, whole, below, same.symm⟩
  rw [← same]
  rfl

theorem identity_eq_of_continued_chain :
    ∃ resolved longer leaf,
      (⟨.proxyAware, true⟩ : IdentityResolver).resolve Sample.chain = .ok resolved ∧
      (⟨.proxyAware, true⟩ : IdentityResolver).resolve
        (Sample.chain ++ Sample.continuation) = .ok longer ∧
      resolved.chain.head? = some leaf ∧
      Chain.OnlyDelegate (PresentedFurther Sample.chain Sample.continuation)
        (Presented Sample.chain) leaf ∧
      longer.identity.subject = resolved.identity.subject ∧ longer.identity.depth = 1 := by
  obtain ⟨resolved, longer, leaf, found, longerFound, first, delegate, depth⟩ :=
    Sample.exists_continued
  exact ⟨resolved, longer, leaf, found, longerFound, first, delegate,
    (identity_eq_of_resolve_append found longerFound first delegate).1, depth⟩

/-- A further certificate of an end entity takes the place of the client if it
gives the client's name as its issuer. -/
theorem subject_changed_by_further_endEntity :
    ∃ resolved changed,
      (⟨.proxyAware, true⟩ : IdentityResolver).resolve [Sample.endEntity 5 'i' 'c'] =
        .ok resolved ∧
      (⟨.proxyAware, true⟩ : IdentityResolver).resolve
        ([Sample.endEntity 5 'i' 'c'] ++ [Sample.endEntity 6 'c' 'e']) = .ok changed ∧
      ¬ changed.identity.subject.Same resolved.identity.subject :=
  Sample.exists_changed (by decide +kernel)

/-- It is not enough that the further certificates below the leaf are proxies.  One
of them that passes for the issuer of the client's authority closes a circle, and
another proxy opens the circle at that authority. -/
theorem subject_changed_by_circular_proxies :
    ∃ resolved changed,
      (⟨.proxyAware, true⟩ : IdentityResolver).resolve Sample.chain = .ok resolved ∧
      (⟨.proxyAware, true⟩ : IdentityResolver).resolve
        (Sample.chain ++ [Sample.proxy 7 'a' 'p', Sample.proxy 8 'c' 'z']) = .ok changed ∧
      ¬ changed.identity.subject.Same resolved.identity.subject :=
  Sample.exists_changed (by decide +kernel)

end IdentityResolver

end GridSecurity
