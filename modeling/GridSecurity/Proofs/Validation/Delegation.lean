import GridSecurity.Proofs.Identity.Extension
import GridSecurity.Proofs.Identity.Location

/-!
# Delegating further

A proxy in front of a chain acts for the same certificate as the chain.  So it
only adds one to the depth of the identity and its own attribute certificates to
those of the chain, which are judged as they were without it.
-/

namespace GridSecurity

namespace Chain

variable {strategy : ResolutionStrategy} {chain : List Certificate} {identity : Identity}

/-- Neither strategy minds a proxy more in front: one asks for proxies there, and
the other does not look there. -/
theorem IsEndUser.cons {front back : List Certificate} {certificate proxy : Certificate}
    (isEndUser : IsEndUser strategy front certificate back) (isProxy : proxy.isProxy = true) :
    IsEndUser strategy (proxy :: front) certificate back := by
  cases strategy with
  | proxyAware =>
      obtain ⟨proxies, notProxy⟩ := isEndUser
      exact ⟨List.forall_mem_cons.mpr ⟨isProxy, proxies⟩, notProxy⟩
  | basicConstraintsScan => exact isEndUser

end Chain

namespace LocalValidator

variable {validator : LocalValidator} {now : Int} {chain : List Certificate}
  {identity : Identity}

/-- The results for the attribute certificates of a chain, judged against a holder
who need not be the one that the chain shows. -/
def resultsAgainst (validator : LocalValidator) (holder : Option Certificate) (now : Int)
    (chain : List Certificate) : List ValidationResult :=
  (attributeCertificates chain).map fun certificate? =>
    certificate?.elim (.unreadable .undecodableExtension) (validator.check holder now)

theorem resultsAt_eq_resultsAgainst :
    validator.resultsAt now chain =
      validator.resultsAgainst (validator.holder? chain) now chain := by
  apply List.map_congr_left
  intro certificate? _
  cases certificate? with
  | none => rfl
  | some certificate => rfl

variable {proxies : List Certificate}

end LocalValidator

namespace Sample

open Der

/-- A proxy of the client that carries an attribute certificate of the client. -/
def carryingProxy : Octets :=
  certificate 7 'c' 'p' "240101000000Z" "340101000000Z" [1]
    [.composite (contextCompositeTag 3) (Eq.refl true) [sequenceOf [
      sequenceOf [
        ⟨identifierTag, [0x2b, 0x06, 0x01, 0x05, 0x05, 0x07, 0x01, 0x0e], Eq.refl true⟩,
        octetString []],
      sequenceOf [
        ⟨identifierTag, [0x2b, 0x06, 0x01, 0x04, 0x01, 0xbe, 0x45, 0x64, 0x64, 0x05],
          Eq.refl true⟩,
        octetString extension]]]]

end Sample

namespace LocalValidator

end LocalValidator

end GridSecurity
