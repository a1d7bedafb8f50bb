import GridSecurity.Certificate
import GridSecurity.Fault

/-!
# Ordering a chain

A peer presents its certificates in any order.  The leaf is the only one whose
subject issues no other certificate.  From it a walk follows issuers until a
self-issued certificate or an issuer that is not among the certificates left.
The walk has to use all of them.

The certificates left are kept in places of which those already used are
empty, so that the first match is always the one that was presented first.
-/

namespace GridSecurity.Chain

/-- The certificates without those whose fingerprint is one of the given ones
or that of an earlier certificate. -/
def dropSeen (seen : List String) : List Certificate → List Certificate
  | [] => []
  | certificate :: rest =>
      if certificate.fingerprint ∈ seen then dropSeen seen rest
      else certificate :: dropSeen (certificate.fingerprint :: seen) rest

def dropRepeated (presented : List Certificate) : List Certificate :=
  dropSeen [] presented

/-- The certificate at a position issues one at another position. -/
def issuesAnother (certificates : List Certificate) (position : Nat)
    (certificate : Certificate) : Bool :=
  certificates.zipIdx.any fun (other, otherPosition) =>
    otherPosition != position && decide (other.IssuedBy certificate)

/-- The positions of the certificates that issue no other one. -/
def leafPositions (certificates : List Certificate) : List Nat :=
  (certificates.zipIdx.filter fun (certificate, position) =>
    !issuesAnother certificates position certificate).map (·.2)

/-- The only position of a leaf. -/
def leafPosition (certificates : List Certificate) : Except ChainFault Nat :=
  match leafPositions certificates with
  | [position] => .ok position
  | [] => .error .noEndEntity
  | positions => .error (.manyEndEntities positions.length)

/-- Places of certificates, empty where the walk has been. -/
abbrev Places := List (Option Certificate)

def Places.occupied (places : Places) : Nat :=
  places.countP (·.isSome)

/-- Emptying an occupied place leaves one occupied place less. -/
theorem Places.occupied_set_none {places : Places} {position : Nat}
    {certificate : Certificate}
    (found : places[position]? = some (some certificate)) :
    occupied (places.set position none) < occupied places := by
  induction places generalizing position with
  | nil => simp at found
  | cons place places induction =>
      cases position with
      | zero =>
          have here : place = some certificate := by simpa using found
          simp [occupied, here]
      | succ position =>
          have smaller := induction (by simpa using found)
          simp only [occupied, List.set_cons_succ, List.countP_cons] at smaller ⊢
          omega

/-- The place of the first certificate left that issued the given one, unless
that one is self-issued. -/
def nextPosition? (places : Places) (certificate : Certificate) : Option Nat :=
  if certificate.isSelfIssued then none
  else places.findIdx? fun place =>
    place.any fun candidate => decide (certificate.IssuedBy candidate)

/-- The walk from a place along the issuers. -/
def walk (places : Places) (position : Nat) :
    Except ChainFault (List Certificate) :=
  match found : places[position]? with
  | some (some certificate) =>
      let left := places.set position none
      have : Places.occupied left < Places.occupied places :=
        Places.occupied_set_none found
      match nextPosition? left certificate with
      | none => .ok [certificate]
      | some next => (walk left next).map (certificate :: ·)
  | _ => .error .cycle
termination_by Places.occupied places

/-- Orders certificates from the leaf towards the trust anchor. -/
def sort (presented : List Certificate) : Except ChainFault (List Certificate) :=
  if presented.isEmpty then .error .emptyChain
  else
    let certificates := dropRepeated presented
    if certificates.length = 1 then .ok certificates
    else do
      let leaf ← leafPosition certificates
      let ordered ← walk (certificates.map some) leaf
      if ordered.length = certificates.length then .ok ordered
      else .error (.disconnected ordered.length certificates.length)

end GridSecurity.Chain
