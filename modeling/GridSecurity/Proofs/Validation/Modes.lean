import GridSecurity.Proofs.Success
import GridSecurity.Validation.Adapter
import Mathlib.Data.List.Basic

/-!
# The two modes

The memberships that are read without any check are those that the results show,
valid or not.  So the modes differ only in which of them they hand out.
-/

namespace GridSecurity

/-- Valid results are some of all results. -/
theorem validMemberships_sublist (results : List ValidationResult) :
    (validMemberships results).Sublist (results.filterMap (·.membership)) :=
  List.filter_sublist.filterMap _

namespace LocalValidator

variable {validator : LocalValidator} {now : Int}

/-- Whatever is found against an attribute certificate, its result shows the
membership that can be read from it. -/
theorem membership_check (holder : Option Certificate) (certificate : AttributeCertificate) :
    (validator.check holder now certificate).membership =
      (VoMembership.ofInfo certificate.info).toOption := by
  unfold check
  split
  · next fault unreadable =>
      rw [unreadable]
      rfl
  · next membership read =>
      rw [read]
      rfl

private theorem filterMap_membership_resultsAt (chain : List Certificate) :
    (validator.resultsAt now chain).filterMap (·.membership) = parse chain := by
  unfold resultsAt parse
  rw [List.filterMap_map]
  apply List.filterMap_congr
  intro certificate? _
  cases certificate? with
  | none => rfl
  | some certificate => exact membership_check _ certificate

/-- The lenient mode hands out the memberships of all results and the strict mode
those of the valid ones, and both report the same results.  Neither the
authorities nor the time nor the strategy matter for what the lenient mode hands
out. -/
theorem modes_agree (validator : LocalValidator) (now : Int) (chain : List Certificate) :
    parse chain = (validator.resultsAt now chain).filterMap (·.membership) ∧
    (Adapter.resolve ⟨validator.validatorAt now, .strict⟩ chain).memberships =
      (validator.validatorAt now).accepted chain ∧
    (Adapter.resolve ⟨validator.validatorAt now, .strict⟩ chain).memberships.Sublist
      (Adapter.resolve ⟨validator.validatorAt now, .lenient⟩ chain).memberships ∧
    (Adapter.resolve ⟨validator.validatorAt now, .strict⟩ chain).results =
      (Adapter.resolve ⟨validator.validatorAt now, .lenient⟩ chain).results ∧
    ∀ (other : LocalValidator) (later : Int),
      (Adapter.resolve ⟨other.validatorAt later, .lenient⟩ chain).memberships =
        (Adapter.resolve ⟨validator.validatorAt now, .lenient⟩ chain).memberships := by
  refine ⟨(filterMap_membership_resultsAt chain).symm, rfl, ?_, rfl, ?_⟩
  · show (validMemberships (validator.resultsAt now chain)).Sublist (parse chain)
    rw [← filterMap_membership_resultsAt chain]
    exact validMemberships_sublist _
  · intro other later
    rfl

end LocalValidator

end GridSecurity
