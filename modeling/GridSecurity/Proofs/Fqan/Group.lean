import GridSecurity.Proofs.Fqan.Qualified

/-!
# Qualifiers that are left in a group

The group of a name ends where a qualifier begins.  The first role is looked for before the first
capability, so a group never holds a role, and it holds a capability exactly if one stands in
front of the first role.
-/

namespace GridSecurity

private theorem CutAtFirst.absent {pattern text before after : List Char} (visible : pattern ≠ [])
    (cut : CutAtFirst pattern text before after) : ¬ pattern <:+: before := by
  rintro ⟨front, back, rfl⟩
  have earlier : text = front ++ pattern ++ (back ++ pattern ++ after) := by
    simpa [List.append_assoc] using cut.whole
  have bound := cut.first _ _ earlier
  have positive : 0 < pattern.length := List.length_pos_iff.mpr visible
  simp only [List.length_append] at bound
  omega

namespace Fqan

/-- A text begins with a group, and behind the group there is nothing or a qualifier begins. -/
def EndsAtQualifier (group text : List Char) : Prop :=
  ∃ rest, text = group ++ rest ∧
    (rest = [] ∨ '/' :: roleKey <+: rest ∨ '/' :: capabilityKey <+: rest)

/-- A capability stands in front of the first role. -/
def CapabilityFirst (text : List Char) : Prop :=
  ∃ before after, text = before ++ '/' :: roleKey ++ after ∧
    ¬ '/' :: roleKey <:+: before ∧ '/' :: capabilityKey <:+: before

/-- Where a group ends: at the first role, at the first capability of a text without a role, or
with the text. -/
inductive GroupEnd (text group : List Char) : Prop
  | role {after : List Char} (cut : CutAtFirst ('/' :: roleKey) text group after)
  | capability {after : List Char} (roleless : ¬ '/' :: roleKey <:+: text)
      (cut : CutAtFirst ('/' :: capabilityKey) text group after)
  | text (roleless : ¬ '/' :: roleKey <:+: text)
      (incapable : ¬ '/' :: capabilityKey <:+: text) (whole : group = text)

variable {text group : List Char}

private theorem groupEnd (text : List Char) : GroupEnd text (groupChars text) := by
  rw [groupChars]
  cases role : beforeFirst? ('/' :: roleKey) text with
  | some before =>
      obtain ⟨after, cut⟩ := beforeFirst?_eq_some_iff.mp role
      exact .role cut
  | none =>
      have roleless := beforeFirst?_eq_none_iff.mp role
      rw [Option.orElse_none]
      cases capability : beforeFirst? ('/' :: capabilityKey) text with
      | some before =>
          obtain ⟨after, cut⟩ := beforeFirst?_eq_some_iff.mp capability
          exact .capability roleless cut
      | none => exact .text roleless (beforeFirst?_eq_none_iff.mp capability) rfl

private theorem GroupEnd.endsAtQualifier (ending : GroupEnd text group) :
    EndsAtQualifier group text := by
  cases ending with
  | @role after cut =>
      refine ⟨'/' :: roleKey ++ after, ?_, .inr (.inl (List.prefix_append _ _))⟩
      rw [cut.whole, List.append_assoc]
  | @capability after roleless cut =>
      refine ⟨'/' :: capabilityKey ++ after, ?_, .inr (.inr (List.prefix_append _ _))⟩
      rw [cut.whole, List.append_assoc]
  | text _ _ whole => exact ⟨[], by rw [whole, List.append_nil], .inl rfl⟩

private theorem GroupEnd.roleless (ending : GroupEnd text group) : ¬ '/' :: roleKey <:+: group := by
  cases ending with
  | role cut => exact cut.absent (List.cons_ne_nil _ _)
  | @capability after roleless cut =>
      intro inGroup
      have before : group <:+: text := ⟨[], '/' :: capabilityKey ++ after, by simp [cut.whole]⟩
      exact roleless (inGroup.trans before)
  | text roleless _ whole => rwa [whole]

private theorem not_capabilityFirst (roleless : ¬ '/' :: roleKey <:+: text) :
    ¬ CapabilityFirst text := by
  rintro ⟨before, after, rfl, -, -⟩
  exact roleless ⟨before, after, rfl⟩

theorem GroupEnd.capable_iff (ending : GroupEnd text group) :
    '/' :: capabilityKey <:+: group ↔ CapabilityFirst text := by
  cases ending with
  | @role after cut =>
      constructor
      · intro inGroup
        exact ⟨group, after, cut.whole, cut.absent (List.cons_ne_nil _ _), inGroup⟩
      · rintro ⟨before, rest, rfl, notBefore, inBefore⟩
        have first : CutAtFirst ('/' :: roleKey) (before ++ '/' :: roleKey ++ rest) before rest :=
          cutAtFirst_of_absent (by decide) notBefore
        rwa [(cut.unique first).1]
  | capability roleless cut =>
      exact iff_of_false (cut.absent (List.cons_ne_nil _ _)) (not_capabilityFirst roleless)
  | text roleless incapable whole =>
      rw [whole]
      exact iff_of_false incapable (not_capabilityFirst roleless)

/-- A group is what a name begins with, up to a qualifier.  It is free of qualifiers exactly if
no capability stands in front of the first role. -/
theorem group_unqualified_iff (fqan : Fqan) :
    EndsAtQualifier fqan.group.toList fqan.value.toList ∧
      ¬ '/' :: roleKey <:+: fqan.group.toList ∧
      (¬ '/' :: capabilityKey <:+: fqan.group.toList ↔ ¬ CapabilityFirst fqan.value.toList) := by
  have ending : GroupEnd fqan.value.toList fqan.group.toList := by
    rw [group, String.toList_ofList]
    exact groupEnd _
  exact ⟨ending.endsAtQualifier, ending.roleless, not_congr ending.capable_iff⟩

/-- The qualifiers of this name stand in the other order, and the capability is left in its
group. -/
theorem group_qualified_of_capability_first :
    (⟨"/atlas/Capability=x/Role=y"⟩ : Fqan).group = "/atlas/Capability=x" ∧
      ¬ ∀ fqan : Fqan, ¬ '/' :: roleKey <:+: fqan.group.toList ∧
        ¬ '/' :: capabilityKey <:+: fqan.group.toList := by
  have computed : (⟨"/atlas/Capability=x/Role=y"⟩ : Fqan).group = "/atlas/Capability=x" := by
    decide
  refine ⟨computed, fun unqualified => ?_⟩
  have free := (unqualified ⟨"/atlas/Capability=x/Role=y"⟩).2
  rw [computed] at free
  exact free ⟨"/atlas".toList, ['x'], by decide⟩

end Fqan

end GridSecurity
