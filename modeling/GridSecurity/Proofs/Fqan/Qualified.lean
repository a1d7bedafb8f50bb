import GridSecurity.Proofs.Text.Segments

/-!
# Names put together and taken apart

The name of a group with a role and a capability behind it shows the same group, role and
capability again.  The group is found by an occurrence in the text and the qualifiers by
segments; both cut the name at the same places.
-/

namespace GridSecurity.Fqan

/-- The segment of a qualifier with the slash in front of it, if there is one. -/
def qualifier (key : List Char) : Option String → List Char
  | none => []
  | some value => '/' :: (key ++ value.toList)

def qualified (group : String) (role capability : Option String) : Fqan :=
  ⟨String.ofList (group.toList ++ qualifier roleKey role ++ qualifier capabilityKey capability)⟩

def segments (characters : List Char) : List (List Char) :=
  Text.splitAtEach (· == '/') characters

/-- No segment of the group begins with the key of a qualifier, and the qualifiers are of one
segment each. -/
structure Separable (group : String) (role capability : Option String) : Prop where
  roleless : ∀ segment ∈ segments group.toList, ¬ roleKey <+: segment
  incapable : ∀ segment ∈ segments group.toList, ¬ capabilityKey <+: segment
  role : ∀ text ∈ role, '/' ∉ text.toList
  capability : ∀ text ∈ capability, '/' ∉ text.toList

/-- A value that does not stand for the absence of a qualifier. -/
def isPresent (value : String) : Bool :=
  value != "" && value != "NULL"

variable {group : String} {role capability : Option String} {key : List Char}

/-! ## Segments -/

/-- A qualifier is one segment more. -/
theorem segments_append_qualifier {value : Option String} (keyWhole : '/' ∉ key)
    (whole : ∀ text ∈ value, '/' ∉ text.toList) (front : List Char) :
    segments (front ++ qualifier key value) =
      segments front ++ (value.map fun text => key ++ text.toList).toList := by
  cases value with
  | none => simp [qualifier]
  | some text =>
      have slashless : ∀ character ∈ key ++ text.toList, (character == '/') = false := by
        intro character member
        rw [beq_eq_false_iff_ne]
        rintro rfl
        rcases List.mem_append.mp member with inKey | inText
        · exact keyWhole inKey
        · exact whole text rfl inText
      rw [segments, qualifier, Text.splitAtEach_append_cons (· == '/') rfl,
        Text.splitAtEach_of_forall slashless]
      rfl

private theorem Separable.segments_eq (separable : Separable group role capability) :
    segments (qualified group role capability).value.toList =
      segments group.toList ++ (role.map fun text => roleKey ++ text.toList).toList ++
        (capability.map fun text => capabilityKey ++ text.toList).toList := by
  rw [qualified, String.toList_ofList,
    segments_append_qualifier (by decide) separable.capability,
    segments_append_qualifier (by decide) separable.role]

/-! ## Qualifiers -/

private theorem afterKey?_append (key value : List Char) :
    afterKey? key (key ++ value) = some value := by
  rw [afterKey?, if_pos (List.isPrefixOf_iff_prefix.mpr (List.prefix_append key value)),
    List.drop_left]

private theorem afterKey?_eq_none {text : List Char} (other : ¬ key <+: text) :
    afterKey? key text = none :=
  if_neg (mt List.isPrefixOf_iff_prefix.mp other)

private theorem capabilityKey_begins_no_role (value : List Char) :
    ¬ capabilityKey <+: roleKey ++ value := by
  rintro ⟨rest, same⟩
  cases same

private theorem roleKey_begins_no_capability (value : List Char) :
    ¬ roleKey <+: capabilityKey ++ value := by
  rintro ⟨rest, same⟩
  cases same

private theorem Separable.findSome?_role (separable : Separable group role capability) :
    (segments (qualified group role capability).value.toList).findSome? (afterKey? roleKey) =
      role.map String.toList := by
  have inGroup : (segments group.toList).findSome? (afterKey? roleKey) = none :=
    List.findSome?_eq_none_iff.mpr fun segment member =>
      afterKey?_eq_none (separable.roleless segment member)
  rw [separable.segments_eq, List.findSome?_append, List.findSome?_append, inGroup]
  cases role with
  | some text => simp [afterKey?_append]
  | none =>
      cases capability with
      | some text => simp [afterKey?_eq_none (roleKey_begins_no_capability text.toList)]
      | none => rfl

private theorem Separable.findSome?_capability (separable : Separable group role capability) :
    (segments (qualified group role capability).value.toList).findSome?
      (afterKey? capabilityKey) = capability.map String.toList := by
  have inGroup : (segments group.toList).findSome? (afterKey? capabilityKey) = none :=
    List.findSome?_eq_none_iff.mpr fun segment member =>
      afterKey?_eq_none (separable.incapable segment member)
  have inRole : (role.map fun text => roleKey ++ text.toList).toList.findSome?
      (afterKey? capabilityKey) = none := by
    cases role with
    | none => rfl
    | some text => simp [afterKey?_eq_none (capabilityKey_begins_no_role text.toList)]
  rw [separable.segments_eq, List.findSome?_append, List.findSome?_append, inGroup, inRole]
  cases capability with
  | none => rfl
  | some text => simp [afterKey?_append]

private theorem isPresent_eq (text : String) :
    (!text.toList.isEmpty && text.toList != absentValue) = isPresent text := by
  have empty : text.toList.isEmpty = (text == "") := by
    rw [Bool.eq_iff_iff, List.isEmpty_iff, beq_iff_eq, String.toList_eq_nil_iff]
  have absent : (text.toList == absentValue) = (text == "NULL") := by
    rw [Bool.eq_iff_iff, beq_iff_eq, beq_iff_eq, absentValue, String.toList_inj]
  rw [isPresent, bne, bne, bne, empty, absent]

/-- The value of a qualifier, if it does not stand for absence. -/
private theorem map_qualifierChars? {characters : List Char} {value : Option String}
    (found : (segments characters).findSome? (afterKey? key) = value.map String.toList) :
    (qualifierChars? key characters).map String.ofList = value.filter isPresent := by
  rw [segments] at found
  rw [qualifierChars?, found, Option.filter_map, Option.map_map]
  cases value with
  | none => rfl
  | some text =>
      rw [Option.filter_some, Option.filter_some, Function.comp_apply, isPresent_eq]
      split
      · exact congrArg some String.ofList_toList
      · rfl

/-! ## The group -/

/-- A key that no segment begins with does not stand behind a slash. -/
private theorem beforeFirst?_eq_none {characters : List Char} (keyWhole : '/' ∉ key)
    (absent : ∀ segment ∈ segments characters, ¬ key <+: segment) :
    beforeFirst? ('/' :: key) characters = none := by
  rw [beforeFirst?_eq_none_iff]
  intro occurs
  obtain ⟨segment, member, begins⟩ := exists_segment_of_infix keyWhole occurs
  exact absent segment member begins

/-- The first qualifier with a key is cut off where it was added. -/
private theorem beforeFirst?_append (keyWhole : '/' ∉ key)
    (absent : ∀ segment ∈ segments group.toList, ¬ key <+: segment) (text : String)
    (rest : List Char) :
    beforeFirst? ('/' :: key) (group.toList ++ qualifier key (some text) ++ rest) =
      some group.toList := by
  have notInGroup := beforeFirst?_eq_none_iff.mp (beforeFirst?_eq_none keyWhole absent)
  have cut : CutAtFirst ('/' :: key)
      (group.toList ++ '/' :: key ++ (text.toList ++ rest)) group.toList (text.toList ++ rest) :=
    cutAtFirst_of_absent keyWhole notInGroup
  rw [beforeFirst?_eq_some_iff]
  exact ⟨text.toList ++ rest, by simpa [qualifier] using cut⟩

private theorem Separable.beforeFirst?_role (separable : Separable group none capability) :
    beforeFirst? ('/' :: roleKey) (qualified group none capability).value.toList = none := by
  refine beforeFirst?_eq_none (by decide) fun segment member => ?_
  rw [separable.segments_eq, Option.map_none, Option.toList_none, List.append_nil] at member
  rcases List.mem_append.mp member with inGroup | qualifies
  · exact separable.roleless segment inGroup
  · obtain ⟨text, -, rfl⟩ := Option.map_eq_some_iff.mp (Option.mem_toList.mp qualifies)
    exact roleKey_begins_no_capability text.toList

private theorem Separable.groupChars_eq (separable : Separable group role capability) :
    groupChars (qualified group role capability).value.toList = group.toList := by
  rw [groupChars]
  cases role with
  | some text =>
      rw [qualified, String.toList_ofList, beforeFirst?_append (by decide) separable.roleless]
      rfl
  | none =>
      rw [separable.beforeFirst?_role, Option.orElse_none]
      cases capability with
      | some text =>
          have cut := beforeFirst?_append (by decide) separable.incapable text []
          rw [List.append_nil] at cut
          rw [qualified, String.toList_ofList, qualifier, List.append_nil, cut]
          rfl
      | none =>
          have unchanged : (qualified group none none).value.toList = group.toList := by
            simp [qualified, qualifier]
          rw [unchanged, beforeFirst?_eq_none (by decide) separable.incapable]
          rfl

/-- A name that was put together from a group, a role and a capability shows them again, except
for a qualifier that stands for its absence. -/
theorem parts_of_qualified (separable : Separable group role capability) :
    (qualified group role capability).group = group ∧
      (qualified group role capability).role? = role.filter isPresent ∧
      (qualified group role capability).capability? = capability.filter isPresent := by
  refine ⟨?_, ?_, ?_⟩
  · rw [Fqan.group, separable.groupChars_eq, String.ofList_toList]
  · exact map_qualifierChars? separable.findSome?_role
  · exact map_qualifierChars? separable.findSome?_capability

/-- Keys that stand inside a segment, or that are cut short by its end, do not qualify. -/
theorem parts_of_qualified_of_partial_keys :
    (qualified "/atlas/xRole=y/Role" (some "Capability=x") (some "NULL")).group =
        "/atlas/xRole=y/Role" ∧
      (qualified "/atlas/xRole=y/Role" (some "Capability=x") (some "NULL")).role? =
        some "Capability=x" ∧
      (qualified "/atlas/xRole=y/Role" (some "Capability=x") (some "NULL")).capability? = none :=
  parts_of_qualified ⟨by decide, by decide, by decide, by decide⟩

end GridSecurity.Fqan
