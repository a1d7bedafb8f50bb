import GridSecurity.Proofs.Name.Agreement
import GridSecurity.Proofs.Name.Types
import GridSecurity.Proofs.Octets

/-!
# What a name encodes

A name is read as types and values, and then each of them is shown by a text.  Two names are
the same if these texts are.  Types with other numbers have other texts, and so have values
that are texts themselves and values that are not, among each other; but the text that stands
for a value of the second kind may be a value of the first kind.
-/

namespace GridSecurity

private theorem Ber.exists_of_mem_readWhile {α : Type} {readItem : Octets → Option (α × Octets)}
    {input : Octets} {item : α} (member : item ∈ (readWhile readItem input).1) :
    ∃ before rest, readItem before = some (item, rest) := by
  induction input using readWhile.induct readItem with
  | case1 input refused =>
      rw [readWhile_of_none refused] at member
      cases member
  | case2 input first rest found shorter _ _ _ induction =>
      rw [readWhile_of_some found shorter] at member
      rcases List.mem_cons.mp member with rfl | later
      · exact ⟨input, rest, found⟩
      · exact induction later
  | case3 input first rest found longer =>
      rw [readWhile, found] at member
      simp only [if_neg longer] at member
      cases member

/-! ## Types and values -/

namespace EncodedName

/-- The types and values of the name at the front. -/
def read? (input : Octets) : Option EncodedName := (read input).map (·.1.1)

private theorem exists_of_read {input rest : Octets} {name : DistinguishedName}
    (found : DistinguishedName.read input = some (name, rest)) :
    ∃ encoded, read? input = some encoded ∧ shown encoded = name.relativeNames := by
  obtain ⟨⟨⟨encoded, encoding⟩, following⟩, encodedRead, whole⟩ := Option.bind_eq_some_iff.mp found
  obtain ⟨rfl, _⟩ := Prod.mk.inj (Option.some.inj whole)
  exact ⟨encoded, by rw [read?, encodedRead, Option.map_some], rfl⟩

end EncodedName

private theorem EncodedRelativeName.ne_nil_of_read {input rest : Octets}
    {encoded : EncodedRelativeName} (found : read input = some (encoded, rest)) : encoded ≠ [] := by
  rintro rfl
  simp only [read, Option.bind_eq_bind, Option.bind_eq_some_iff] at found
  obtain ⟨⟨element, following⟩, _, tested⟩ := found
  split at tested
  · cases tested
  · next occupied =>
      obtain ⟨empty, _⟩ := Prod.mk.inj (Option.some.inj tested)
      exact occupied empty

private theorem EncodedName.nil_notMem_of_read? {octets : Octets} {encoded : EncodedName}
    (found : read? octets = some encoded) : [] ∉ encoded := by
  simp only [read?, read, Option.map_eq_some_iff, Option.bind_eq_bind, Option.bind_eq_some_iff,
    Option.ite_none_right_eq_some, Option.some.injEq] at found
  obtain ⟨_, ⟨⟨_, _, _⟩, _, ⟨content, _⟩, _, _, rfl⟩, rfl⟩ := found
  intro member
  obtain ⟨_, _, itself⟩ := Ber.exists_of_mem_readWhile member
  exact EncodedRelativeName.ne_nil_of_read itself rfl

/-- A relative name has attributes, and their types are texts of attribute types. -/
structure RelativeName.Typed (relativeName : RelativeName) : Prop where
  occupied : relativeName.attributes ≠ []
  types : ∀ nameAttribute ∈ relativeName.attributes,
    ∃ content, nameAttribute.shortName = typeText content

def DistinguishedName.Typed (name : DistinguishedName) : Prop :=
  ∀ relativeName ∈ name.relativeNames, relativeName.Typed

/-- Names that are read are typed. -/
theorem DistinguishedName.typed_of_read {input rest : Octets} {name : DistinguishedName}
    (found : read input = some (name, rest)) : name.Typed := by
  obtain ⟨encoded, encodedFound, shown⟩ := EncodedName.exists_of_read found
  intro relativeName member
  rw [← shown] at member
  obtain ⟨attributes, inEncoded, rfl⟩ := List.mem_map.mp member
  constructor
  · intro empty
    rw [EncodedRelativeName.shown, List.map_eq_nil_iff] at empty
    exact EncodedName.nil_notMem_of_read? encodedFound (empty ▸ inEncoded)
  · intro nameAttribute inRelativeName
    obtain ⟨pair, _, rfl⟩ := List.mem_map.mp inRelativeName
    exact ⟨pair.type, rfl⟩

/-! ## Values -/

/-- Two values are shown alike if they are the same text, or no texts and have the same
content, or if one of them is the text that stands for the content of the other. -/
inductive ShownAlike (left right : Ber.Element) : Prop
  | texts (text : String) (leftText : textOfValue? left = some text)
      (rightText : textOfValue? right = some text)
  | contents (leftNone : textOfValue? left = none) (rightNone : textOfValue? right = none)
      (same : left.content = right.content)
  | textForRight (leftText : textOfValue? left = some ("#" ++ Octets.hex right.content))
      (rightNone : textOfValue? right = none)
  | textForLeft (leftNone : textOfValue? left = none)
      (rightText : textOfValue? right = some ("#" ++ Octets.hex left.content))

private theorem nameValue_of_text {value : Ber.Element} {text : String}
    (isText : textOfValue? value = some text) : nameValue value = text := by
  rw [nameValue, isText, Option.getD_some]

private theorem nameValue_of_none {value : Ber.Element} (isNone : textOfValue? value = none) :
    nameValue value = "#" ++ Octets.hex value.content := by
  rw [nameValue, isNone, Option.getD_none]

theorem nameValue_eq_iff {left right : Ber.Element} :
    nameValue left = nameValue right ↔ ShownAlike left right := by
  constructor
  · intro same
    cases leftText : textOfValue? left with
    | some text =>
        rw [nameValue_of_text leftText] at same
        cases rightText : textOfValue? right with
        | some other =>
            rw [nameValue_of_text rightText] at same
            exact .texts text leftText (same ▸ rightText)
        | none =>
            rw [nameValue_of_none rightText] at same
            exact .textForRight (same ▸ leftText) rightText
    | none =>
        rw [nameValue_of_none leftText] at same
        cases rightText : textOfValue? right with
        | some text =>
            rw [nameValue_of_text rightText] at same
            exact .textForLeft leftText (same ▸ rightText)
        | none =>
            rw [nameValue_of_none rightText, String.append_right_inj, Octets.hex_inj] at same
            exact .contents leftText rightText same
  · intro alike
    cases alike with
    | texts text leftText rightText =>
        rw [nameValue_of_text leftText, nameValue_of_text rightText]
    | contents leftNone rightNone same =>
        rw [nameValue_of_none leftNone, nameValue_of_none rightNone, same]
    | textForRight leftText rightNone =>
        rw [nameValue_of_text leftText, nameValue_of_none rightNone]
    | textForLeft leftNone rightText =>
        rw [nameValue_of_none leftNone, nameValue_of_text rightText]

/-! ## Names -/

structure EncodedAttribute.Alike (left right : EncodedAttribute) : Prop where
  type : Identifier.numbers left.type = Identifier.numbers right.type
  value : ShownAlike left.value right.value

theorem EncodedAttribute.shown_eq_iff {left right : EncodedAttribute} :
    left.shown = right.shown ↔ left.Alike right := by
  rw [shown, shown, NameAttribute.mk.injEq, typeText_eq_iff, nameValue_eq_iff]
  constructor
  · rintro ⟨type, value⟩
    exact ⟨type, value⟩
  · rintro ⟨type, value⟩
    exact ⟨type, value⟩

private theorem map_eq_map_iff_forall₂ {α β : Type} {view : α → β} {left right : List α} :
    left.map view = right.map view ↔
      List.Forall₂ (fun first second => view first = view second) left right := by
  rw [← List.forall₂_eq_eq_eq, List.forall₂_map_left_iff, List.forall₂_map_right_iff]

/-- Two names are alike if they have as many relative names with as many attributes, which
are alike one by one. -/
def EncodedName.Alike (left right : EncodedName) : Prop :=
  List.Forall₂ (List.Forall₂ EncodedAttribute.Alike) left right

theorem EncodedName.shown_eq_iff {left right : EncodedName} :
    left.shown = right.shown ↔ left.Alike right := by
  simp only [shown, EncodedRelativeName.shown, map_eq_map_iff_forall₂, RelativeName.mk.injEq,
    EncodedAttribute.shown_eq_iff]
  rfl

/-! ## Small examples -/

namespace Sample

open Der in
/-- The encoding of a name, given the types and texts of its relative names. -/
def nameOf (relatives : List (List (Octets × String))) : Octets :=
  (sequenceOf (relatives.map fun pairs => .composite setTag isKnownTag_set
    (pairs.map fun pair => sequenceOf [⟨identifierTag, pair.1, Eq.refl true⟩,
      ⟨utf8StringTag, Utf8.ofText pair.2, Eq.refl true⟩]))).write

def commonNameType : Octets := [0x55, 0x04, 0x03]

def organizationType : Octets := [0x55, 0x04, 0x0a]

/-- The encoding of a common name, given the tag and the content of its value. -/
def commonName (tag : UInt8) (content : Octets) : Octets :=
  let length := UInt8.ofNat content.length
  [0x30, length + 11, 0x31, length + 9, 0x30, length + 7, 0x06, 0x03] ++ commonNameType
    ++ [tag, length] ++ content

end Sample

/-! ## Equality -/

namespace DistinguishedName

/-- Two names that are read are the same exactly if what they encode is alike.  Under any two
tags of texts the same content is. -/
theorem same_iff_alike {leftOctets rightOctets : Octets} {left right : DistinguishedName}
    (leftRead : ofOctets leftOctets = .ok left) (rightRead : ofOctets rightOctets = .ok right) :
    (∃ leftEncoded rightEncoded, EncodedName.read? leftOctets = some leftEncoded ∧
      EncodedName.read? rightOctets = some rightEncoded ∧
      (left.Same right ↔ leftEncoded.Alike rightEncoded)) ∧
    ∀ first second : Ber.Element, isTextNumber first.tag.number = true →
      isTextNumber second.tag.number = true → first.content = second.content →
        ShownAlike first second := by
  constructor
  · obtain ⟨leftRest, leftRead⟩ := ofOctets_eq_ok_iff.mp leftRead
    obtain ⟨rightRest, rightRead⟩ := ofOctets_eq_ok_iff.mp rightRead
    obtain ⟨leftEncoded, leftFound, leftShown⟩ := EncodedName.exists_of_read leftRead
    obtain ⟨rightEncoded, rightFound, rightShown⟩ := EncodedName.exists_of_read rightRead
    refine ⟨leftEncoded, rightEncoded, leftFound, rightFound, ?_⟩
    rw [Same, ← leftShown, ← rightShown, EncodedName.shown_eq_iff]
  · intro first second firstText secondText same
    have texts : textOfValue? first = textOfValue? second := by
      rw [textOfValue?, textOfValue?, if_pos firstText, if_pos secondText, same]
    rw [← nameValue_eq_iff, nameValue, nameValue, texts, same]

/-- The same text under two tags makes the same name. -/
theorem same_of_two_tags :
    ∃ printable utf8, ofOctets (Sample.commonName 0x13 (Utf8.ofText "#a")) = .ok printable ∧
      ofOctets (Sample.commonName 0x0c (Utf8.ofText "#a")) = .ok utf8 ∧
      printable.encoding ≠ utf8.encoding ∧ printable.Same utf8 := by
  have printableRead : ofOctets (Sample.commonName 0x13 (Utf8.ofText "#a")) =
      .ok ⟨[.single "CN" "#a"], Sample.commonName 0x13 (Utf8.ofText "#a")⟩ := by
    decide +kernel
  have utf8Read : ofOctets (Sample.commonName 0x0c (Utf8.ofText "#a")) =
      .ok ⟨[.single "CN" "#a"], Sample.commonName 0x0c (Utf8.ofText "#a")⟩ := by
    decide +kernel
  have encoded : ∀ tag ∈ [0x0c, 0x13], EncodedName.read? (Sample.commonName tag
      (Utf8.ofText "#a")) =
        some [[⟨Sample.commonNameType, ⟨.ofOctet tag, Utf8.ofText "#a"⟩⟩]] := by
    decide +kernel
  obtain ⟨⟨left, right, leftFound, rightFound, sameIff⟩, sameText⟩ :=
    same_iff_alike printableRead utf8Read
  rw [encoded 0x13 (by decide), Option.some.injEq] at leftFound
  rw [encoded 0x0c (by decide), Option.some.injEq] at rightFound
  subst leftFound rightFound
  refine ⟨_, _, printableRead, utf8Read, by decide +kernel, sameIff.mpr ?_⟩
  exact .cons (.cons ⟨rfl, sameText _ _ (by decide) (by decide) rfl⟩ .nil) .nil

/-- A value that is no text makes the same name as the text that stands for it. -/
theorem same_of_text_for_content :
    ∃ text content type textValue contentValue,
      ofOctets (Sample.commonName 0x0c (Utf8.ofText "#0061")) = .ok text ∧
      ofOctets (Sample.commonName 0x1e [0x00, 0x61]) = .ok content ∧
      EncodedName.read? (Sample.commonName 0x0c (Utf8.ofText "#0061")) =
        some [[⟨type, textValue⟩]] ∧
      EncodedName.read? (Sample.commonName 0x1e [0x00, 0x61]) = some [[⟨type, contentValue⟩]] ∧
      textOfValue? textValue = some "#0061" ∧ textOfValue? contentValue = none ∧
      text.Same content := by
  refine ⟨⟨[.single "CN" "#0061"], Sample.commonName 0x0c (Utf8.ofText "#0061")⟩,
    ⟨[.single "CN" "#0061"], Sample.commonName 0x1e [0x00, 0x61]⟩, Sample.commonNameType,
    ⟨.ofOctet 0x0c, Utf8.ofText "#0061"⟩, ⟨.ofOctet 0x1e, [0x00, 0x61]⟩,
    ?_, ?_, ?_, ?_, ?_, ?_, rfl⟩
  all_goals decide +kernel

end DistinguishedName

end GridSecurity
