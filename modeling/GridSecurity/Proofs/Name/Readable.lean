import GridSecurity.Proofs.Name.Encoded
import GridSecurity.Proofs.Success

/-!
# The readable form read back

The readable form is cut at the commas and plus signs that no backslash escapes, a type ends at
the first equality sign, and of an escape the character behind the backslash counts.  What is
written for a value has no separator without a backslash, so a name is read back as it was.
-/

namespace GridSecurity

/-! ## Cutting and unescaping -/

/-- The parts of a text between the separators that are not escaped. -/
def splitUnescaped (separator : Char) : List Char → List (List Char)
  | [] => [[]]
  | '\\' :: escaped :: rest =>
      (splitUnescaped separator rest).modifyHead fun part => '\\' :: escaped :: part
  | character :: rest =>
      if character = separator then [] :: splitUnescaped separator rest
      else (splitUnescaped separator rest).modifyHead (character :: ·)

/-- The text in which every escape is the character behind its backslash. -/
def unescape : List Char → List Char
  | [] => []
  | '\\' :: escaped :: rest => escaped :: unescape rest
  | character :: rest => character :: unescape rest

private theorem splitUnescaped_cons {separator character : Char} (unescaped : character ≠ '\\')
    (rest : List Char) :
    splitUnescaped separator (character :: rest) =
      if character = separator then [] :: splitUnescaped separator rest
      else (splitUnescaped separator rest).modifyHead (character :: ·) := by
  rw [splitUnescaped]
  rintro _ _ rfl
  exact absurd rfl unescaped

private theorem unescape_cons {character : Char} (unescaped : character ≠ '\\') (rest : List Char) :
    unescape (character :: rest) = character :: unescape rest := by
  rw [unescape]
  rintro _ _ rfl
  exact absurd rfl unescaped

/-- A text that is cut nowhere, whatever stands behind it. -/
def Unbroken (separator : Char) (text : List Char) : Prop :=
  ∀ rest, splitUnescaped separator (text ++ rest) =
    (splitUnescaped separator rest).modifyHead (text ++ ·)

namespace Unbroken

variable {separator : Char} {text other : List Char}

theorem nil : Unbroken separator [] := by
  intro rest
  exact (congrFun List.modifyHead_id _).symm

theorem append (front : Unbroken separator text) (back : Unbroken separator other) :
    Unbroken separator (text ++ other) := by
  intro rest
  rw [List.append_assoc, front, back, List.modifyHead_modifyHead]
  congr 1
  funext part
  exact (List.append_assoc text other part).symm

private theorem escape (character : Char) : Unbroken separator ['\\', character] :=
  fun _ => rfl

private theorem character {character : Char} (unescaped : character ≠ '\\')
    (other : character ≠ separator) : Unbroken separator [character] := by
  intro rest
  rw [List.singleton_append, splitUnescaped_cons unescaped, if_neg other]
  rfl

private theorem ofForall (ordinary : ∀ character ∈ text, character ≠ '\\' ∧ character ≠ separator) :
    Unbroken separator text := by
  induction text with
  | nil => exact nil
  | cons first rest induction =>
      obtain ⟨here, later⟩ := List.forall_mem_cons.mp ordinary
      exact append (character here.1 here.2) (induction later)

private theorem intercalate {parts : List (List Char)}
    (whole : ∀ part ∈ parts, Unbroken separator part)
    {between : Char} (unescaped : between ≠ '\\') (other : between ≠ separator) :
    Unbroken separator ([between].intercalate parts) := by
  induction parts with
  | nil => exact nil
  | cons part parts induction =>
      obtain ⟨here, later⟩ := List.forall_mem_cons.mp whole
      cases parts with
      | nil =>
          rw [List.intercalate_singleton]
          exact here
      | cons next parts =>
          rw [List.intercalate_cons_cons]
          exact (here.append (character unescaped other)).append (induction later)

end Unbroken

/-- Parts that are cut nowhere are found again between the separators. -/
private theorem splitUnescaped_intercalate {separator : Char} (unescaped : separator ≠ '\\')
    {parts : List (List Char)} (whole : ∀ part ∈ parts, Unbroken separator part)
    (occupied : parts ≠ []) :
    splitUnescaped separator ([separator].intercalate parts) = parts := by
  induction parts with
  | nil => exact absurd rfl occupied
  | cons part parts induction =>
      obtain ⟨here, later⟩ := List.forall_mem_cons.mp whole
      cases parts with
      | nil =>
          have alone := here []
          rw [List.append_nil] at alone
          rw [List.intercalate_singleton, alone]
          simp [splitUnescaped]
      | cons next parts =>
          rw [List.intercalate_cons_cons, List.append_assoc, here, List.singleton_append,
            splitUnescaped_cons unescaped, if_pos rfl, induction later (List.cons_ne_nil _ _)]
          simp

/-! ## Values -/

/-- The characters that separate are among those that are escaped. -/
theorem unbroken_escapeNameValue {separator : Char}
    (delimits : isNameDelimiter separator = true) (atStart : Bool) (value : List Char) :
    Unbroken separator (escapeNameValue atStart value) := by
  induction value generalizing atStart with
  | nil => exact Unbroken.nil
  | cons character rest induction =>
      rw [escapeNameValue]
      split
      · exact (Unbroken.escape character).append (induction false)
      · next unescaped =>
          simp only [Bool.or_eq_true, not_or] at unescaped
          have ordinary : ∀ delimiter, isNameDelimiter delimiter = true →
              character ≠ delimiter := by
            rintro delimiter delimits rfl
            exact unescaped.1.1 delimits
          exact (Unbroken.character (ordinary '\\' rfl) (ordinary separator delimits)).append
            (induction false)

private theorem unescape_escapeNameValue (atStart : Bool) (value : List Char) :
    unescape (escapeNameValue atStart value) = value := by
  induction value generalizing atStart with
  | nil => rfl
  | cons character rest induction =>
      rw [escapeNameValue]
      split
      · rw [unescape, induction]
      · next unescaped =>
          have ordinary : character ≠ '\\' := by
            rintro rfl
            exact unescaped rfl
          rw [unescape_cons ordinary, induction]

/-! ## Names -/

/-- An attribute from a text that has an equality sign. -/
def NameAttribute.ofReadable? (text : List Char) : Option NameAttribute :=
  match text.dropWhile (· != '=') with
  | [] => none
  | _ :: value =>
      some ⟨String.ofList (text.takeWhile (· != '=')), String.ofList (unescape value)⟩

def RelativeName.ofReadable? (text : List Char) : Option RelativeName :=
  ((splitUnescaped '+' text).mapM NameAttribute.ofReadable?).map RelativeName.mk

/-- The relative names in encoding order.  A name without relative names has no text. -/
def DistinguishedName.ofReadable? (text : String) : Option (List RelativeName) :=
  if text.toList = [] then some []
  else ((splitUnescaped ',' text.toList).mapM RelativeName.ofReadable?).map List.reverse

/-- The characters that end a type or would be escaped in it. -/
def endsType (character : Char) : Bool :=
  character ∈ ['=', ',', '+', '\\']

/-- The type has no character that ends it. -/
def NameAttribute.Legible (nameAttribute : NameAttribute) : Prop :=
  ∀ character ∈ nameAttribute.shortName.toList, endsType character = false

structure RelativeName.Legible (relativeName : RelativeName) : Prop where
  occupied : relativeName.attributes ≠ []
  types : ∀ nameAttribute ∈ relativeName.attributes, nameAttribute.Legible

/-- Every relative name has attributes, and their types have no character that ends them. -/
def DistinguishedName.Legible (name : DistinguishedName) : Prop :=
  ∀ relativeName ∈ name.relativeNames, relativeName.Legible

private theorem endsType_eq_false {content : Octets} {character : Char}
    (member : character ∈ (typeText content).toList) : endsType character = false := by
  rw [endsType, decide_eq_false_iff_not]
  intro ends
  exact disjoint_typeText (by decide) content ends member

/-- Typed names are legible. -/
theorem DistinguishedName.Typed.legible {name : DistinguishedName} (typed : name.Typed) :
    name.Legible := by
  intro relativeName member
  refine ⟨(typed relativeName member).occupied, ?_⟩
  intro nameAttribute inRelativeName character inType
  obtain ⟨content, type⟩ := (typed relativeName member).types nameAttribute inRelativeName
  rw [type] at inType
  exact endsType_eq_false inType

namespace NameAttribute

variable {nameAttribute : NameAttribute}

private theorem Legible.ne {ending : Char} (legible : nameAttribute.Legible)
    (ends : endsType ending = true) :
    ∀ character ∈ nameAttribute.shortName.toList, character ≠ ending := by
  rintro _ member rfl
  rw [legible _ member] at ends
  cases ends

/-- An attribute is cut nowhere at a separator that is escaped in values. -/
theorem Legible.unbroken {separator : Char} (legible : nameAttribute.Legible)
    (delimits : isNameDelimiter separator = true) (ends : endsType separator = true) :
    Unbroken separator (nameAttribute.render (escapeNameValue true)) := by
  have equality : '=' ≠ separator := by
    rintro rfl
    cases delimits
  have typeWhole : Unbroken separator nameAttribute.shortName.toList :=
    Unbroken.ofForall fun character member =>
      ⟨legible.ne rfl character member, legible.ne ends character member⟩
  have equalityWhole : Unbroken separator ['='] := Unbroken.character (by decide) equality
  exact typeWhole.append (equalityWhole.append (unbroken_escapeNameValue delimits true _))

/-- The type is read up to the equality sign, and the value behind it. -/
theorem Legible.ofReadable?_render (legible : nameAttribute.Legible) :
    ofReadable? (nameAttribute.render (escapeNameValue true)) = some nameAttribute := by
  have continues : ∀ character ∈ nameAttribute.shortName.toList, (character != '=') = true :=
    fun character member => bne_iff_ne.mpr (legible.ne rfl character member)
  rw [ofReadable?, render, List.dropWhile_append_of_pos continues,
    List.takeWhile_append_of_pos continues, List.dropWhile_cons_of_neg (by decide),
    List.takeWhile_cons_of_neg (by decide)]
  simp only [unescape_escapeNameValue, List.append_nil, String.ofList_toList]

end NameAttribute

namespace RelativeName

variable {relativeName : RelativeName}

/-- What is joined by separators for a relative name. -/
def parts (relativeName : RelativeName) : List (List Char) :=
  relativeName.attributes.map (·.render (escapeNameValue true))

private theorem Legible.unbroken_parts {separator : Char} (legible : relativeName.Legible)
    (delimits : isNameDelimiter separator = true) (ends : endsType separator = true) :
    ∀ part ∈ relativeName.parts, Unbroken separator part := by
  intro part member
  obtain ⟨nameAttribute, inRelativeName, rfl⟩ := List.mem_map.mp member
  exact (legible.types nameAttribute inRelativeName).unbroken delimits ends

private theorem Legible.unbroken (legible : relativeName.Legible) :
    Unbroken ',' (relativeName.render (escapeNameValue true)) :=
  Unbroken.intercalate (legible.unbroken_parts rfl rfl) (by decide) (by decide)

private theorem Legible.ofReadable?_render (legible : relativeName.Legible) :
    ofReadable? (relativeName.render (escapeNameValue true)) = some relativeName := by
  have read : relativeName.parts.mapM NameAttribute.ofReadable? =
      some relativeName.attributes := by
    rw [parts, mapM_eq_some_iff, List.forall₂_map_left_iff, List.forall₂_same]
    intro nameAttribute inRelativeName
    exact (legible.types nameAttribute inRelativeName).ofReadable?_render
  have occupied : relativeName.parts ≠ [] := by
    simpa [parts] using legible.occupied
  have cut : splitUnescaped '+' (relativeName.render (escapeNameValue true)) =
      relativeName.parts :=
    splitUnescaped_intercalate (by decide) (legible.unbroken_parts rfl rfl) occupied
  rw [ofReadable?, cut, read]
  rfl

private theorem Legible.render_ne_nil (legible : relativeName.Legible) :
    relativeName.render (escapeNameValue true) ≠ [] := by
  intro nothing
  have occupied : [] ∉ relativeName.parts := by
    intro member
    obtain ⟨nameAttribute, _, empty⟩ := List.mem_map.mp member
    simp [NameAttribute.render] at empty
  have empty : relativeName.parts = [] := eq_nil_of_intercalate occupied nothing
  exact legible.occupied (List.map_eq_nil_iff.mp empty)

end RelativeName

namespace DistinguishedName

variable {name : DistinguishedName}

/-- What is joined by commas for a name. -/
def parts (name : DistinguishedName) : List (List Char) :=
  name.relativeNames.reverse.map (·.render (escapeNameValue true))

private theorem Legible.ofReadable?_readable (legible : name.Legible) :
    ofReadable? name.readable = some name.relativeNames := by
  have each : ∀ relativeName ∈ name.relativeNames.reverse, relativeName.Legible :=
    fun relativeName member => legible relativeName (List.mem_reverse.mp member)
  have occupied : [] ∉ name.parts := by
    intro member
    obtain ⟨relativeName, inName, empty⟩ := List.mem_map.mp member
    exact (each relativeName inName).render_ne_nil empty
  have whole : ∀ part ∈ name.parts, Unbroken ',' part := by
    intro part member
    obtain ⟨relativeName, inName, rfl⟩ := List.mem_map.mp member
    exact (each relativeName inName).unbroken
  have read : name.parts.mapM RelativeName.ofReadable? = some name.relativeNames.reverse := by
    rw [parts, mapM_eq_some_iff, List.forall₂_map_left_iff, List.forall₂_same]
    intro relativeName inName
    exact (each relativeName inName).ofReadable?_render
  have text : name.readable.toList = [','].intercalate name.parts := String.toList_ofList
  rw [ofReadable?, text]
  split
  · next nothing =>
      have empty := eq_nil_of_intercalate occupied nothing
      rw [parts, List.map_eq_nil_iff, List.reverse_eq_nil_iff] at empty
      rw [empty]
  · next some =>
      have nonempty : name.parts ≠ [] := by
        intro empty
        rw [empty] at some
        exact some List.intercalate_nil
      rw [splitUnescaped_intercalate (by decide) whole nonempty, read, Option.map_some,
        List.reverse_reverse]

end DistinguishedName

/-! ## What the readable form tells -/

namespace DistinguishedName

/-- A name that is read is legible, and the readable form of a legible name is read back as
its relative names and so belongs to no other legible name. -/
theorem readable_read_back (name : DistinguishedName) :
    ((∃ input rest, read input = some (name, rest)) → name.Legible) ∧
    (name.Legible → ofReadable? name.readable = some name.relativeNames ∧
      ∀ other : DistinguishedName, other.Legible →
        (name.readable = other.readable ↔ name.Same other)) := by
  constructor
  · rintro ⟨input, rest, found⟩
    exact (typed_of_read found).legible
  · intro legible
    refine ⟨legible.ofReadable?_readable, ?_⟩
    intro other otherLegible
    constructor
    · intro same
      apply Option.some.inj
      rw [← legible.ofReadable?_readable, ← otherLegible.ofReadable?_readable, same]
    · intro same
      rw [readable, readable, readableChars, readableChars, same]

/-- Delimiters in a value are told from those of the name, and so are a number sign and blanks
at the ends of a value. -/
theorem readable_read_back_of_delimiters :
    let inName := Sample.nameOf [[(Sample.organizationType, "#Grid, Inc.=x ")],
      [(Sample.commonNameType, " a+CN=b\\"), ([0x2a, 0x03], "")]]
    let inValue := Sample.nameOf [[(Sample.organizationType, "#Grid, Inc.=x ")],
      [(Sample.commonNameType, " a+CN=b\\+1.2.3=")]]
    ∃ name other, read inName = some (name, []) ∧ read inValue = some (other, []) ∧
      name.Legible ∧ other.Legible ∧
      name.readable = "CN=\\ a\\+CN=b\\\\+1.2.3=,O=\\#Grid\\, Inc.=x\\ " ∧
      ofReadable? name.readable = some [.single "O" "#Grid, Inc.=x ",
        ⟨[⟨"CN", " a+CN=b\\"⟩, ⟨"1.2.3", ""⟩]⟩] ∧
      name.readable ≠ other.readable := by
  intro inName inValue
  have nameRead : read inName = some (⟨[.single "O" "#Grid, Inc.=x ",
      ⟨[⟨"CN", " a+CN=b\\"⟩, ⟨"1.2.3", ""⟩]⟩], inName⟩, []) := by
    decide +kernel
  have otherRead : read inValue = some (⟨[.single "O" "#Grid, Inc.=x ",
      .single "CN" " a+CN=b\\+1.2.3="], inValue⟩, []) := by
    decide +kernel
  have legible := (readable_read_back _).1 ⟨inName, [], nameRead⟩
  have otherLegible := (readable_read_back _).1 ⟨inValue, [], otherRead⟩
  obtain ⟨readBack, told⟩ := (readable_read_back _).2 legible
  refine ⟨_, _, nameRead, otherRead, legible, otherLegible, by decide +kernel, readBack, ?_⟩
  rw [Ne, told _ otherLegible]
  decide +kernel

end DistinguishedName

end GridSecurity
