import GridSecurity.Name.Reader
import Mathlib.Data.List.Forall2

/-!
# Texts of attribute types

A type is shown by its short name or else by its numbers with points between them.  These
texts have only letters, digits and points, so that nothing that separates the parts of a name
stands in them, and types with other numbers have other texts.
-/

namespace GridSecurity

/-! ## Numbers with points between them -/

theorem eq_nil_of_intercalate {separator : Char} {parts : List (List Char)}
    (occupied : [] ∉ parts) (nothing : [separator].intercalate parts = []) : parts = [] := by
  cases parts with
  | nil => rfl
  | cons part parts =>
      cases part with
      | nil => exact absurd List.mem_cons_self occupied
      | cons character part => simp at nothing

/-- Parts that are not empty are told by the text in which a character that stands in none of
them separates them. -/
private theorem eq_of_intercalate {separator : Char} {left right : List (List Char)}
    (leftOccupied : [] ∉ left) (rightOccupied : [] ∉ right)
    (leftWhole : ∀ part ∈ left, separator ∉ part) (rightWhole : ∀ part ∈ right, separator ∉ part)
    (same : [separator].intercalate left = [separator].intercalate right) : left = right := by
  by_cases nothing : [separator].intercalate left = []
  · rw [eq_nil_of_intercalate leftOccupied nothing,
      eq_nil_of_intercalate rightOccupied (same ▸ nothing)]
  · have leftSome : left ≠ [] := by
      rintro rfl
      exact nothing List.intercalate_nil
    have rightSome : right ≠ [] := by
      rintro rfl
      exact nothing (same.trans List.intercalate_nil)
    rw [← List.splitOn_intercalate separator leftWhole leftSome, same,
      List.splitOn_intercalate separator rightWhole rightSome]

namespace Identifier

variable {content left right : Octets}

def digits (content : Octets) : List (List Char) :=
  (numbers content).map (Nat.toDigits 10)

private theorem toList_dotted (content : Octets) :
    (dotted content).toList = ['.'].intercalate (digits content) := by
  have written : String.toList ∘ Nat.repr = Nat.toDigits 10 :=
    funext fun number => Nat.toList_repr
  rw [dotted, String.toList_intercalate, List.map_map, written]
  rfl

private theorem isDigit_of_mem_digits {part : List Char} (member : part ∈ digits content)
    {character : Char} (standsIn : character ∈ part) : character.isDigit = true := by
  obtain ⟨number, _, rfl⟩ := List.mem_map.mp member
  exact Nat.isDigit_of_mem_toDigits (by decide) (by decide) standsIn

private theorem nil_notMem_digits (content : Octets) : [] ∉ digits content := by
  intro member
  obtain ⟨number, _, empty⟩ := List.mem_map.mp member
  exact Nat.toDigits_ne_nil empty

private theorem isDigit_or_eq_of_mem_dotted {character : Char}
    (member : character ∈ (dotted content).toList) :
    character.isDigit = true ∨ character = '.' := by
  have each : ∀ part ∈ digits content, ∀ character ∈ part, character.isDigit = true :=
    fun _ part _ => isDigit_of_mem_digits part
  rw [toList_dotted] at member
  generalize digits content = parts at member each
  induction parts with
  | nil => simp at member
  | cons part parts induction =>
      obtain ⟨here, later⟩ := List.forall_mem_cons.mp each
      cases parts with
      | nil =>
          rw [List.intercalate_singleton] at member
          exact .inl (here character member)
      | cons other parts =>
          rw [List.intercalate_cons_cons, List.append_assoc, List.mem_append,
            List.singleton_append, List.mem_cons] at member
          rcases member with inPart | isPoint | inRest
          · exact .inl (here character inPart)
          · exact .inr isPoint
          · exact induction inRest later

theorem dotted_eq_iff : dotted left = dotted right ↔ numbers left = numbers right := by
  constructor
  · intro same
    have pointless : ∀ content, ∀ part ∈ digits content, '.' ∉ part := by
      intro content part member isPoint
      exact absurd (isDigit_of_mem_digits member isPoint) (by decide)
    have sameText : (dotted left).toList = (dotted right).toList := congrArg String.toList same
    rw [toList_dotted, toList_dotted] at sameText
    have sameDigits : digits left = digits right :=
      eq_of_intercalate (nil_notMem_digits left) (nil_notMem_digits right) (pointless left)
        (pointless right) sameText
    have injective : Function.Injective (Nat.toDigits 10) :=
      Function.LeftInverse.injective (g := (Nat.ofDigitChars 10 · 0)) fun _ =>
        Nat.ofDigitChars_ten_toDigits
    exact injective.list_map sameDigits
  · intro same
    rw [dotted, dotted, same]

end Identifier

/-! ## Short names -/

private theorem shortNameOf_eq (identifier : String) :
    (identifier, shortNameOf identifier) ∈ shortNames ∨ shortNameOf identifier = identifier := by
  cases found : shortNames.lookup identifier with
  | none => simp [shortNameOf, found]
  | some shortName =>
      obtain ⟨front, back, whole, _⟩ := List.lookup_eq_some_iff.mp found
      left
      rw [shortNameOf, found, whole]
      exact List.mem_append_right front List.mem_cons_self

/-- The characters of a short name are letters, and none that dotted numbers have. -/
private theorem isAlpha_of_mem_shortName {pair : String × String} (member : pair ∈ shortNames) :
    pair.2.toList ≠ [] ∧ ∀ character ∈ pair.2.toList,
      character.isAlpha = true ∧ ¬ (character.isDigit = true ∨ character = '.') := by
  have each : ∀ pair ∈ shortNames, pair.2.toList ≠ [] ∧ pair.2.toList.all (fun character =>
      character.isAlpha && !(character.isDigit || character == '.')) = true := by
    decide +kernel
  obtain ⟨occupied, letters⟩ := each pair member
  refine ⟨occupied, fun character standsIn => ?_⟩
  simpa using List.all_eq_true.mp letters character standsIn

/-- The characters that types are written with. -/
def isTypeCharacter (character : Char) : Bool :=
  character.isAlphanum || character == '.'

private theorem isTypeCharacter_of_mem_typeText {content : Octets} {character : Char}
    (member : character ∈ (typeText content).toList) : isTypeCharacter character = true := by
  rcases shortNameOf_eq (Identifier.dotted content) with named | numbered
  · have isAlpha := ((isAlpha_of_mem_shortName named).2 character member).1
    simp [isTypeCharacter, Char.isAlphanum, isAlpha]
  · rw [typeText, numbered] at member
    rcases Identifier.isDigit_or_eq_of_mem_dotted member with isDigit | rfl
    · simp [isTypeCharacter, Char.isAlphanum, isDigit]
    · rfl

/-- Other characters do not stand in a type. -/
theorem disjoint_typeText {characters : List Char}
    (others : characters.any isTypeCharacter = false) (content : Octets) :
    characters.Disjoint (typeText content).toList := by
  intro character member inType
  exact List.any_eq_false.mp others character member (isTypeCharacter_of_mem_typeText inType)

private theorem shortName_ne_dotted {pair : String × String} (member : pair ∈ shortNames)
    (content : Octets) : pair.2 ≠ Identifier.dotted content := by
  intro same
  obtain ⟨occupied, letters⟩ := isAlpha_of_mem_shortName member
  obtain ⟨first, rest, begins⟩ := List.exists_cons_of_ne_nil occupied
  have standsIn : first ∈ pair.2.toList := begins ▸ List.mem_cons_self
  exact (letters first standsIn).2 (Identifier.isDigit_or_eq_of_mem_dotted (same ▸ standsIn))

/-- Types with other numbers have other texts. -/
theorem typeText_eq_iff {left right : Octets} :
    typeText left = typeText right ↔ Identifier.numbers left = Identifier.numbers right := by
  have told : ∀ first ∈ shortNames, ∀ second ∈ shortNames,
      first.2 = second.2 → first.1 = second.1 := by decide +kernel
  rw [← Identifier.dotted_eq_iff]
  constructor
  · intro same
    rcases shortNameOf_eq (Identifier.dotted left) with leftNamed | leftNumbered
    · rcases shortNameOf_eq (Identifier.dotted right) with rightNamed | rightNumbered
      · exact told _ leftNamed _ rightNamed same
      · exact absurd (same.trans rightNumbered) (shortName_ne_dotted leftNamed right)
    · rcases shortNameOf_eq (Identifier.dotted right) with rightNamed | rightNumbered
      · exact absurd (same.symm.trans leftNumbered) (shortName_ne_dotted rightNamed left)
      · exact leftNumbered.symm.trans (same.trans rightNumbered)
  · intro same
    rw [typeText, typeText, same]

end GridSecurity
