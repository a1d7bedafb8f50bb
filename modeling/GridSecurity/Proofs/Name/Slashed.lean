import GridSecurity.Proofs.Name.Encoded

/-!
# What the slash form tells

The slash form escapes nothing, so a value may hide an attribute: a separator, the text of an
attribute type and an equality sign.  Names without such values are told by their slash form.
A name with such a value is not: cut at the hidden attribute, it is another name with the same
slash form.
-/

namespace GridSecurity

/-! ## Attributes and the separators in front of them -/

/-- A slash stands in front of a relative name and a plus sign between its attributes. -/
def separates (character : Char) : Bool :=
  character ∈ ['/', '+']

/-- An attribute with the separator in front of it. -/
abbrev Piece := Char × NameAttribute

def Piece.text (piece : Piece) : List Char :=
  piece.1 :: piece.2.render id

def RelativeName.pieces (relativeName : RelativeName) : List Piece :=
  match relativeName.attributes with
  | [] => []
  | first :: others => ('/', first) :: others.map ('+', ·)

def DistinguishedName.pieces (name : DistinguishedName) : List Piece :=
  name.relativeNames.flatMap RelativeName.pieces

/-- The attributes in front of the first slash and the relative names from there on. -/
def regroup : List Piece → List NameAttribute × List RelativeName
  | [] => ([], [])
  | piece :: pieces =>
      if piece.1 = '/' then ([], ⟨piece.2 :: (regroup pieces).1⟩ :: (regroup pieces).2)
      else (piece.2 :: (regroup pieces).1, (regroup pieces).2)

private theorem regroup_append_plus (others : List NameAttribute) (pieces : List Piece) :
    regroup (others.map ('+', ·) ++ pieces) =
      (others ++ (regroup pieces).1, (regroup pieces).2) := by
  induction others with
  | nil => rfl
  | cons first others induction =>
      rw [List.map_cons, List.cons_append, regroup, induction]
      rfl

private theorem regroup_flatMap_pieces {relativeNames : List RelativeName}
    (occupied : ∀ relativeName ∈ relativeNames, relativeName.attributes ≠ []) :
    regroup (relativeNames.flatMap RelativeName.pieces) = ([], relativeNames) := by
  induction relativeNames with
  | nil => rfl
  | cons relativeName relativeNames induction =>
      obtain ⟨here, later⟩ := List.forall_mem_cons.mp occupied
      obtain ⟨attributes⟩ := relativeName
      cases attributes with
      | nil => exact absurd rfl here
      | cons first others =>
          rw [List.flatMap_cons, RelativeName.pieces, List.cons_append, regroup,
            regroup_append_plus, induction later, List.append_nil]
          rfl

private theorem flatMap_pieces_regroup {pieces : List Piece}
    (each : ∀ piece ∈ pieces, separates piece.1 = true) :
    (regroup pieces).1.map ('+', ·) ++ (regroup pieces).2.flatMap RelativeName.pieces =
      pieces := by
  induction pieces with
  | nil => rfl
  | cons piece pieces induction =>
      obtain ⟨here, later⟩ := List.forall_mem_cons.mp each
      have rest := induction later
      rw [regroup]
      split
      · next slash =>
          rw [List.map_nil, List.nil_append, List.flatMap_cons, RelativeName.pieces,
            List.cons_append, rest, ← slash]
      · next noSlash =>
          have plus : piece.1 = '+' := by
            simpa [separates, noSlash] using here
          rw [List.map_cons, List.cons_append, rest, ← plus]

private theorem occupied_of_regroup {pieces : List Piece} :
    ∀ relativeName ∈ (regroup pieces).2, relativeName.attributes ≠ [] := by
  induction pieces with
  | nil => simp [regroup]
  | cons piece pieces induction =>
      rw [regroup]
      split
      · intro relativeName member
        rcases List.mem_cons.mp member with rfl | later
        · exact List.cons_ne_nil _ _
        · exact induction relativeName later
      · exact induction

/-! ## The text of the pieces -/

private theorem intercalate_cons_eq (separator : Char) (part : List Char)
    (parts : List (List Char)) :
    [separator].intercalate (part :: parts) = part ++ parts.flatMap (separator :: ·) := by
  induction parts generalizing part with
  | nil => simp
  | cons next parts induction =>
      rw [List.intercalate_cons_cons, induction, List.flatMap_cons]
      simp

private theorem RelativeName.flatMap_text_pieces {relativeName : RelativeName}
    (occupied : relativeName.attributes ≠ []) :
    relativeName.pieces.flatMap Piece.text = '/' :: relativeName.render id := by
  obtain ⟨attributes⟩ := relativeName
  cases attributes with
  | nil => exact absurd rfl occupied
  | cons first others =>
      rw [pieces, render, List.map_cons, intercalate_cons_eq, List.flatMap_cons,
        List.flatMap_map, List.flatMap_map]
      rfl

private theorem DistinguishedName.flatMap_text_pieces {name : DistinguishedName}
    (occupied : ∀ relativeName ∈ name.relativeNames, relativeName.attributes ≠ []) :
    name.pieces.flatMap Piece.text = name.slashedChars := by
  rw [pieces, slashedChars, List.flatMap_assoc]
  apply List.flatMap_congr
  intro relativeName member
  exact RelativeName.flatMap_text_pieces (occupied relativeName member)

/-! ## Hidden attributes -/

/-- The beginning of an attribute in the slash form, given the content of its type. -/
def attributeStart (separator : Char) (content : Octets) : List Char :=
  separator :: ((typeText content).toList ++ ['='])

/-- The beginning of an attribute stands in a text. -/
def HidesAttribute (text : List Char) : Prop :=
  ∃ separator content, separates separator = true ∧ attributeStart separator content <:+: text

/-- No value hides an attribute. -/
def DistinguishedName.HidesNone (name : DistinguishedName) : Prop :=
  ∀ relativeName ∈ name.relativeNames, ∀ nameAttribute ∈ relativeName.attributes,
    ¬ HidesAttribute nameAttribute.value.toList

private theorem not_hidesAttribute_of_notMem {text : List Char} (noEquality : '=' ∉ text) :
    ¬ HidesAttribute text := by
  rintro ⟨separator, content, _, hidden⟩
  exact noEquality (hidden.subset (by simp [attributeStart]))

/-- No separator stands in a type or is the equality sign. -/
private theorem separates_eq_false {content : Octets} {character : Char}
    (member : character ∈ (typeText content).toList ++ ['=']) : separates character = false := by
  rcases List.mem_append.mp member with inType | equality
  · rw [separates, decide_eq_false_iff_not]
    intro isSeparator
    exact disjoint_typeText (by decide) content isSeparator inType
  · rw [List.mem_singleton.mp equality]
    rfl

private theorem equality_notMem_typeText (content : Octets) : '=' ∉ (typeText content).toList := by
  have others : ['='].Disjoint (typeText content).toList := disjoint_typeText rfl content
  exact others List.mem_cons_self

/-- The separator and the type of a piece as they are written. -/
structure Piece.Typed (piece : Piece) : Prop where
  separator : separates piece.1 = true
  type : ∃ content, piece.2.shortName = typeText content

private theorem Piece.text_eq {piece : Piece} {content : Octets}
    (type : piece.2.shortName = typeText content) :
    piece.text = attributeStart piece.1 content ++ piece.2.value.toList := by
  rw [text, NameAttribute.render, type, attributeStart]
  simp

/-- What stands behind a value, between it and some pieces, begins with a piece.  So if that
hides no attribute, nothing stands there. -/
private theorem eq_nil_of_between {pieces others : List Piece} {value between : List Char}
    (each : ∀ piece ∈ pieces, piece.Typed) (otherEach : ∀ piece ∈ others, piece.Typed)
    (hidesNone : ¬ HidesAttribute (value ++ between))
    (same : pieces.flatMap Piece.text = between ++ others.flatMap Piece.text) :
    between = [] := by
  cases pieces with
  | nil => exact (List.append_eq_nil_iff.mp same.symm).1
  | cons piece pieces =>
      obtain ⟨content, type⟩ := (each piece List.mem_cons_self).type
      have separator := (each piece List.mem_cons_self).separator
      rw [List.flatMap_cons, Piece.text_eq type, List.append_assoc] at same
      generalize piece.2.value.toList ++ pieces.flatMap Piece.text = behind at same
      have noStart : ¬ attributeStart piece.1 content <+: between := by
        intro begins
        exact hidesNone ⟨piece.1, content, separator,
          begins.isInfix.trans (List.suffix_append value between).isInfix⟩
      rcases List.append_eq_append_iff.mp same with ⟨more, whole, _⟩ | ⟨more, whole, follows⟩
      · exact absurd ⟨more, whole.symm⟩ noStart
      · cases between with
        | nil => rfl
        | cons first between =>
            -- The rest of the beginning would have to begin with another piece.
            cases more with
            | nil =>
                rw [List.append_nil] at whole
                exact absurd (whole ▸ List.prefix_rfl) noStart
            | cons next more =>
                have inStart : next ∈ (typeText content).toList ++ ['='] := by
                  rw [(List.cons.inj whole).2]
                  simp
                cases others with
                | nil => cases follows
                | cons other others =>
                    have begins : other.1 = next := (List.cons.inj follows).1
                    have otherSeparates := (otherEach other List.mem_cons_self).separator
                    rw [begins, separates_eq_false inStart] at otherSeparates
                    cases otherSeparates

private theorem flatMap_text_cons (piece : Piece) (pieces : List Piece) :
    (piece :: pieces).flatMap Piece.text = piece.1 :: (piece.2.shortName.toList ++
      '=' :: (piece.2.value.toList ++ pieces.flatMap Piece.text)) := by
  simp [Piece.text, NameAttribute.render]

private theorem eq_of_append_cons {separator : Char} {left right leftRest rightRest : List Char}
    (leftWhole : separator ∉ left) (rightWhole : separator ∉ right)
    (same : left ++ separator :: leftRest = right ++ separator :: rightRest) :
    left = right ∧ leftRest = rightRest := by
  rcases List.append_eq_append_iff.mp same with ⟨between, rfl, rest⟩ | ⟨between, rfl, rest⟩
  · cases between with
    | nil => exact ⟨(List.append_nil left).symm, (List.cons.inj rest).2⟩
    | cons first between =>
        obtain ⟨rfl, _⟩ := List.cons.inj rest
        exact absurd (List.mem_append_right left List.mem_cons_self) rightWhole
  · cases between with
    | nil => exact ⟨List.append_nil right, (List.cons.inj rest).2.symm⟩
    | cons first between =>
        obtain ⟨rfl, _⟩ := List.cons.inj rest
        exact absurd (List.mem_append_right right List.mem_cons_self) leftWhole

private theorem eq_of_append_text {value otherValue : List Char} {pieces others : List Piece}
    (each : ∀ piece ∈ pieces, piece.Typed) (otherEach : ∀ piece ∈ others, piece.Typed)
    (hidesNone : ¬ HidesAttribute value) (otherHidesNone : ¬ HidesAttribute otherValue)
    (same : value ++ pieces.flatMap Piece.text = otherValue ++ others.flatMap Piece.text) :
    value = otherValue ∧ pieces.flatMap Piece.text = others.flatMap Piece.text := by
  rcases List.append_eq_append_iff.mp same with ⟨between, rfl, rest⟩ | ⟨between, rfl, rest⟩
  · obtain rfl := eq_nil_of_between each otherEach otherHidesNone rest
    exact ⟨(List.append_nil value).symm, rest⟩
  · obtain rfl := eq_nil_of_between otherEach each hidesNone rest
    exact ⟨List.append_nil otherValue, rest.symm⟩

structure Piece.Plain (piece : Piece) : Prop extends Piece.Typed piece where
  hidesNone : ¬ HidesAttribute piece.2.value.toList

/-- Pieces that hide no attribute are told by their text. -/
private theorem eq_of_flatMap_text {left right : List Piece}
    (leftPlain : ∀ piece ∈ left, piece.Plain) (rightPlain : ∀ piece ∈ right, piece.Plain)
    (same : left.flatMap Piece.text = right.flatMap Piece.text) : left = right := by
  induction left generalizing right with
  | nil =>
      cases right with
      | nil => rfl
      | cons piece right => cases same
  | cons piece left induction =>
      cases right with
      | nil => cases same
      | cons other right =>
          obtain ⟨here, later⟩ := List.forall_mem_cons.mp leftPlain
          obtain ⟨otherHere, otherLater⟩ := List.forall_mem_cons.mp rightPlain
          obtain ⟨content, type⟩ := here.type
          obtain ⟨otherContent, otherType⟩ := otherHere.type
          rw [flatMap_text_cons, flatMap_text_cons] at same
          obtain ⟨sameSeparator, sameRest⟩ := List.cons.inj same
          obtain ⟨sameType, sameBehind⟩ := eq_of_append_cons
            (type ▸ equality_notMem_typeText content)
            (otherType ▸ equality_notMem_typeText otherContent) sameRest
          obtain ⟨sameValue, sameText⟩ := eq_of_append_text
            (fun piece member => (later piece member).toTyped)
            (fun piece member => (otherLater piece member).toTyped)
            here.hidesNone otherHere.hidesNone sameBehind
          have sameAttribute : piece.2 = other.2 := by
            calc
              piece.2 = ⟨piece.2.shortName, piece.2.value⟩ := rfl
              _ = ⟨other.2.shortName, other.2.value⟩ := by
                rw [String.toList_inj.mp sameType, String.toList_inj.mp sameValue]
              _ = other.2 := rfl
          rw [Prod.ext sameSeparator sameAttribute, induction later otherLater sameText]

/-! ## Names and their pieces -/

namespace RelativeName

variable {relativeName : RelativeName}

private theorem map_snd_pieces (relativeName : RelativeName) :
    relativeName.pieces.map Prod.snd = relativeName.attributes := by
  obtain ⟨attributes⟩ := relativeName
  cases attributes with
  | nil => rfl
  | cons first others => simp [pieces, Function.comp_def]

private theorem separates_of_mem_pieces {piece : Piece} (member : piece ∈ relativeName.pieces) :
    separates piece.1 = true := by
  obtain ⟨attributes⟩ := relativeName
  cases attributes with
  | nil => cases member
  | cons first others =>
      rcases List.mem_cons.mp member with rfl | later
      · rfl
      · obtain ⟨nameAttribute, _, rfl⟩ := List.mem_map.mp later
        rfl

end RelativeName

namespace DistinguishedName

variable {name : DistinguishedName}

private theorem exists_of_mem_pieces {piece : Piece} (member : piece ∈ name.pieces) :
    separates piece.1 = true ∧
      ∃ relativeName ∈ name.relativeNames, piece.2 ∈ relativeName.attributes := by
  obtain ⟨relativeName, inName, inRelativeName⟩ := List.mem_flatMap.mp member
  refine ⟨RelativeName.separates_of_mem_pieces inRelativeName, relativeName, inName, ?_⟩
  rw [← relativeName.map_snd_pieces]
  exact List.mem_map_of_mem inRelativeName

private theorem exists_mem_pieces {relativeName : RelativeName} {nameAttribute : NameAttribute}
    (inName : relativeName ∈ name.relativeNames)
    (inRelativeName : nameAttribute ∈ relativeName.attributes) :
    ∃ piece ∈ name.pieces, piece.2 = nameAttribute := by
  rw [← relativeName.map_snd_pieces] at inRelativeName
  obtain ⟨piece, member, same⟩ := List.mem_map.mp inRelativeName
  exact ⟨piece, List.mem_flatMap.mpr ⟨relativeName, inName, member⟩, same⟩

private theorem typed_iff_pieces :
    name.Typed ↔ (∀ relativeName ∈ name.relativeNames, relativeName.attributes ≠ []) ∧
      ∀ piece ∈ name.pieces, piece.Typed := by
  constructor
  · intro typed
    refine ⟨fun relativeName member => (typed relativeName member).occupied, ?_⟩
    intro piece member
    obtain ⟨separator, relativeName, inName, inRelativeName⟩ := exists_of_mem_pieces member
    exact ⟨separator, (typed relativeName inName).types _ inRelativeName⟩
  · rintro ⟨occupied, each⟩ relativeName inName
    refine ⟨occupied relativeName inName, ?_⟩
    intro nameAttribute inRelativeName
    obtain ⟨piece, member, rfl⟩ := exists_mem_pieces inName inRelativeName
    exact (each piece member).type

private theorem Typed.plain_pieces (typed : name.Typed) (hidesNone : name.HidesNone) :
    ∀ piece ∈ name.pieces, piece.Plain := by
  intro piece member
  obtain ⟨_, relativeName, inName, inRelativeName⟩ := exists_of_mem_pieces member
  exact ⟨(typed_iff_pieces.mp typed).2 piece member, hidesNone _ inName _ inRelativeName⟩

private theorem Typed.flatMap_text_pieces (typed : name.Typed) :
    name.pieces.flatMap Piece.text = name.slashedChars :=
  DistinguishedName.flatMap_text_pieces (typed_iff_pieces.mp typed).1

private theorem Typed.regroup_pieces (typed : name.Typed) :
    regroup name.pieces = ([], name.relativeNames) :=
  regroup_flatMap_pieces (typed_iff_pieces.mp typed).1

theorem Typed.slashed_eq_iff {other : DistinguishedName} (typed : name.Typed)
    (otherTyped : other.Typed) (hidesNone : name.HidesNone) (otherHidesNone : other.HidesNone) :
    name.slashed = other.slashed ↔ name.Same other := by
  constructor
  · intro same
    have sameText : name.pieces.flatMap Piece.text = other.pieces.flatMap Piece.text := by
      rw [typed.flatMap_text_pieces, otherTyped.flatMap_text_pieces]
      exact String.ofList_injective same
    have samePieces : name.pieces = other.pieces :=
      eq_of_flatMap_text (typed.plain_pieces hidesNone) (otherTyped.plain_pieces otherHidesNone)
        sameText
    have sameGroups := congrArg regroup samePieces
    rw [typed.regroup_pieces, otherTyped.regroup_pieces] at sameGroups
    exact (Prod.mk.inj sameGroups).2
  · intro same
    rw [slashed, slashed, slashedChars, slashedChars, same]

end DistinguishedName

/-! ## Cutting a name at a hidden attribute -/

private theorem regroup_fst_eq_nil_iff {pieces : List Piece} :
    (regroup pieces).1 = [] ↔ ∀ piece ∈ pieces.head?, piece.1 = '/' := by
  cases pieces with
  | nil => simp [regroup]
  | cons piece pieces =>
      rw [regroup]
      split
      · next slash => simp [slash]
      · next noSlash => simp [noSlash]

private theorem exists_pieces_eq {pieces : List Piece} (each : ∀ piece ∈ pieces, piece.Typed)
    (begins : ∀ piece ∈ pieces.head?, piece.1 = '/') :
    ∃ name : DistinguishedName, name.pieces = pieces ∧ name.Typed := by
  have grouped := flatMap_pieces_regroup fun piece member => (each piece member).separator
  rw [regroup_fst_eq_nil_iff.mpr begins] at grouped
  have same : (⟨(regroup pieces).2, []⟩ : DistinguishedName).pieces = pieces := grouped
  exact ⟨_, same, DistinguishedName.typed_iff_pieces.mpr
    ⟨occupied_of_regroup, fun piece member => each piece (same ▸ member)⟩⟩

namespace Piece

variable {piece : Piece} {separator : Char} {content : Octets} {before after : List Char}

/-- The two pieces that a piece is cut into at an attribute that its value hides. -/
def cut (piece : Piece) (separator : Char) (content : Octets) (before after : List Char) :
    List Piece :=
  [(piece.1, ⟨piece.2.shortName, String.ofList before⟩),
    (separator, ⟨typeText content, String.ofList after⟩)]

private theorem typed_of_mem_cut (typed : piece.Typed) (isSeparator : separates separator = true) :
    ∀ part ∈ piece.cut separator content before after, part.Typed := by
  intro part member
  rcases List.mem_cons.mp member with rfl | last
  · exact ⟨typed.separator, typed.type⟩
  · obtain rfl := List.mem_singleton.mp last
    exact ⟨isSeparator, content, rfl⟩

private theorem flatMap_text_cut
    (whole : before ++ attributeStart separator content ++ after = piece.2.value.toList) :
    (piece.cut separator content before after).flatMap text = piece.text := by
  rw [text, NameAttribute.render, id, ← whole]
  simp [cut, text, NameAttribute.render, attributeStart]

end Piece

namespace DistinguishedName

variable {name : DistinguishedName}

/-- A name that hides an attribute has the text of the name that is cut there. -/
theorem Typed.exists_other (typed : name.Typed) (hides : ¬ name.HidesNone) :
    ∃ other : DistinguishedName, other.Typed ∧ other.slashed = name.slashed ∧
      ¬ other.Same name := by
  simp only [HidesNone, not_forall, not_not] at hides
  obtain ⟨relativeName, inName, nameAttribute, inRelativeName, separator, content, isSeparator,
    before, after, whole⟩ := hides
  obtain ⟨piece, member, rfl⟩ := exists_mem_pieces inName inRelativeName
  obtain ⟨front, back, pieces⟩ := List.append_of_mem member
  have each : ∀ piece ∈ name.pieces, piece.Typed := (typed_iff_pieces.mp typed).2
  have begins : ∀ piece ∈ name.pieces.head?, piece.1 = '/' := by
    rw [← regroup_fst_eq_nil_iff, typed.regroup_pieces]
  rw [pieces] at each begins
  obtain ⟨frontTyped, pieceTyped, backTyped⟩ :
      (∀ piece ∈ front, piece.Typed) ∧ piece.Typed ∧ ∀ piece ∈ back, piece.Typed := by
    rwa [List.forall_mem_append, List.forall_mem_cons] at each
  have cutTyped : ∀ part ∈ front ++ (piece.cut separator content before after ++ back),
      part.Typed := by
    rw [List.forall_mem_append, List.forall_mem_append]
    exact ⟨frontTyped, Piece.typed_of_mem_cut pieceTyped isSeparator, backTyped⟩
  have cutBegins : ∀ part ∈
      (front ++ (piece.cut separator content before after ++ back)).head?, part.1 = '/' := by
    cases front with
    | nil =>
        rintro _ ⟨⟩
        exact begins piece rfl
    | cons first front => exact begins
  obtain ⟨other, otherPieces, otherTyped⟩ := exists_pieces_eq cutTyped cutBegins
  refine ⟨other, otherTyped, ?_, ?_⟩
  · have sameText : other.pieces.flatMap Piece.text = name.pieces.flatMap Piece.text := by
      rw [otherPieces, pieces, List.flatMap_append, List.flatMap_append,
        Piece.flatMap_text_cut whole, List.flatMap_append, List.flatMap_cons]
    rw [slashed, slashed, ← typed.flatMap_text_pieces, ← otherTyped.flatMap_text_pieces, sameText]
  · intro same
    -- The name that is cut has one attribute more.
    have samePieces : other.pieces = name.pieces := congrArg (List.flatMap _) same
    rw [otherPieces, pieces] at samePieces
    have lengths := congrArg List.length samePieces
    simp [Piece.cut] at lengths

end DistinguishedName

/-! ## Small examples -/

namespace Sample

def commonNamed (texts : List String) : DistinguishedName where
  relativeNames := texts.map (RelativeName.single "CN")
  encoding := nameOf (texts.map fun text => [(commonNameType, text)])

private theorem hidesNone_commonNamed {texts : List String}
    (noEquality : ∀ text ∈ texts, '=' ∉ text.toList) : (commonNamed texts).HidesNone := by
  intro relativeName inName nameAttribute inRelativeName
  obtain ⟨text, member, rfl⟩ := List.mem_map.mp inName
  obtain rfl := List.mem_singleton.mp inRelativeName
  exact not_hidesAttribute_of_notMem (noEquality text member)

end Sample

/-! ## What the slash form tells -/

namespace DistinguishedName

/-- Names that are read and hide no attribute are told by their slash form.  One that hides an
attribute shares its slash form with another name of attribute types and values. -/
theorem slashed_identifies {leftInput rightInput leftRest rightRest : Octets}
    {left right : DistinguishedName} (leftRead : read leftInput = some (left, leftRest))
    (rightRead : read rightInput = some (right, rightRest)) :
    (left.HidesNone → right.HidesNone → (left.slashed = right.slashed ↔ left.Same right)) ∧
    (¬ left.HidesNone → ∃ other : DistinguishedName,
      other.Typed ∧ other.slashed = left.slashed ∧ ¬ other.Same left) := by
  have leftTyped := typed_of_read leftRead
  have rightTyped := typed_of_read rightRead
  exact ⟨leftTyped.slashed_eq_iff rightTyped, leftTyped.exists_other⟩

/-- The common name `host/a.org` is told from the two common names `host` and `a.org`, and the
common name `a/CN=b` hides an attribute and has the slash form of another name. -/
theorem slashed_identifies_of_host :
    let host := Sample.commonNamed ["host/a.org"]
    let parts := Sample.commonNamed ["host", "a.org"]
    let hidden := Sample.commonNamed ["a/CN=b"]
    read host.encoding = some (host, []) ∧ read parts.encoding = some (parts, []) ∧
      read hidden.encoding = some (hidden, []) ∧ host.HidesNone ∧ parts.HidesNone ∧
      host.slashed ≠ parts.slashed ∧ ¬ hidden.HidesNone ∧
      ∃ other : DistinguishedName,
        other.Typed ∧ other.slashed = "/CN=a/CN=b" ∧ ¬ other.Same hidden := by
  intro host parts hidden
  have hostRead : read host.encoding = some (host, []) := by decide +kernel
  have partsRead : read parts.encoding = some (parts, []) := by decide +kernel
  have hiddenRead : read hidden.encoding = some (hidden, []) := by decide +kernel
  have hostHidesNone : host.HidesNone := Sample.hidesNone_commonNamed (by decide)
  have partsHideNone : parts.HidesNone := Sample.hidesNone_commonNamed (by decide)
  have hides : ¬ hidden.HidesNone := by
    intro hidesNone
    apply hidesNone (.single "CN" "a/CN=b") (by decide) ⟨"CN", "a/CN=b"⟩ (by decide)
    exact ⟨'/', Sample.commonNameType, rfl, ['a'], ['b'], by decide +kernel⟩
  have told := (slashed_identifies hostRead partsRead).1 hostHidesNone partsHideNone
  refine ⟨hostRead, partsRead, hiddenRead, hostHidesNone, partsHideNone, ?_, hides,
    (slashed_identifies hiddenRead partsRead).2 hides⟩
  rw [Ne, told]
  decide +kernel

/-- A common name that hides another one has the slash form of the two. -/
theorem slashed_eq_of_hidden :
    let whole := Sample.commonNamed ["a/CN=b"]
    let parts := Sample.commonNamed ["a", "b"]
    read whole.encoding = some (whole, []) ∧ read parts.encoding = some (parts, []) ∧
      whole.slashed = parts.slashed ∧ ¬ whole.Same parts := by
  decide +kernel

end DistinguishedName

end GridSecurity
