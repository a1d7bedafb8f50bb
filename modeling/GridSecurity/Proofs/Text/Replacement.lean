import GridSecurity.Proofs.Text.Utf8
import Mathlib.Data.List.Infix

/-!
# Reading with replacement

Octets that encode characters are read as these characters.  Where no character is encoded,
the longest part that could begin one is left out, or else a single octet, and a replacement
character stands in its place.  `ReadsAs` says so without regard to how octets are read, and
the replacing reader gives exactly the text that it relates to the octets.
-/

namespace GridSecurity.Utf8

/-! ## The forms of encodings -/

/-- The encodings of characters: one octet, or a leading octet and those that may follow it. -/
inductive Form : Char → Octets → Prop
  | one {first : UInt8} {code : Nat} : first.toNat = code → code < 0x80 →
      Form (Char.ofNat code) [first]
  | two {first second : UInt8} {code : Nat} : 0xc2 ≤ first.toNat → first.toNat ≤ 0xdf →
      isContinuation second = true →
      (first.toNat - 0xc0) * 64 + (second.toNat - 0x80) = code →
      Form (Char.ofNat code) [first, second]
  | three {first second third : UInt8} {code : Nat} : 0xe0 ≤ first.toNat →
      first.toNat ≤ 0xef → isSecondOfThree first second = true →
      isContinuation third = true →
      (first.toNat - 0xe0) * 4096 + (second.toNat - 0x80) * 64 + (third.toNat - 0x80) = code →
      Form (Char.ofNat code) [first, second, third]
  | four {first second third fourth : UInt8} {code : Nat} : 0xf0 ≤ first.toNat →
      first.toNat ≤ 0xf4 → isSecondOfFour first second = true →
      isContinuation third = true → isContinuation fourth = true →
      (first.toNat - 0xf0) * 262144 + (second.toNat - 0x80) * 4096
        + (third.toNat - 0x80) * 64 + (fourth.toNat - 0x80) = code →
      Form (Char.ofNat code) [first, second, third, fourth]

private theorem isSecondOfThree_of_bounds {first second : UInt8} (low : 0x80 ≤ second.toNat)
    (high : second.toNat ≤ 0xbf) (longest : first.toNat = 0xe0 → 0xa0 ≤ second.toNat)
    (noSurrogate : first.toNat = 0xed → second.toNat ≤ 0x9f) :
    isSecondOfThree first second = true := by
  unfold isSecondOfThree
  dsimp only
  split
  · next least =>
      have leastBound := longest (congrArg UInt8.toNat (beq_iff_eq.mp least))
      simp [leastBound, high]
  · split
    · next beforeSurrogates =>
        have surrogateBound := noSurrogate (congrArg UInt8.toNat (beq_iff_eq.mp beforeSurrogates))
        simp [surrogateBound, low]
    · exact isContinuation_iff.mpr ⟨low, high⟩

private theorem isSecondOfFour_of_bounds {first second : UInt8} (low : 0x80 ≤ second.toNat)
    (high : second.toNat ≤ 0xbf) (longest : first.toNat = 0xf0 → 0x90 ≤ second.toNat)
    (noLarger : first.toNat = 0xf4 → second.toNat ≤ 0x8f) :
    isSecondOfFour first second = true := by
  unfold isSecondOfFour
  dsimp only
  split
  · next least =>
      have leastBound := longest (congrArg UInt8.toNat (beq_iff_eq.mp least))
      simp [leastBound, high]
  · split
    · next greatest =>
        have greatestBound := noLarger (congrArg UInt8.toNat (beq_iff_eq.mp greatest))
        simp [greatestBound, low]
    · exact isContinuation_iff.mpr ⟨low, high⟩

private theorem toNat_octet (code : Nat) (bounded : code < 0x100) :
    (UInt8.ofNat code).toNat = code := by
  rw [UInt8.toNat_ofNat']
  exact Nat.mod_eq_of_lt bounded

private theorem form_encodeChar (character : Char) : Form character (encodeChar character) := by
  have bounded : character.toNat < 0xd800 ∨
      0xdfff < character.toNat ∧ character.toNat < 0x110000 := character.valid
  have same : Char.ofNat character.toNat = character := Char.ofNat_toNat character
  unfold encodeChar
  dsimp only
  generalize character.toNat = code at bounded same
  subst same
  have last := toNat_octet (0x80 + code % 64) (by omega)
  have beforeLast := toNat_octet (0x80 + code / 64 % 64) (by omega)
  split
  · next isOne => exact .one (toNat_octet code (by omega)) isOne
  · split
    · next notOne isTwo =>
        have lead := toNat_octet (0xc0 + code / 64) (by omega)
        apply Form.two
        · omega
        · omega
        · exact isContinuation_iff.mpr (by omega)
        · omega
    · split
      · next notTwo isThree =>
          have lead := toNat_octet (0xe0 + code / 4096) (by omega)
          apply Form.three
          · omega
          · omega
          · apply isSecondOfThree_of_bounds <;> omega
          · exact isContinuation_iff.mpr (by omega)
          · omega
      · next notThree =>
          have lead := toNat_octet (0xf0 + code / 262144) (by omega)
          have afterLead := toNat_octet (0x80 + code / 4096 % 64) (by omega)
          apply Form.four
          · omega
          · omega
          · apply isSecondOfFour_of_bounds <;> omega
          · exact isContinuation_iff.mpr (by omega)
          · exact isContinuation_iff.mpr (by omega)
          · omega

private theorem exists_form (character : Char) :
    ∃ first tail, encodeChar character = first :: tail ∧ Form character (first :: tail) := by
  have form := form_encodeChar character
  cases encoded : encodeChar character with
  | nil =>
      rw [encoded] at form
      cases form
  | cons first tail =>
      rw [encoded] at form
      exact ⟨first, tail, rfl, form⟩

/-- The encoding of a character is read in one step. -/
theorem Form.step_eq {character : Char} {first : UInt8} {tail : Octets}
    (form : Form character (first :: tail)) (rest : Octets) :
    step first (tail ++ rest) = (some character, tail.length) := by
  cases form with
  | one value small =>
      subst value
      simp [step, small]
  | two low high continues value =>
      subst value
      simp [step, low, high, continues, show ¬ first.toNat < 0x80 by omega]
  | three low high follows continues value =>
      subst value
      simp [step, low, high, follows, continues, show ¬ first.toNat < 0x80 by omega,
        show ¬ first.toNat ≤ 0xdf by omega]
  | four low high follows continues ends value =>
      subst value
      simp [step, low, high, follows, continues, ends, show ¬ first.toNat < 0x80 by omega,
        show ¬ first.toNat ≤ 0xdf by omega, show ¬ first.toNat ≤ 0xef by omega]

/-- A step takes all octets in front that could begin the encoding of a character. -/
theorem Form.length_le_taken {character : Char} {octets part : Octets}
    (form : Form character octets) (within : part <+: octets) {lead : UInt8}
    {following : Octets} (infront : part <+: lead :: following) :
    part.length ≤ (step lead following).2 + 1 := by
  obtain ⟨rest, joined⟩ := infront
  have listed := (List.mem_inits part octets).mpr within
  -- Nothing has to be shown of parts without a second octet.
  cases form with
  | one =>
      simp only [List.inits, List.mem_cons, List.map_cons, List.map_nil, List.not_mem_nil,
        or_false] at listed
      rcases listed with rfl | rfl
      · simp
      · simp
  | two low high continues =>
      simp only [List.inits, List.mem_cons, List.map_cons, List.map_nil, List.not_mem_nil,
        or_false] at listed
      rcases listed with rfl | rfl | rfl
      · simp
      · simp
      · obtain ⟨rfl, rfl⟩ := List.cons.inj joined
        unfold step
        grind
  | three low high follows continues =>
      simp only [List.inits, List.mem_cons, List.map_cons, List.map_nil, List.not_mem_nil,
        or_false] at listed
      rcases listed with rfl | rfl | rfl | rfl
      · simp
      · simp
      all_goals
        obtain ⟨rfl, rfl⟩ := List.cons.inj joined
        unfold step
        grind
  | four low high follows continues ends =>
      simp only [List.inits, List.mem_cons, List.map_cons, List.map_nil, List.not_mem_nil,
        or_false] at listed
      rcases listed with rfl | rfl | rfl | rfl | rfl
      · simp
      · simp
      all_goals
        obtain ⟨rfl, rfl⟩ := List.cons.inj joined
        unfold step
        grind

/-! ## Octets that encode no character -/

/-- Octets that stand in front of others where no character is encoded: as many as could
begin an encoding, or a single one that begins none. -/
structure Broken (broken rest : Octets) : Prop where
  unreadable : ∀ character, ¬ encodeChar character <+: broken ++ rest
  begins : broken.length = 1 ∨ broken ≠ [] ∧ ∃ character, broken <+: encodeChar character
  longest : ∀ part character, part <+: broken ++ rest → part <+: encodeChar character →
    part.length ≤ broken.length

private theorem Broken.length_pos {broken rest : Octets} (isBroken : Broken broken rest) :
    0 < broken.length := by
  rcases isBroken.begins with single | ⟨nonempty, _⟩
  · omega
  · exact List.length_pos_iff.mpr nonempty

private theorem Broken.length_le {broken rest other otherRest : Octets}
    (isBroken : Broken broken rest) (otherBroken : Broken other otherRest)
    (same : broken ++ rest = other ++ otherRest) : other.length ≤ broken.length := by
  rcases otherBroken.begins with single | ⟨_, character, begins⟩
  · rw [single]
    exact isBroken.length_pos
  · apply isBroken.longest other character _ begins
    rw [same]
    exact List.prefix_append other otherRest

/-- Octets are broken in one way only. -/
theorem Broken.unique {broken rest other otherRest : Octets}
    (isBroken : Broken broken rest) (otherBroken : Broken other otherRest)
    (same : broken ++ rest = other ++ otherRest) : broken = other ∧ rest = otherRest := by
  apply List.append_inj same
  exact Nat.le_antisymm (otherBroken.length_le isBroken same.symm)
    (isBroken.length_le otherBroken same)

private theorem step_of_encodeChar_prefix {character : Char} {first : UInt8} {following : Octets}
    (infront : encodeChar character <+: first :: following) :
    (step first following).1 = some character := by
  obtain ⟨rest, joined⟩ := infront
  obtain ⟨lead, tail, encoded, form⟩ := exists_form character
  rw [encoded] at joined
  obtain ⟨rfl, rfl⟩ := List.cons.inj joined
  exact congrArg Prod.fst (form.step_eq rest)

private theorem isContinuation_least : isContinuation 0x80 = true := rfl

/-- The first octets of an encoding of three octets begin one. -/
private theorem begins_of_three {first second : UInt8} (low : 0xe0 ≤ first.toNat)
    (high : first.toNat ≤ 0xef) (follows : isSecondOfThree first second = true) :
    ∃ character, [first, second] <+: encodeChar character :=
  ⟨_, [0x80], (encodeChar_three low high follows isContinuation_least).symm⟩

private theorem begins_of_four {first second third : UInt8} (low : 0xf0 ≤ first.toNat)
    (high : first.toNat ≤ 0xf4) (follows : isSecondOfFour first second = true)
    (continues : isContinuation third = true) :
    ∃ character, [first, second, third] <+: encodeChar character :=
  ⟨_, [0x80], (encodeChar_four low high follows continues isContinuation_least).symm⟩

private theorem begins_of_two_of_four {first second : UInt8} (low : 0xf0 ≤ first.toNat)
    (high : first.toNat ≤ 0xf4) (follows : isSecondOfFour first second = true) :
    ∃ character, [first, second] <+: encodeChar character := by
  obtain ⟨character, within⟩ := begins_of_four low high follows isContinuation_least
  exact ⟨character, (List.prefix_append [first, second] [0x80]).trans within⟩

/-- What a step without a character takes could begin an encoding if it takes more than the
first octet. -/
theorem begins_of_step {first : UInt8} {following : Octets} {taken : Nat}
    (stepped : step first following = (none, taken)) (several : 0 < taken) :
    ∃ character, first :: following.take taken <+: encodeChar character := by
  revert stepped several
  -- The other cases give a character or take the first octet only.
  fun_cases step first following with
  | case6 _ _ _ three second follows =>
      rintro ⟨⟩ _
      simp only [Bool.and_eq_true, decide_eq_true_eq] at three
      exact begins_of_three three.1 three.2 follows
  | case7 _ _ _ three second follows =>
      rintro ⟨⟩ _
      simp only [Bool.and_eq_true, decide_eq_true_eq] at three
      exact begins_of_three three.1 three.2 follows
  | case11 _ _ _ _ four second follows third continues =>
      rintro ⟨⟩ _
      simp only [Bool.and_eq_true, decide_eq_true_eq] at four
      exact begins_of_four four.1 four.2 follows continues
  | case12 _ _ _ _ four second follows third continues =>
      rintro ⟨⟩ _
      simp only [Bool.and_eq_true, decide_eq_true_eq] at four
      exact begins_of_four four.1 four.2 follows continues
  | case13 _ _ _ _ four second follows =>
      rintro ⟨⟩ _
      simp only [Bool.and_eq_true, decide_eq_true_eq] at four
      exact begins_of_two_of_four four.1 four.2 follows
  | case14 _ _ _ _ four second follows =>
      rintro ⟨⟩ _
      simp only [Bool.and_eq_true, decide_eq_true_eq] at four
      exact begins_of_two_of_four four.1 four.2 follows
  | _ =>
      intro stepped several
      cases stepped <;> cases several

private theorem broken_of_step {first : UInt8} {following : Octets} {taken : Nat}
    (stepped : step first following = (none, taken)) :
    Broken (first :: following.take taken) (following.drop taken) := by
  have joined : first :: following.take taken ++ following.drop taken = first :: following := by
    simp
  constructor
  · intro character infront
    rw [joined] at infront
    have found := step_of_encodeChar_prefix infront
    rw [stepped] at found
    cases found
  · rcases Nat.eq_zero_or_pos taken with rfl | several
    · exact .inl rfl
    · exact .inr ⟨List.cons_ne_nil _ _, begins_of_step stepped several⟩
  · intro part character infront within
    rw [joined] at infront
    have bounded := (form_encodeChar character).length_le_taken within infront
    have short := infront.length_le
    rw [stepped] at bounded
    simp only [List.length_cons, List.length_take] at bounded short ⊢
    omega

/-- Where octets are broken a step gives no character and takes the broken ones. -/
theorem Broken.exists_step {broken rest : Octets} (isBroken : Broken broken rest) :
    ∃ first following, broken ++ rest = first :: following ∧
      (step first following).1 = none ∧ following.drop (step first following).2 = rest := by
  cases whole : broken ++ rest with
  | nil =>
      obtain ⟨rfl, rfl⟩ := List.append_eq_nil_iff.mp whole
      exact absurd isBroken.length_pos (Nat.lt_irrefl 0)
  | cons first following =>
      refine ⟨first, following, rfl, ?_⟩
      cases stepped : step first following with
      | mk character? taken =>
          cases character? with
          | none =>
              have same : broken ++ rest =
                  first :: following.take taken ++ following.drop taken := by
                rw [whole]
                simp
              exact ⟨rfl, (isBroken.unique (broken_of_step stepped) same).2.symm⟩
          | some character =>
              have infront : encodeChar character <+: broken ++ rest := by
                rw [whole, eq_of_step stepped]
                exact List.prefix_append _ _
              exact absurd infront (isBroken.unreadable character)

/-! ## Octets as a text -/

/-- Octets are read as the characters that they encode, and with a replacement character in
the place of octets that encode none. -/
inductive ReadsAs : Octets → List Char → Prop
  | nil : ReadsAs [] []
  | character (character : Char) {rest : Octets} {text : List Char} :
      ReadsAs rest text → ReadsAs (encodeChar character ++ rest) (character :: text)
  | replaced {broken rest : Octets} {text : List Char} : Broken broken rest →
      ReadsAs rest text → ReadsAs (broken ++ rest) (replacement :: text)

private theorem decodeReplacing_cons (first : UInt8) (following : Octets) :
    decodeReplacing (first :: following) =
      (step first following).1.getD replacement ::
        decodeReplacing (following.drop (step first following).2) := by
  rw [decodeReplacing, steps_cons, List.map_cons]
  rfl

theorem readsAs_decodeReplacing (octets : Octets) : ReadsAs octets (decodeReplacing octets) := by
  induction octets using steps.induct with
  | case1 =>
      rw [decodeReplacing, steps]
      exact .nil
  | case2 first following character? taken stepped induction =>
      rw [decodeReplacing_cons, stepped]
      cases character? with
      | none =>
          have whole : first :: following =
              first :: following.take taken ++ following.drop taken := by
            simp
          rw [whole]
          exact .replaced (broken_of_step stepped) induction
      | some character =>
          rw [eq_of_step stepped]
          exact .character character induction

/-- The replacing reader gives the one text that octets are read as. -/
theorem decodeReplacing_eq_iff {octets : Octets} {text : List Char} :
    decodeReplacing octets = text ↔ ReadsAs octets text := by
  constructor
  · rintro rfl
    exact readsAs_decodeReplacing octets
  · intro reads
    induction reads with
    | nil => rw [decodeReplacing, steps]; rfl
    | @character character rest text _ induction =>
        obtain ⟨first, tail, encoded, form⟩ := exists_form character
        rw [encoded, List.cons_append, decodeReplacing_cons, form.step_eq, List.drop_left,
          induction]
        rfl
    | replaced isBroken _ induction =>
        obtain ⟨first, following, whole, none, rest⟩ := isBroken.exists_step
        rw [whole, decodeReplacing_cons, none, rest, induction]
        rfl

theorem readsAs_encode (characters : List Char) : ReadsAs (encode characters) characters := by
  induction characters with
  | nil => exact .nil
  | cons character characters induction => exact .character character induction

/-- The encoding of a text is read as that text. -/
theorem decodeReplacing_of_toUTF8 {octets : Octets} {text : String}
    (encoded : octets.toByteArray = text.toUTF8) : decodeReplacing octets = text.toList := by
  rw [← toByteArray_ofText] at encoded
  obtain rfl := List.toByteArray_inj.mp encoded
  exact decodeReplacing_eq_iff.mpr (readsAs_encode text.toList)

end GridSecurity.Utf8
