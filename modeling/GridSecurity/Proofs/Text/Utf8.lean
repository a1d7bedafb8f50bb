import GridSecurity.Text.Utf8

/-!
# Texts and their encodings

The replacing reader gives a replacement character wherever octets encode no
character.  So a text without that character is read from its own encoding only.
-/

namespace GridSecurity.Utf8

/-! ## Encoding -/

/-- The encoding of a character is the one of strings, where the leading octet
takes a remainder that the range of characters makes needless. -/
theorem encodeChar_eq_utf8EncodeChar (character : Char) :
    encodeChar character = String.utf8EncodeChar character := by
  have bounded : character.toNat < 0x110000 := by
    rcases character.valid with low | ⟨_, high⟩
    · exact Nat.lt_trans low (by decide)
    · exact high
  have same : character.val.toNat = character.toNat := rfl
  simp only [encodeChar, String.utf8EncodeChar, same, Nat.le_iff_lt_add_one,
    Nat.reduceAdd, Nat.add_comm 0x80]
  generalize character.toNat = code at bounded
  by_cases one : code < 0x80
  · rw [if_pos one, if_pos one]
  · by_cases two : code < 0x800
    · have lead : code / 64 % 0x20 = code / 64 := by omega
      simp only [if_neg one, if_pos two, lead, Nat.add_comm 0xc0]
    · by_cases three : code < 0x10000
      · have lead : code / 4096 % 0x10 = code / 4096 := by omega
        simp only [if_neg one, if_neg two, if_pos three, lead, Nat.add_comm 0xe0]
      · have lead : code / 262144 % 0x08 = code / 262144 := by omega
        simp only [if_neg one, if_neg two, if_neg three, lead, Nat.add_comm 0xf0]

/-- The encoding of a text is the one of strings. -/
theorem toByteArray_ofText (text : String) : (ofText text).toByteArray = text.toUTF8 := by
  have characterwise : encodeChar = String.utf8EncodeChar :=
    funext encodeChar_eq_utf8EncodeChar
  rw [ofText, encode, characterwise, String.toUTF8_eq_toByteArray]
  exact String.utf8Encode_toList

theorem ofText_inj {left right : String} : ofText left = ofText right ↔ left = right := by
  constructor
  · intro same
    have bytes := congrArg List.toByteArray same
    rw [toByteArray_ofText, toByteArray_ofText] at bytes
    exact String.toByteArray_inj.mp bytes
  · rintro rfl
    rfl

private theorem toNat_charOfNat {code : Nat} (valid : code.isValidChar) :
    (Char.ofNat code).toNat = code := by
  rw [Char.ofNat, dif_pos valid]
  rfl

theorem isContinuation_iff {octet : UInt8} :
    isContinuation octet = true ↔ 0x80 ≤ octet.toNat ∧ octet.toNat ≤ 0xbf := by
  simp [isContinuation]

private theorem octet_eq (octet : UInt8) {code : Nat} (same : code = octet.toNat) :
    UInt8.ofNat code = octet := by
  rw [same, UInt8.ofNat_toNat]

/-! ## What the value of octets is encoded by -/

private theorem encodeChar_one {first : UInt8} (small : first.toNat < 0x80) :
    encodeChar (Char.ofNat first.toNat) = [first] := by
  have valid : first.toNat.isValidChar := .inl (by omega)
  simp only [encodeChar, toNat_charOfNat valid, if_pos small, UInt8.ofNat_toNat]

private theorem encodeChar_two {first second : UInt8} (low : 0xc2 ≤ first.toNat)
    (high : first.toNat ≤ 0xdf) (continues : isContinuation second = true) :
    encodeChar (Char.ofNat ((first.toNat - 0xc0) * 64 + (second.toNat - 0x80))) =
      [first, second] := by
  obtain ⟨secondLow, secondHigh⟩ := isContinuation_iff.mp continues
  generalize computed : (first.toNat - 0xc0) * 64 + (second.toNat - 0x80) = code
  have valid : code.isValidChar := .inl (by omega)
  have notOne : ¬ code < 0x80 := by omega
  have isTwo : code < 0x800 := by omega
  simp only [encodeChar, toNat_charOfNat valid, if_neg notOne, if_pos isTwo]
  rw [octet_eq first (by omega), octet_eq second (by omega)]

private theorem isSecondOfThree_bounds {first second : UInt8}
    (follows : isSecondOfThree first second = true) :
    0x80 ≤ second.toNat ∧ second.toNat ≤ 0xbf ∧
      (first.toNat = 0xe0 → 0xa0 ≤ second.toNat) ∧
      (first.toNat = 0xed → second.toNat ≤ 0x9f) := by
  unfold isSecondOfThree at follows
  dsimp only at follows
  split at follows
  · next least =>
      obtain rfl := beq_iff_eq.mp least
      simp only [Bool.and_eq_true, decide_eq_true_eq] at follows
      exact ⟨by omega, follows.2, fun _ => follows.1, fun other => absurd other (by decide)⟩
  · next notLeast =>
      split at follows
      · next beforeSurrogates =>
          obtain rfl := beq_iff_eq.mp beforeSurrogates
          simp only [Bool.and_eq_true, decide_eq_true_eq] at follows
          exact ⟨follows.1, by omega, fun other => absurd other (by decide), fun _ => follows.2⟩
      · next notBefore =>
          obtain ⟨low, high⟩ := isContinuation_iff.mp follows
          refine ⟨low, high, fun same => ?_, fun same => ?_⟩
          · exact absurd (beq_iff_eq.mpr (UInt8.toNat_inj.mp same)) notLeast
          · exact absurd (beq_iff_eq.mpr (UInt8.toNat_inj.mp same)) notBefore

theorem encodeChar_three {first second third : UInt8} (low : 0xe0 ≤ first.toNat)
    (high : first.toNat ≤ 0xef) (follows : isSecondOfThree first second = true)
    (continues : isContinuation third = true) :
    encodeChar (Char.ofNat ((first.toNat - 0xe0) * 4096 + (second.toNat - 0x80) * 64
      + (third.toNat - 0x80))) = [first, second, third] := by
  obtain ⟨secondLow, secondHigh, longest, noSurrogate⟩ := isSecondOfThree_bounds follows
  obtain ⟨thirdLow, thirdHigh⟩ := isContinuation_iff.mp continues
  generalize computed : (first.toNat - 0xe0) * 4096 + (second.toNat - 0x80) * 64
    + (third.toNat - 0x80) = code
  have valid : code.isValidChar := by
    unfold Nat.isValidChar
    omega
  have notTwo : ¬ code < 0x800 := by omega
  have notOne : ¬ code < 0x80 := by omega
  have isThree : code < 0x10000 := by omega
  simp only [encodeChar, toNat_charOfNat valid, if_neg notOne, if_neg notTwo,
    if_pos isThree]
  rw [octet_eq first (by omega), octet_eq second (by omega),
    octet_eq third (by omega)]

private theorem isSecondOfFour_bounds {first second : UInt8}
    (follows : isSecondOfFour first second = true) :
    0x80 ≤ second.toNat ∧ second.toNat ≤ 0xbf ∧
      (first.toNat = 0xf0 → 0x90 ≤ second.toNat) ∧
      (first.toNat = 0xf4 → second.toNat ≤ 0x8f) := by
  unfold isSecondOfFour at follows
  dsimp only at follows
  split at follows
  · next least =>
      obtain rfl := beq_iff_eq.mp least
      simp only [Bool.and_eq_true, decide_eq_true_eq] at follows
      exact ⟨by omega, follows.2, fun _ => follows.1, fun other => absurd other (by decide)⟩
  · next notLeast =>
      split at follows
      · next greatest =>
          obtain rfl := beq_iff_eq.mp greatest
          simp only [Bool.and_eq_true, decide_eq_true_eq] at follows
          exact ⟨follows.1, by omega, fun other => absurd other (by decide), fun _ => follows.2⟩
      · next notGreatest =>
          obtain ⟨low, high⟩ := isContinuation_iff.mp follows
          refine ⟨low, high, fun same => ?_, fun same => ?_⟩
          · exact absurd (beq_iff_eq.mpr (UInt8.toNat_inj.mp same)) notLeast
          · exact absurd (beq_iff_eq.mpr (UInt8.toNat_inj.mp same)) notGreatest

theorem encodeChar_four {first second third fourth : UInt8} (low : 0xf0 ≤ first.toNat)
    (high : first.toNat ≤ 0xf4) (follows : isSecondOfFour first second = true)
    (continues : isContinuation third = true) (ends : isContinuation fourth = true) :
    encodeChar (Char.ofNat ((first.toNat - 0xf0) * 262144 + (second.toNat - 0x80) * 4096
      + (third.toNat - 0x80) * 64 + (fourth.toNat - 0x80))) =
        [first, second, third, fourth] := by
  obtain ⟨secondLow, secondHigh, longest, noLarger⟩ := isSecondOfFour_bounds follows
  obtain ⟨thirdLow, thirdHigh⟩ := isContinuation_iff.mp continues
  obtain ⟨fourthLow, fourthHigh⟩ := isContinuation_iff.mp ends
  generalize computed : (first.toNat - 0xf0) * 262144 + (second.toNat - 0x80) * 4096
      + (third.toNat - 0x80) * 64 + (fourth.toNat - 0x80) = code
  have valid : code.isValidChar := by
    unfold Nat.isValidChar
    omega
  have notThree : ¬ code < 0x10000 := by omega
  have notTwo : ¬ code < 0x800 := by omega
  have notOne : ¬ code < 0x80 := by omega
  simp only [encodeChar, toNat_charOfNat valid, if_neg notOne, if_neg notTwo,
    if_neg notThree]
  rw [octet_eq first (by omega), octet_eq second (by omega),
    octet_eq third (by omega), octet_eq fourth (by omega)]

/-- A step that gives a character takes the octets that encode it. -/
theorem eq_of_step {first : UInt8} {following : Octets} {character : Char} {taken : Nat}
    (stepped : step first following = (some character, taken)) :
    first :: following = encodeChar character ++ following.drop taken := by
  revert stepped
  -- Four of the cases give a character, one for each number of octets.
  fun_cases step first following with
  | case1 _ lead one =>
      intro stepped
      obtain ⟨value, rfl⟩ := Prod.mk.inj stepped
      obtain rfl := Option.some.inj value
      rw [encodeChar_one one]
      rfl
  | case2 lead _ two second tail continues =>
      intro stepped
      obtain ⟨value, rfl⟩ := Prod.mk.inj stepped
      obtain rfl := Option.some.inj value
      simp only [Bool.and_eq_true, decide_eq_true_eq] at two
      rw [encodeChar_two two.1 two.2 continues]
      rfl
  | case5 lead _ _ three second follows third tail continues =>
      intro stepped
      obtain ⟨value, rfl⟩ := Prod.mk.inj stepped
      obtain rfl := Option.some.inj value
      simp only [Bool.and_eq_true, decide_eq_true_eq] at three
      rw [encodeChar_three three.1 three.2 follows continues]
      rfl
  | case10 lead _ _ _ four second follows third continues fourth tail ends =>
      intro stepped
      obtain ⟨value, rfl⟩ := Prod.mk.inj stepped
      obtain rfl := Option.some.inj value
      simp only [Bool.and_eq_true, decide_eq_true_eq] at four
      rw [encodeChar_four four.1 four.2 follows continues ends]
      rfl
  | _ =>
      intro stepped
      cases stepped

/-! ## Reading with replacement -/

theorem steps_cons (first : UInt8) (following : Octets) :
    steps (first :: following) =
      (step first following).1 :: steps (following.drop (step first following).2) := by
  rw [steps]

/-- Octets that are read without a replacement character encode what is read. -/
theorem encode_decodeReplacing {octets : Octets}
    (unreplaced : replacement ∉ decodeReplacing octets) :
    encode (decodeReplacing octets) = octets := by
  induction octets using steps.induct with
  | case1 => simp [decodeReplacing, steps, encode]
  | case2 first following character taken stepped induction =>
      rw [decodeReplacing, steps_cons, stepped] at unreplaced ⊢
      rw [List.map_cons, List.mem_cons, not_or] at unreplaced
      obtain ⟨here, later⟩ := unreplaced
      cases character with
      | none => exact absurd rfl here
      | some character =>
          have rest := induction later
          rw [encode, List.map_cons, List.flatMap_cons]
          rw [decodeReplacing, encode] at rest
          rw [rest]
          exact (eq_of_step stepped).symm

/-- Only the encoding of a text without replacement characters is read as that
text. -/
theorem eq_ofText_of_decodeReplacing {octets : Octets} {text : String}
    (unreplaced : replacement ∉ text.toList)
    (decoded : String.ofList (decodeReplacing octets) = text) : octets = ofText text := by
  subst decoded
  rw [String.toList_ofList] at unreplaced
  rw [ofText, String.toList_ofList, encode_decodeReplacing unreplaced]

end GridSecurity.Utf8
