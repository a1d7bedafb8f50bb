import GridSecurity.Octets
import Mathlib.Data.Nat.Digits.Lemmas

/-!
# Octets as numbers and as digits

Leading zero octets do not count for a number without a sign, and what is left of the octets
without them are its digits.  With a sign they do count: the first octet tells whether the
number is negative, so that the same digits write two numbers.
In hexadecimal digits every octet counts, so that other octets have other digits.
The order of octet strings is a strict one in which any two different strings are in order.
-/

namespace GridSecurity.Octets

/-! ## Without a sign -/

private theorem toNat_eq_ofDigits (octets : Octets) :
    toNat octets = Nat.ofDigits 256 (octets.reverse.map UInt8.toNat) := by
  rw [Nat.ofDigits_eq_foldr, List.foldr_map, List.foldr_reverse]
  simp only [toNat, Nat.cast_id, Nat.add_comm, Nat.mul_comm]

private theorem toNat_lt (octets : Octets) : toNat octets < 256 ^ octets.length := by
  have bound : ∀ digit ∈ octets.reverse.map UInt8.toNat, digit < 256 := by
    intro digit member
    obtain ⟨octet, _, rfl⟩ := List.mem_map.mp member
    exact octet.toNat_lt
  simpa [toNat_eq_ofDigits] using Nat.ofDigits_lt_base_pow_length (by decide) bound

private theorem toNat_trimLeadingZeros (octets : Octets) :
    toNat (trimLeadingZeros octets) = toNat octets := by
  induction octets with
  | nil => rfl
  | cons first rest induction =>
      by_cases zero : first = 0
      · subst zero
        exact induction
      · rw [trimLeadingZeros, List.dropWhile_cons_of_neg (by simpa using zero)]

/-- The digits of a number without a sign are the octets without leading zeros. -/
private theorem digits_toNat (octets : Octets) :
    Nat.digits 256 (toNat octets) = (trimLeadingZeros octets).reverse.map UInt8.toNat := by
  rw [← toNat_trimLeadingZeros, toNat_eq_ofDigits]
  apply Nat.digits_ofDigits 256 (by decide)
  · intro digit member
    obtain ⟨octet, _, rfl⟩ := List.mem_map.mp member
    exact octet.toNat_lt
  · intro nonempty
    have occupied : octets.dropWhile (· == 0) ≠ [] := by
      simpa [trimLeadingZeros] using nonempty
    have first : ((octets.dropWhile (· == 0)).head occupied == 0) = false :=
      List.head_dropWhile_not _ occupied
    rw [List.getLast_map, List.getLast_reverse]
    intro zero
    have isZero : (octets.dropWhile (· == 0)).head occupied = 0 := UInt8.toNat_inj.mp zero
    simp [isZero] at first

/-- Octets agree without their leading zeros exactly if they write the same number without a
sign. -/
theorem trimLeadingZeros_eq_iff {left right : Octets} :
    trimLeadingZeros left = trimLeadingZeros right ↔ toNat left = toNat right := by
  rw [← Nat.digits_inj_iff (b := 256), digits_toNat, digits_toNat]
  constructor
  · intro same
    rw [same]
  · intro same
    have injective : Function.Injective UInt8.toNat := fun _ _ => UInt8.toNat_inj.mp
    exact List.reverse_injective (injective.list_map same)

/-! ## With a sign -/

theorem toInt_neg_iff {octets : Octets} :
    toInt octets < 0 ↔ ∃ first rest, octets = first :: rest ∧ 128 ≤ first.toNat := by
  cases octets with
  | nil => simp [toInt]
  | cons first rest =>
      have bounded : toNat (first :: rest) < Nat.pow 256 (first :: rest).length := toNat_lt _
      have written : (∃ head tail, first :: rest = head :: tail ∧ 128 ≤ head.toNat) ↔
          128 ≤ first.toNat := by simp
      rw [written, toInt]
      split
      · next low => omega
      · next high => omega

private theorem toInt_of_nonneg {octets : Octets} (nonneg : ¬ toInt octets < 0) :
    toInt octets = toNat octets := by
  cases octets with
  | nil => rfl
  | cons first rest =>
      have low : first.toNat < 128 := by
        by_contra high
        exact nonneg (toInt_neg_iff.mpr ⟨first, rest, rfl, Nat.le_of_not_lt high⟩)
      exact if_pos low

/-- Octets that write a negative number have no leading zeros. -/
theorem trimLeadingZeros_of_neg {octets : Octets} (negative : toInt octets < 0) :
    trimLeadingZeros octets = octets := by
  obtain ⟨first, rest, rfl, high⟩ := toInt_neg_iff.mp negative
  apply List.dropWhile_cons_of_neg
  rw [beq_iff_eq]
  rintro rfl
  exact absurd high (by decide)

/-- The same number without a sign is the same number with a sign exactly if both are negative
or neither is. -/
theorem toInt_eq_iff_of_toNat_eq {left right : Octets} (same : toNat left = toNat right) :
    toInt left = toInt right ↔ (toInt left < 0 ↔ toInt right < 0) := by
  constructor
  · intro equal
    rw [equal]
  · intro signs
    by_cases negative : toInt left < 0
    · have trimmed := trimLeadingZeros_eq_iff.mpr same
      rw [trimLeadingZeros_of_neg negative, trimLeadingZeros_of_neg (signs.mp negative)] at trimmed
      rw [trimmed]
    · rw [toInt_of_nonneg negative, toInt_of_nonneg (mt signs.mpr negative), same]

/-! ## In hexadecimal digits -/

private theorem hexDigitValue?_hexDigit {digit : Nat} (bounded : digit < 16) :
    hexDigitValue? (hexDigit digit) = some digit := by
  have each : ∀ digit : Fin 16, hexDigitValue? (hexDigit digit) = some digit.val := by
    decide +kernel
  exact each ⟨digit, bounded⟩

/-- Octets are read from the digits that are written for them. -/
private theorem ofHexDigits?_hexDigits (octets : Octets) :
    ofHexDigits? (hexDigits octets) = some octets := by
  induction octets with
  | nil => rfl
  | cons octet octets induction =>
      have high : octet.toNat / 16 < 16 := by
        have bounded := octet.toNat_lt
        omega
      have low : octet.toNat % 16 < 16 := Nat.mod_lt _ (by decide)
      have whole : octet.toNat / 16 * 16 + octet.toNat % 16 = octet.toNat := by omega
      have digits : hexDigits (octet :: octets) =
          hexDigit (octet.toNat / 16) :: hexDigit (octet.toNat % 16) :: hexDigits octets := rfl
      simp only [digits, ofHexDigits?, hexDigitValue?_hexDigit high, hexDigitValue?_hexDigit low,
        induction, Option.bind_eq_bind, Option.bind_some, whole, UInt8.ofNat_toNat]
      rfl

theorem hex_inj {left right : Octets} : hex left = hex right ↔ left = right := by
  constructor
  · intro same
    apply Option.some.inj
    rw [← ofHexDigits?_hexDigits left, ← ofHexDigits?_hexDigits right,
      String.ofList_injective same]
  · rintro rfl
    rfl

/-! ## Order -/

variable {left middle right : Octets}

theorem precedes_cons_iff {first other : UInt8} {rest others : Octets} :
    precedes (first :: rest) (other :: others) = true ↔
      first.toNat < other.toNat ∨ first = other ∧ precedes rest others = true := by
  rw [precedes]
  split
  · next same =>
      subst same
      simp
  · next different => simp [different]

theorem precedes_irrefl (octets : Octets) : ¬ precedes octets octets = true := by
  induction octets with
  | nil => exact Bool.false_ne_true
  | cons first rest induction => simp [precedes_cons_iff, induction]

theorem precedes_trans (first : precedes left middle = true)
    (second : precedes middle right = true) : precedes left right = true := by
  induction left generalizing middle right with
  | nil =>
      cases right with
      | nil => cases middle <;> cases second
      | cons => rfl
  | cons octet octets induction =>
      cases middle with
      | nil => cases first
      | cons between betweens =>
          cases right with
          | nil => cases second
          | cons last lasts =>
              rw [precedes_cons_iff] at first second ⊢
              rcases first with lower | ⟨rfl, first⟩
              · rcases second with higher | ⟨rfl, -⟩
                · exact .inl (lower.trans higher)
                · exact .inl lower
              · rcases second with higher | ⟨rfl, second⟩
                · exact .inl higher
                · exact .inr ⟨rfl, induction first second⟩

theorem precedes_or_precedes (different : left ≠ right) :
    precedes left right = true ∨ precedes right left = true := by
  induction left generalizing right with
  | nil =>
      cases right with
      | nil => exact absurd rfl different
      | cons => exact .inl rfl
  | cons first rest induction =>
      cases right with
      | nil => exact .inr rfl
      | cons other others =>
          rw [precedes_cons_iff, precedes_cons_iff]
          by_cases same : first = other
          · subst same
            rcases induction (fun equal => different (congrArg _ equal)) with before | behind
            · exact .inl (.inr ⟨rfl, before⟩)
            · exact .inr (.inr ⟨rfl, behind⟩)
          · rcases Nat.lt_or_gt_of_ne (mt UInt8.toNat_inj.mp same) with lower | higher
            · exact .inl (.inl lower)
            · exact .inr (.inl higher)

end GridSecurity.Octets
