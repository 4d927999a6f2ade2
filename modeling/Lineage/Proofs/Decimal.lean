import Lineage.Number.Natural
import Mathlib.Data.List.Basic
import Mathlib.Data.UInt

/-!
# Decimal numbers

A text is read as a word if it is an optional plus sign, then decimal digits and
nothing else, whose value fits into sixty-four bits.  Writing the number gives back
the text without the sign and without leading zeros.
-/

namespace Lineage

namespace Natural

/-- The number that decimal digits continue, the highest first. -/
def decimalValue (start : Nat) (digits : List Char) : Nat :=
  digits.foldl (fun value digit => value * 10 + (digit.toNat - '0'.toNat)) start

/-- A text that spells a number in decimal. -/
def Decimal (text : String) (number : Nat) : Prop :=
  ∃ digits, digits ≠ [] ∧ (∀ digit ∈ digits, '0' ≤ digit ∧ digit ≤ '9') ∧
    (text.toList = digits ∨ text.toList = '+' :: digits) ∧ decimalValue 0 digits = number

theorem digitValue?_ten_eq_some_iff {character : Char} {digit : Nat} :
    digitValue? 10 character = some digit ↔
      ('0' ≤ character ∧ character ≤ '9') ∧ character.toNat - '0'.toNat = digit := by
  have zero : '0'.toNat = 48 := rfl
  simp only [digitValue?, Option.filter_eq_some_iff, decide_eq_true_eq]
  by_cases decimal : '0' ≤ character ∧ character ≤ '9'
  · have most : character.toNat ≤ 57 := decimal.2
    rw [if_pos decimal, Option.some.injEq, and_iff_right decimal]
    omega
  · -- A letter stands for ten at least.
    rw [if_neg decimal]
    constructor
    · rintro ⟨letter, small⟩
      have large : 10 ≤ digit := by
        split_ifs at letter <;> cases letter <;> omega
      omega
    · rintro ⟨range, _⟩
      exact absurd range decimal

theorem le_decimalValue (start : Nat) (digits : List Char) : start ≤ decimalValue start digits := by
  induction digits generalizing start with
  | nil => exact Nat.le_refl start
  | cons digit rest ih =>
      have further := ih (start * 10 + (digit.toNat - '0'.toNat))
      have grown : decimalValue start (digit :: rest) =
          decimalValue (start * 10 + (digit.toNat - '0'.toNat)) rest := rfl
      omega

theorem readDigits_eq_ok_iff {bound start number : Nat} {digits : List Char}
    (below : start < bound) :
    readDigits 10 bound start digits = .ok number ↔
      (∀ digit ∈ digits, '0' ≤ digit ∧ digit ≤ '9') ∧ decimalValue start digits = number ∧
        number < bound := by
  induction digits generalizing start with
  | nil =>
      simp only [readDigits, decimalValue, List.foldl_nil]
      constructor
      · rintro ⟨⟩
        exact ⟨by simp, rfl, below⟩
      · rintro ⟨_, rfl, _⟩
        rfl
  | cons digit rest ih =>
      rw [readDigits, List.forall_mem_cons]
      cases value : digitValue? 10 digit with
      | none =>
          simp only [reduceCtorEq, false_iff]
          rintro ⟨⟨range, _⟩, _⟩
          rw [digitValue?_ten_eq_some_iff.mpr ⟨range, rfl⟩] at value
          cases value
      | some worth =>
          obtain ⟨range, rfl⟩ := digitValue?_ten_eq_some_iff.mp value
          have grown : decimalValue start (digit :: rest) =
              decimalValue (start * 10 + (digit.toNat - '0'.toNat)) rest := rfl
          by_cases fits : start * 10 + (digit.toNat - '0'.toNat) < bound
          · simp only [if_pos fits, ih fits, grown, range, true_and, and_self]
          · simp only [if_neg fits, reduceCtorEq, false_iff]
            rintro ⟨_, total, inside⟩
            have least := le_decimalValue (start * 10 + (digit.toNat - '0'.toNat)) rest
            omega

theorem readBase_eq_ok_iff {bound number : Nat} {characters : List Char} (positive : 0 < bound) :
    readBase 10 bound characters = .ok number ↔
      (∃ digits, digits ≠ [] ∧ (∀ digit ∈ digits, '0' ≤ digit ∧ digit ≤ '9') ∧
        (characters = digits ∨ characters = '+' :: digits) ∧ decimalValue 0 digits = number) ∧
        number < bound := by
  have unsigned : ¬ ('0' ≤ '+' ∧ '+' ≤ '9') := by decide
  fun_cases readBase with
  | case1 =>
      simp only [reduceCtorEq, false_iff]
      rintro ⟨⟨digits, filled, _, rfl | shape, _⟩, _⟩
      · exact filled rfl
      · cases shape
  | case2 =>
      simp only [reduceCtorEq, false_iff]
      rintro ⟨⟨digits, filled, decimal, rfl | shape, _⟩, _⟩
      · exact unsigned (decimal '+' (by simp))
      · cases shape
        exact filled rfl
  | case3 digits filled =>
      rw [readDigits_eq_ok_iff positive]
      constructor
      · rintro ⟨decimal, total, below⟩
        exact ⟨⟨digits, filled, decimal, .inr rfl, total⟩, below⟩
      · rintro ⟨⟨others, _, decimal, rfl | shape, total⟩, below⟩
        · exact absurd (decimal '+' (by simp)) unsigned
        · cases shape
          exact ⟨decimal, total, below⟩
  | case4 =>
      rename_i filled _ bare
      rw [readDigits_eq_ok_iff positive]
      constructor
      · rintro ⟨decimal, total, below⟩
        exact ⟨⟨characters, filled, decimal, .inl rfl, total⟩, below⟩
      · rintro ⟨⟨others, _, decimal, rfl | shape, total⟩, below⟩
        · exact ⟨decimal, total, below⟩
        · exact absurd shape (bare others)

theorem readWord_eq_ok_iff {text : String} {word : UInt64} :
    readWord text = .ok word ↔ Decimal text word.toNat := by
  have positive : 0 < Nat.pow 2 64 := by decide
  have below : word.toNat < Nat.pow 2 64 := word.toNat_lt
  constructor
  · intro answer
    rw [readWord, read] at answer
    cases number : readBase 10 (Nat.pow 2 64) text.toList with
    | error fault =>
        rw [number] at answer
        cases answer
    | ok value =>
        rw [number] at answer
        obtain ⟨decimal, small⟩ := (readBase_eq_ok_iff positive).mp number
        have worth : UInt64.ofNat value = word := Except.ok.inj answer
        rw [← worth, UInt64.toNat_ofNat_of_lt' small]
        exact decimal
  · intro decimal
    have number : readBase 10 (Nat.pow 2 64) text.toList = .ok word.toNat :=
      (readBase_eq_ok_iff positive).mpr ⟨decimal, below⟩
    rw [readWord, read, number]
    exact congrArg Except.ok UInt64.ofNat_toNat

section Digits

variable {number : Nat}

theorem digitChar_range {digit : Nat} (small : digit < 10) :
    ('0' ≤ digitChar digit ∧ digitChar digit ≤ '9') ∧
      (digitChar digit).toNat - '0'.toNat = digit := by
  have all : ∀ digit < 10, ('0' ≤ digitChar digit ∧ digitChar digit ≤ '9') ∧
      (digitChar digit).toNat - '0'.toNat = digit := by
    decide
  exact all digit small

theorem digits_of_lt (small : number < 10) : digits number = [digitChar number] := by
  rw [digits, if_pos small]

theorem digits_of_le (large : 10 ≤ number) :
    digits number = digits (number / 10) ++ [digitChar (number % 10)] := by
  rw [digits, if_neg (Nat.not_lt.mpr large)]

theorem decimalValue_append (start : Nat) (front back : List Char) :
    decimalValue start (front ++ back) = decimalValue (decimalValue start front) back :=
  List.foldl_append

/-- A number is written with the digits that spell it, without leading zeros. -/
theorem digits_spec (number : Nat) :
    (∀ digit ∈ digits number, '0' ≤ digit ∧ digit ≤ '9') ∧
      decimalValue 0 (digits number) = number ∧
      ∃ first rest, digits number = first :: rest ∧ (first = '0' → rest = []) := by
  induction number using digits.induct with
  | case1 number small =>
      obtain ⟨range, worth⟩ := digitChar_range small
      rw [digits_of_lt small]
      refine ⟨by simpa using range, ?_, _, _, rfl, fun _ => rfl⟩
      simpa [decimalValue] using worth
  | case2 number large ih =>
      obtain ⟨ranges, value, first, rest, begins, leading⟩ := ih
      have least : 10 ≤ number := Nat.not_lt.mp large
      obtain ⟨range, worth⟩ := digitChar_range (Nat.mod_lt number (by decide : 10 > 0))
      rw [digits_of_le least]
      refine ⟨?_, ?_, first, rest ++ [digitChar (number % 10)], by rw [begins]; rfl, ?_⟩
      · intro digit member
        rcases List.mem_append.mp member with inside | last
        · exact ranges digit inside
        · rw [List.mem_singleton.mp last]
          exact range
      · rw [decimalValue_append, value]
        change number / 10 * 10 + ((digitChar (number % 10)).toNat - '0'.toNat) = number
        omega
      · -- A leading zero would make the front of the number zero.
        rintro rfl
        obtain rfl := leading rfl
        rw [begins] at value
        have zero : decimalValue 0 ['0'] = 0 := by decide
        omega

theorem decimal_render (number : Nat) : Decimal (render number) number := by
  obtain ⟨ranges, value, first, rest, begins, _⟩ := digits_spec number
  refine ⟨digits number, by simp [begins], ranges, .inl ?_, value⟩
  rw [render, String.toList_ofList]

end Digits

section Canonical

/-- Decimal digits without leading zeros, of which one at least remains. -/
def significant (digits : List Char) : List Char :=
  match digits.dropWhile (· = '0') with
  | [] => ['0']
  | kept => kept

/-- What follows an optional plus sign. -/
def unsigned : List Char → List Char
  | '+' :: digits => digits
  | digits => digits

/-- A decimal number without a sign and without leading zeros. -/
def canonical (text : String) : String :=
  String.ofList (significant (unsigned text.toList))

theorem significant_of_dropWhile {digits : List Char}
    (more : digits.dropWhile (· = '0') ≠ []) :
    significant digits = digits.dropWhile (· = '0') := by
  rw [significant]
  split
  · contradiction
  · rfl

theorem decimalValue_of_zeros {digits : List Char} (zeros : digits.dropWhile (· = '0') = []) :
    decimalValue 0 digits = 0 := by
  induction digits with
  | nil => rfl
  | cons digit rest ih =>
      rw [List.dropWhile_cons] at zeros
      split at zeros
      · rename_i zero
        obtain rfl : digit = '0' := by simpa using zero
        exact ih zeros
      · contradiction

theorem digitChar_of_range {digit : Char} (range : '0' ≤ digit ∧ digit ≤ '9') :
    digitChar (digit.toNat - '0'.toNat) = digit := by
  have least : '0'.toNat ≤ digit.toNat := range.1
  rw [digitChar, Nat.add_sub_cancel' least, Char.ofNat_toNat]

theorem digit_lt_ten {digit : Char} (range : '0' ≤ digit ∧ digit ≤ '9') :
    digit.toNat - '0'.toNat < 10 := by
  have most : digit.toNat ≤ '9'.toNat := range.2
  have zero : '0'.toNat = 48 := rfl
  have nine : '9'.toNat = 57 := rfl
  omega

/-- The digits that are written for a number are those that spell it, without
leading zeros. -/
theorem digits_decimalValue {ds : List Char} (filled : ds ≠ [])
    (ranges : ∀ digit ∈ ds, '0' ≤ digit ∧ digit ≤ '9') :
    digits (decimalValue 0 ds) = significant ds := by
  induction ds using List.reverseRecOn with
  | nil => exact absurd rfl filled
  | append_singleton front digit ih =>
      have range : '0' ≤ digit ∧ digit ≤ '9' := ranges digit (by simp)
      have value : decimalValue 0 (front ++ [digit]) =
          decimalValue 0 front * 10 + (digit.toNat - '0'.toNat) := by
        rw [decimalValue_append]
        rfl
      have small := digit_lt_ten range
      by_cases zeros : front.dropWhile (· = '0') = []
      · rw [value, decimalValue_of_zeros zeros, Nat.zero_mul, Nat.zero_add, digits_of_lt small,
          digitChar_of_range range, significant, List.dropWhile_append, zeros]
        by_cases zero : digit = '0' <;> simp [zero]
      · have frontFilled : front ≠ [] := by
          rintro rfl
          exact zeros rfl
        have written := ih frontFilled fun other member => ranges other (by simp [member])
        rw [significant_of_dropWhile zeros] at written
        have positive : decimalValue 0 front ≠ 0 := by
          intro zero
          rw [zero, digits_of_lt (by decide)] at written
          have leading := List.head_dropWhile_not (· = '0') zeros
          simp only [← written, List.head_cons] at leading
          exact absurd leading (by decide)
        have kept : (front ++ [digit]).dropWhile (· = '0') =
            front.dropWhile (· = '0') ++ [digit] := by
          rw [List.dropWhile_append, if_neg (by simpa using zeros)]
        have quotient : (decimalValue 0 front * 10 + (digit.toNat - '0'.toNat)) / 10 =
            decimalValue 0 front := by
          omega
        rw [value, digits_of_le (by omega), quotient, Nat.mul_add_mod_of_lt small, written,
          digitChar_of_range range, significant_of_dropWhile (by simp [kept]), kept]

theorem ne_plus_of_range {digit : Char} (range : '0' ≤ digit ∧ digit ≤ '9') : digit ≠ '+' := by
  rintro rfl
  exact absurd range (by decide)

theorem unsigned_of_decimal {text : String} {digits : List Char}
    (ranges : ∀ digit ∈ digits, '0' ≤ digit ∧ digit ≤ '9')
    (shape : text.toList = digits ∨ text.toList = '+' :: digits) :
    unsigned text.toList = digits := by
  rcases shape with bare | signed
  · rw [bare, unsigned]
    rintro rest rfl
    exact ne_plus_of_range (ranges '+' List.mem_cons_self) rfl
  · rw [signed, unsigned]

/-- What is written for a number is any text that spells it in canonical form. -/
theorem render_eq_canonical {text : String} {number : Nat} (decimal : Decimal text number) :
    render number = canonical text := by
  obtain ⟨digits, filled, ranges, shape, rfl⟩ := decimal
  rw [render, digits_decimalValue filled ranges, canonical, unsigned_of_decimal ranges shape]

end Canonical

end Natural

end Lineage
