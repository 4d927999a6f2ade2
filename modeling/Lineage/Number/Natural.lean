/-!
# Natural numbers in decimal

A number is written in decimal without leading zeros.  It is read from an
optional plus sign followed by decimal digits, and must stay below a bound that
the reader names.  Digits are examined from the left, so the first character
that is no digit, or the first digit that carries the value past the bound,
decides the fault that is reported.
-/

namespace Lineage

/-- Why a text is no natural number below a bound. -/
inductive NaturalFault where
  | empty
  | invalidDigit
  | tooLarge
  deriving DecidableEq, Repr

namespace NaturalFault

def message : NaturalFault → String
  | empty => "cannot parse integer from empty string"
  | invalidDigit => "invalid digit found in string"
  | tooLarge => "number too large to fit in target type"

end NaturalFault

namespace Natural

/-- The value of a digit character in a base of at most thirty-six. -/
def digitValue? (base : Nat) (character : Char) : Option Nat :=
  let value? :=
    if '0' ≤ character ∧ character ≤ '9' then some (character.toNat - '0'.toNat)
    else if 'a' ≤ character ∧ character ≤ 'z' then some (character.toNat - 'a'.toNat + 10)
    else if 'A' ≤ character ∧ character ≤ 'Z' then some (character.toNat - 'A'.toNat + 10)
    else none
  value?.filter (· < base)

/-- Continues a number from its digits in a base, keeping it below a bound. -/
def readDigits (base bound : Nat) : Nat → List Char → Except NaturalFault Nat
  | value, [] => .ok value
  | value, character :: rest =>
    match digitValue? base character with
    | none => .error .invalidDigit
    | some digit =>
      if value * base + digit < bound then readDigits base bound (value * base + digit) rest
      else .error .tooLarge

/-- Reads a number in a base from an optional plus sign and at least one digit. -/
def readBase (base bound : Nat) : List Char → Except NaturalFault Nat
  | [] => .error .empty
  | ['+'] => .error .invalidDigit
  | '+' :: digits => readDigits base bound 0 digits
  | digits => readDigits base bound 0 digits

/-- Reads a decimal number below a bound. -/
def read (bound : Nat) (text : String) : Except NaturalFault Nat :=
  readBase 10 bound text.toList

/-- Reads a decimal number of sixty-four bits. -/
def readWord (text : String) : Except NaturalFault UInt64 :=
  (read (Nat.pow 2 64) text).map UInt64.ofNat

def digitChar (digit : Nat) : Char :=
  Char.ofNat ('0'.toNat + digit)

/-- The decimal digits of a number, the highest first. -/
def digits (number : Nat) : List Char :=
  if number < 10 then [digitChar number]
  else digits (number / 10) ++ [digitChar (number % 10)]
termination_by number

/-- A number in decimal without leading zeros. -/
def render (number : Nat) : String :=
  String.ofList (digits number)

end Natural

end Lineage
