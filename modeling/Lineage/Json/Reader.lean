import Lineage.Json.Basic

/-!
# Reading structured values

The reader consumes characters from the front of a list and returns what is
left.  A number without point and exponent is an integer when it fits in
sixty-four bits, with or without sign; every other number, and negative zero,
is a double.  The significand of a double is cut to what fits in sixty-four
bits before it is scaled by a power of ten.
-/

namespace Lineage

namespace Json

/-- Drops the blanks that may stand between two tokens. -/
def skipBlanks : List Char → List Char
  | character :: rest =>
    if character = ' ' ∨ character = '\n' ∨ character = '\t' ∨ character = '\r' then
      skipBlanks rest
    else character :: rest
  | [] => []

/-- The value of four hexadecimal digits at the front of a list. -/
def readUnit : List Char → Option (Nat × List Char)
  | first :: second :: third :: fourth :: rest => do
    let value ← [first, second, third, fourth].foldlM
      (fun value character => do
        let code := character.toNat
        let digit ←
          if 48 ≤ code ∧ code ≤ 57 then some (code - 48)
          else if 97 ≤ code ∧ code ≤ 102 then some (code - 87)
          else if 65 ≤ code ∧ code ≤ 70 then some (code - 55)
          else none
        some (value * 16 + digit)) 0
    some (value, rest)
  | _ => none

/-- The character that an escape with a code unit stands for.  A high unit needs
a low unit after it, and a low unit may not stand alone. -/
def readEscapedUnit (characters : List Char) : Option (Char × List Char) := do
  let (unit, rest) ← readUnit characters
  if 0xDC00 ≤ unit ∧ unit ≤ 0xDFFF then none
  else if 0xD800 ≤ unit ∧ unit ≤ 0xDBFF then
    match rest with
    | '\\' :: 'u' :: more =>
      let (low, rest) ← readUnit more
      if 0xDC00 ≤ low ∧ low ≤ 0xDFFF then
        some (Char.ofNat (0x10000 + (unit - 0xD800) * 0x400 + (low - 0xDC00)), rest)
      else none
    | _ => none
  else some (Char.ofNat unit, rest)

/-- Continues a text up to its closing quote, collecting it in reverse. -/
def readText : Nat → List Char → List Char → Option (String × List Char)
  | 0, _, _ => none
  | _ + 1, _, [] => none
  | _ + 1, collected, '"' :: rest => some (String.ofList collected.reverse, rest)
  | fuel + 1, collected, '\\' :: rest =>
    match rest with
    | '"' :: more => readText fuel ('"' :: collected) more
    | '\\' :: more => readText fuel ('\\' :: collected) more
    | '/' :: more => readText fuel ('/' :: collected) more
    | 'b' :: more => readText fuel ('\x08' :: collected) more
    | 'f' :: more => readText fuel ('\x0c' :: collected) more
    | 'n' :: more => readText fuel ('\n' :: collected) more
    | 'r' :: more => readText fuel ('\r' :: collected) more
    | 't' :: more => readText fuel ('\t' :: collected) more
    | 'u' :: more =>
      match readEscapedUnit more with
      | some (character, rest) => readText fuel (character :: collected) rest
      | none => none
    | _ => none
  | fuel + 1, collected, character :: rest =>
    if character.toNat < 0x20 then none else readText fuel (character :: collected) rest

def decimalDigit? (character : Char) : Option Nat :=
  if '0' ≤ character ∧ character ≤ '9' then some (character.toNat - '0'.toNat) else none

def spanDigits : List Char → List Nat × List Char
  | [] => ([], [])
  | character :: rest =>
    match decimalDigit? character with
    | some digit =>
      let (digits, rest) := spanDigits rest
      (digit :: digits, rest)
    | none => ([], character :: rest)

def digitsValue (digits : List Nat) : Nat :=
  digits.foldl (fun value digit => value * 10 + digit) 0

/-- A significand and the power of ten that scales it. -/
structure Scaled where
  significand : Nat
  exponent : Int

/-- Takes digits before the point until the next one would not fit in
sixty-four bits; from there on each digit only raises the exponent. -/
def takeWhole (scaled : Scaled) : List Nat → Scaled
  | [] => scaled
  | digit :: rest =>
    if scaled.significand * 10 + digit < Nat.pow 2 64 then
      takeWhole { scaled with significand := scaled.significand * 10 + digit } rest
    else { scaled with exponent := scaled.exponent + (digit :: rest).length }

/-- Takes digits after the point until the next one would not fit. -/
def takeFraction (scaled : Scaled) : List Nat → Scaled
  | [] => scaled
  | digit :: rest =>
    if scaled.significand * 10 + digit < Nat.pow 2 64 then
      takeFraction ⟨scaled.significand * 10 + digit, scaled.exponent - 1⟩ rest
    else scaled

/-- Scales a double by a power of ten, in steps that stay in range. -/
def scaleFloat : Nat → Float → Int → Float
  | 0, value, _ => value
  | fuel + 1, value, exponent =>
    if exponent.natAbs ≤ 308 then
      if 0 ≤ exponent then value * Float.ofScientific 1 false exponent.natAbs
      else value / Float.ofScientific 1 false exponent.natAbs
    else if value == 0 then value
    else if 0 ≤ exponent then value * Float.ofScientific 1 false 308 * 10
    else scaleFloat fuel (value / Float.ofScientific 1 false 308) (exponent + 308)

def Scaled.toFloat (scaled : Scaled) (isNegative : Bool) : Float :=
  let value := scaleFloat 4 (UInt64.ofNat scaled.significand).toFloat scaled.exponent
  if isNegative then -value else value

def readExponent : List Char → Option (Option Int × List Char)
  | mark :: rest =>
    if mark = 'e' ∨ mark = 'E' then
      let (isNegative, rest) :=
        match rest with
        | '-' :: more => (true, more)
        | '+' :: more => (false, more)
        | _ => (false, rest)
      match spanDigits rest with
      | ([], _) => none
      | (digits, rest) =>
        let value : Int := digitsValue digits
        some (some (if isNegative then -value else value), rest)
    else some (none, mark :: rest)
  | [] => some (none, [])

def readFraction : List Char → Option (Option (List Nat) × List Char)
  | '.' :: rest =>
    match spanDigits rest with
    | ([], _) => none
    | (digits, rest) => some (some digits, rest)
  | rest => some (none, rest)

/-- Reads a number, whose minus sign has been taken off. -/
def readNumber (isNegative : Bool) (characters : List Char) : Option (Json × List Char) := do
  let (whole, rest) := spanDigits characters
  match whole with
  | [] => none
  | 0 :: _ :: _ => none
  | _ =>
    let (fraction?, rest) ← readFraction rest
    let (exponent?, rest) ← readExponent rest
    let value := digitsValue whole
    let asFloat :=
      let scaled := takeFraction (takeWhole ⟨0, 0⟩ whole) (fraction?.getD [])
      let scaled : Scaled := ⟨scaled.significand, scaled.exponent + exponent?.getD 0⟩
      float (scaled.toFloat isNegative)
    if fraction?.isSome ∨ exponent?.isSome then some (asFloat, rest)
    else if isNegative then
      if 0 < value ∧ value ≤ Nat.pow 2 63 then some (integer (-(value : Int)), rest)
      else some (asFloat, rest)
    else if value < Nat.pow 2 64 then some (integer value, rest)
    else some (asFloat, rest)

mutual

def readValue : Nat → List Char → Option (Json × List Char)
  | 0, _ => none
  | fuel + 1, characters =>
    match skipBlanks characters with
    | 'n' :: 'u' :: 'l' :: 'l' :: rest => some (null, rest)
    | 't' :: 'r' :: 'u' :: 'e' :: rest => some (bool true, rest)
    | 'f' :: 'a' :: 'l' :: 's' :: 'e' :: rest => some (bool false, rest)
    | '"' :: rest =>
      (readText (rest.length + 1) [] rest).map fun (text, rest) => (string text, rest)
    | '-' :: rest => readNumber true rest
    | '[' :: rest =>
      match skipBlanks rest with
      | ']' :: rest => some (array [], rest)
      | rest => (readItems fuel rest).map fun (items, rest) => (array items, rest)
    | '{' :: rest =>
      match skipBlanks rest with
      | '}' :: rest => some (object [], rest)
      | rest => (readFields fuel rest).map fun (fields, rest) => (object fields, rest)
    | rest => readNumber false rest

def readItems : Nat → List Char → Option (List Json × List Char)
  | 0, _ => none
  | fuel + 1, characters =>
    match readValue fuel characters with
    | none => none
    | some (item, rest) =>
      match skipBlanks rest with
      | ']' :: rest => some ([item], rest)
      | ',' :: rest => (readItems fuel rest).map fun (items, rest) => (item :: items, rest)
      | _ => none

def readFields : Nat → List Char → Option (List (String × Json) × List Char)
  | 0, _ => none
  | fuel + 1, characters =>
    match skipBlanks characters with
    | '"' :: rest =>
      match readText (rest.length + 1) [] rest with
      | none => none
      | some (name, rest) =>
        match skipBlanks rest with
        | ':' :: rest =>
          match readValue fuel rest with
          | none => none
          | some (value, rest) =>
            match skipBlanks rest with
            | '}' :: rest => some ([(name, value)], rest)
            | ',' :: rest =>
              (readFields fuel rest).map fun (fields, rest) => ((name, value) :: fields, rest)
            | _ => none
        | _ => none
    | _ => none

end

/-- Reads a text that holds exactly one value.  Values may be nested to any depth:
whoever decodes one follows it a few levels deep and passes over all else that it
holds, and there is no limit for what is passed over. -/
def parse (text : String) : Option Json :=
  let characters := text.toList
  match readValue (2 * characters.length + 2) characters with
  | some (value, rest) => if (skipBlanks rest).isEmpty then some value else none
  | none => none

end Json

end Lineage
