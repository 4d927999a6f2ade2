import Lineage.Number.Natural
import Lineage.Text.Blank
import Lineage.Yaml.Value

/-!
# What a plain scalar means

A plain scalar is null, a truth value or a number if it is spelled like one, and
a text otherwise.  Digits that begin with a zero are a text, unless the zero
stands alone or begins the mark of another base.
-/

namespace Lineage

namespace Yaml

namespace Scalar

def isNull (text : String) : Bool :=
  ["null", "Null", "NULL", "~"].contains text

def bool? (text : String) : Option Bool :=
  if ["true", "True", "TRUE"].contains text then some true
  else if ["false", "False", "FALSE"].contains text then some false
  else none

def isDigit (character : Char) : Bool :=
  '0' ≤ character && character ≤ '9'

/-- Whether a scalar consists of several digits, after a sign or none, of which
the first is zero. -/
def isPadded (characters : List Char) : Bool :=
  let digits :=
    match characters with
    | '-' :: rest => rest
    | '+' :: rest => rest
    | _ => characters
  match digits with
  | '0' :: rest => !rest.isEmpty && rest.all isDigit
  | _ => false

/-- The number that a list of digits in a base spells, below a bound.  Another
sign may not come first. -/
def digits? (base bound : Nat) (characters : List Char) : Option Nat :=
  match characters with
  | '+' :: _ => none
  | '-' :: _ => none
  | _ => (Natural.readBase base bound characters).toOption

/-- The base that a list of characters is marked with, and what follows the mark. -/
def marked? : List Char → Option (Nat × List Char)
  | '0' :: 'x' :: rest => some (16, rest)
  | '0' :: 'o' :: rest => some (8, rest)
  | '0' :: 'b' :: rest => some (2, rest)
  | _ => none

/-- The natural number below a bound that a scalar spells. -/
def natural? (bound : Nat) (text : String) : Option Nat :=
  let unsigned :=
    match text.toList with
    | '+' :: rest => rest
    | characters => characters
  match (marked? unsigned).bind fun (base, rest) => digits? base bound rest with
  | some value => some value
  | none => if isPadded text.toList then none else digits? 10 bound unsigned

/-- The size of the negative number that a scalar spells, if it is less than a
bound. -/
def negative? (bound : Nat) (text : String) : Option Nat :=
  match text.toList with
  | '-' :: rest =>
    match (marked? rest).bind fun (base, rest) => digits? base bound rest with
    | some value => some value
    | none => if isPadded text.toList then none else digits? 10 bound rest
  | _ => none

def spanDigits (characters : List Char) : List Char × List Char :=
  (characters.takeWhile isDigit, characters.dropWhile isDigit)

def digitsValue (digits : List Char) : Nat :=
  digits.foldl (fun value digit => value * 10 + (digit.toNat - '0'.toNat)) 0

/-- The power of ten that the end of a number gives. -/
def exponent? : List Char → Option Int
  | [] => some 0
  | mark :: rest =>
    if mark = 'e' ∨ mark = 'E' then
      let (isNegative, digits) :=
        match rest with
        | '-' :: digits => (true, digits)
        | '+' :: digits => (false, digits)
        | digits => (false, digits)
      if digits.isEmpty || !digits.all isDigit then none
      else if isNegative then some (-(digitsValue digits : Int))
      else some (digitsValue digits)
    else none

/-- The finite number that a list of characters without a sign spells. -/
def magnitude? (characters : List Char) : Option Float := do
  let (whole, rest) := spanDigits characters
  let (fraction, rest) :=
    match rest with
    | '.' :: rest => spanDigits rest
    | _ => ([], rest)
  if whole.isEmpty && fraction.isEmpty then none
  else
    let exponent ← exponent? rest
    let significand := digitsValue (whole ++ fraction)
    let scale := exponent - fraction.length
    let size := scale + (Natural.digits significand).length
    if significand = 0 || size < -400 then some 0
    else if 400 < size then none
    else
      let value := Float.ofScientific significand (scale < 0) scale.natAbs
      if value.isFinite then some value else none

/-- The number with a point or an exponent that a scalar spells. -/
def float? (text : String) : Option Float :=
  if [".inf", ".Inf", ".INF", "+.inf", "+.Inf", "+.INF"].contains text then some (1 / 0)
  else if ["-.inf", "-.Inf", "-.INF"].contains text then some (-1 / 0)
  else if [".nan", ".NaN", ".NAN"].contains text then some (0 / 0)
  else
    match text.toList with
    | '+' :: '+' :: _ => none
    | '+' :: '-' :: _ => none
    | '+' :: rest => magnitude? rest
    | '-' :: rest => (magnitude? rest).map fun value => -value
    | characters => magnitude? characters

/-- The integer that a scalar spells; an inner nothing if it is spelled as one
but needs more than sixty-four bits. -/
def integer? (text : String) : Option (Option Int) :=
  match natural? (Nat.pow 2 64) text with
  | some value => some (some value)
  | none =>
    match negative? (Nat.pow 2 63 + 1) text with
    | some value => some (some (-(value : Int)))
    | none =>
      if (natural? (Nat.pow 2 128) text).isSome
          || (negative? (Nat.pow 2 127 + 1) text).isSome then some none
      else none

/-- The value of a plain scalar; nothing if it is too large an integer. -/
def plain (text : String) : Option Value :=
  if text.isEmpty || isNull text then some .null
  else
    match bool? text with
    | some value => some (.bool value)
    | none =>
      match integer? text with
      | some value? => value?.map Value.integer
      | none =>
        match if isPadded text.toList then none else float? text with
        | some value => some (.float value)
        | none => some (.string text)

end Scalar

end Yaml

end Lineage
