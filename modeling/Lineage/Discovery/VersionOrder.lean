import Lineage.Number.Natural
import Lineage.Text.Blank

/-!
# The order of versions

Versions of the core group are ordered by how much they promise: stable ones
first, then beta ones, then alpha ones, each from the highest number down, and
at last all versions that are named otherwise, in alphabetical order.
-/

namespace Lineage

/-- How much a version promises. -/
inductive Stability where
  | stable
  | beta
  | alpha
  deriving DecidableEq, Repr

/-- What the name of a version says. -/
inductive VersionName where
  | numbered (stability : Stability) (major : Nat) (minor : Option Nat)
  | free (name : String)
  deriving DecidableEq, Repr

namespace VersionName

/-- Reads a number of thirty-two bits. -/
def number? (digits : List Char) : Option Nat :=
  (Natural.readBase 10 (Nat.pow 2 32) digits).toOption

/-- Reads the second number of a version, which may be missing. -/
def minor? : List Char → Option (Option Nat)
  | [] => some none
  | digits => (number? digits).map some

def isDigit (character : Char) : Bool :=
  '0' ≤ character && character ≤ '9'

/-- Reads what follows the first number of a version. -/
def ofEnding? (major : Nat) : List Char → Option VersionName
  | [] => some (numbered .stable major none)
  | 'b' :: 'e' :: 't' :: 'a' :: rest => (minor? rest).map (numbered .beta major)
  | 'a' :: 'l' :: 'p' :: 'h' :: 'a' :: rest => (minor? rest).map (numbered .alpha major)
  | _ => none

/-- Reads the name of a version that is numbered. -/
def numbered? : List Char → Option VersionName
  | 'v' :: rest => do
    let major ← number? (rest.takeWhile isDigit)
    ofEnding? major (rest.dropWhile isDigit)
  | _ => none

def ofText (text : String) : VersionName :=
  (numbered? text.toList).getD (free text)

def rank : Stability → Nat
  | .stable => 0
  | .beta => 1
  | .alpha => 2

/-- A second number as an order key; none comes below all. -/
def minorKey : Option Nat → Nat
  | none => 0
  | some minor => minor + 1

/-- Whether a version comes before another or has the same place. -/
def le : VersionName → VersionName → Bool
  | numbered stability major minor, numbered stability' major' minor' =>
    if rank stability ≠ rank stability' then rank stability < rank stability'
    else if major ≠ major' then major' < major
    else minorKey minor' ≤ minorKey minor
  | numbered .., free _ => true
  | free _, numbered .. => false
  | free name, free name' => !(name' < name)

/-- Puts items into the order of their versions, keeping the order of items
whose versions have the same place. -/
def sortBy {α : Type} (version : α → String) (items : List α) : List α :=
  items.mergeSort fun first second => le (ofText (version first)) (ofText (version second))

end VersionName

end Lineage
