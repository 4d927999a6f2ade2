import Lineage.Text.Utf8

/-!
# Environment variables

An environment gives values to names.  A value is a sequence of bytes, and most
readers take a variable whose value is not text for one that is not set.
-/

namespace Lineage

/-- The value of an environment variable: its text, shown with replacement
characters if its bytes are not text. -/
structure Variable where
  shown : String
  isText : Bool
  deriving DecidableEq, Repr

namespace Variable

def ofText (text : String) : Variable :=
  ⟨text, true⟩

def ofBytes (bytes : List Nat) : Variable :=
  ⟨Text.ofBytesLossy bytes, (Text.ofBytes? bytes).isSome⟩

end Variable

/-- The environment variables that are set, and the home directory that the
database of accounts has for the user, if any. -/
structure Environment where
  entries : List (String × Variable)
  accountHome : Option String
  deriving Repr

namespace Environment

/-- The environment without variables and without an account. -/
def empty : Environment :=
  ⟨[], none⟩

/-- The value of a variable, whether it is text or not. -/
def value? (environment : Environment) (name : String) : Option Variable :=
  (environment.entries.find? fun entry => entry.1 = name).map Prod.snd

/-- The text of a variable that is set to a text. -/
def text? (environment : Environment) (name : String) : Option String :=
  ((environment.value? name).filter Variable.isText).map Variable.shown

/-- The home directory, if there is one: that which a variable names, or else that
of the account. -/
def home? (environment : Environment) : Option String :=
  match environment.value? "HOME" with
  | some value => if value.shown.isEmpty then environment.accountHome else some value.shown
  | none => environment.accountHome

def set (environment : Environment) (name : String) (value? : Option Variable) : Environment :=
  let others := environment.entries.filter fun entry => entry.1 ≠ name
  match value? with
  | some value => { environment with entries := (name, value) :: others }
  | none => { environment with entries := others }

end Environment

end Lineage
