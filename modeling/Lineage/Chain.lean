/-!
# Chains of causes

A failure is reported as a chain of links, from what was attempted down to what
went wrong.  On one line the links stand with colons between them; as the last
word of a program they are listed below one another.  A chain may be open: its
last link then stands for a report whose further wording is left unspecified,
and nothing is written after it.
-/

namespace Lineage

/-- The report of a failure, from the outermost link to the innermost. -/
structure Chain where
  links : List String
  isOpen : Bool
  deriving DecidableEq, Repr, Inhabited

namespace Chain

def ofLinks (links : List String) : Chain :=
  ⟨links, false⟩

def single (link : String) : Chain :=
  ofLinks [link]

/-- Says what was attempted when a failure occurred. -/
def within (attempt : String) (chain : Chain) : Chain :=
  { chain with links := attempt :: chain.links }

def oneLine (chain : Chain) : String :=
  ": ".intercalate chain.links

/-- A number in a column of five places. -/
def column (number : Nat) : String :=
  let digits := Nat.repr number
  String.ofList (List.replicate (5 - digits.length) ' ') ++ digits

/-- A cause on lines of its own, later lines of its text standing below the first. -/
def causeLines (first others : String) (cause : String) : String :=
  first ++ ("\n" ++ others).intercalate (cause.splitOn "\n")

/-- The causes below one another, numbered from some number on. -/
def numbered : Nat → List String → List String
  | _, [] => []
  | number, cause :: rest =>
    causeLines (column number ++ ": ") "       " cause :: numbered (number + 1) rest

/-- A chain as the last word of a program.  A single cause is not numbered, and
an open chain ends without a line break. -/
def report (chain : Chain) : String :=
  let ending := if chain.isOpen then "" else "\n"
  match chain.links with
  | [] => "Error: " ++ ending
  | [link] => "Error: " ++ link ++ ending
  | [link, cause] =>
    let body := if chain.isOpen then causeLines (column 0 ++ ": ") "       " cause
      else causeLines "    " "    " cause
    "Error: " ++ link ++ "\n\nCaused by:\n" ++ body ++ ending
  | link :: causes =>
    "Error: " ++ link ++ "\n\nCaused by:\n" ++ "\n".intercalate (numbered 0 causes) ++ ending

end Chain

end Lineage
