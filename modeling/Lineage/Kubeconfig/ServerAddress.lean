import Lineage.Api.Address

/-!
# Addresses of servers

The address of a server names a scheme and, behind two slashes, an authority: a
host with a number of its own or none and, before it, whoever asks.  A path may follow.
An authority may also stand alone, as may a path.
-/

namespace Lineage

/-- Why a text is no address of a server. -/
inductive ServerAddressFault where
  | empty
  | invalidCharacter
  | invalidAuthority
  | invalidFormat
  | tooLong
  | schemeTooLong
  deriving DecidableEq, Repr

namespace ServerAddressFault

def message : ServerAddressFault → String
  | empty => "empty string"
  | invalidCharacter => "invalid uri character"
  | invalidAuthority => "invalid authority"
  | invalidFormat => "invalid format"
  | tooLong => "uri too long"
  | schemeTooLong => "scheme too long"

end ServerAddressFault

namespace ServerAddress

def isAlphanumeric (character : Char) : Bool :=
  ('0' ≤ character && character ≤ '9') || ('A' ≤ character && character ≤ 'Z')
    || ('a' ≤ character && character ≤ 'z')

def isSchemeCharacter (character : Char) : Bool :=
  isAlphanumeric character || ['+', '-', '.', '~'].contains character

/-- Whether a character may stand in an authority without a meaning of its own. -/
def isAuthorityCharacter (character : Char) : Bool :=
  isAlphanumeric character
    || ['!', '$', '&', '\'', '(', ')', '*', '+', ',', '-', '.', ';', '=', '_', '~'].contains
      character

def endsAuthority (character : Char) : Bool :=
  character = '/' || character = '?' || character = '#'

/-- What is known of an authority while it is read.  Colons and percent signs
before an at sign, or in brackets, do not count. -/
structure AuthorityState where
  colons : Nat
  isOpened : Bool
  isClosed : Bool
  hasPercent : Bool
  endsInAt : Bool
  deriving DecidableEq, Repr

namespace AuthorityState

/-- The state before the first character. -/
def start : AuthorityState :=
  ⟨0, false, false, false, false⟩

/-- The number of colons that an authority may have, those in brackets included. -/
def colonLimit : Nat := 8

/-- The state after a character. -/
def step (state : AuthorityState) (character : Char) :
    Except ServerAddressFault AuthorityState :=
  let next := { state with endsInAt := false }
  match character with
  | ':' =>
    if colonLimit ≤ state.colons then .error .invalidAuthority
    else .ok { next with colons := state.colons + 1 }
  | '[' =>
    if state.hasPercent || state.isOpened then .error .invalidAuthority
    else .ok { next with isOpened := true }
  | ']' =>
    if !state.isOpened || state.isClosed then .error .invalidAuthority
    else .ok { next with isClosed := true, colons := 0, hasPercent := false }
  | '@' => .ok { next with endsInAt := true, colons := 0, hasPercent := false }
  | '%' => .ok { next with hasPercent := true }
  | other => if isAuthorityCharacter other then .ok next else .error .invalidCharacter

/-- Accepts an authority that has been read. -/
def finish (state : AuthorityState) : Except ServerAddressFault Unit :=
  if state.isOpened != state.isClosed || 1 < state.colons || state.endsInAt || state.hasPercent then
    .error .invalidAuthority
  else .ok ()

end AuthorityState

/-- Checks the authority at the beginning of a text and gives what follows it. -/
def dropAuthority (characters : List Char) : Except ServerAddressFault (List Char) := do
  let isAuthority (character : Char) : Bool := !endsAuthority character
  let state ← (characters.takeWhile isAuthority).foldlM AuthorityState.step AuthorityState.start
  state.finish
  return characters.dropWhile isAuthority

def schemeLimit : Nat := 64

/-- What follows the scheme of a text and its slashes, if the text has a scheme. -/
def dropScheme (characters : List Char) : Except ServerAddressFault (Option (List Char)) :=
  let scheme := characters.takeWhile isSchemeCharacter
  match characters.dropWhile isSchemeCharacter with
  | ':' :: '/' :: '/' :: rest =>
    if schemeLimit < scheme.length then .error .schemeTooLong else .ok (some rest)
  | _ => .ok none

def checkPath (characters : List Char) : Except ServerAddressFault Unit :=
  if (Address.path? (String.ofList characters)).isSome then .ok () else .error .invalidCharacter

/-- Checks an address that does not begin with a path. -/
def checkFull (characters : List Char) : Except ServerAddressFault Unit := do
  match ← dropScheme characters with
  | none =>
    let rest ← dropAuthority characters
    if rest.isEmpty then return () else throw .invalidFormat
  | some addressed =>
    let rest ← dropAuthority addressed
    if rest.length = addressed.length then throw .invalidFormat
    checkPath rest

def sizeLimit : Nat := 65534

def check (text : String) : Except ServerAddressFault Unit :=
  if sizeLimit < text.utf8ByteSize then .error .tooLong
  else
    match text.toList with
    | [] => .error .empty
    | ['/'] => .ok ()
    | ['*'] => .ok ()
    | [single] => do
      let rest ← dropAuthority [single]
      if rest.isEmpty then return () else throw .invalidCharacter
    | '/' :: rest => checkPath ('/' :: rest)
    | characters => checkFull characters

end ServerAddress

end Lineage
