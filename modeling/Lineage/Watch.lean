import Lineage.Api.Client
import Lineage.Api.Object
import Lineage.GroupVersion

/-!
# Following a collection

A store is fed by a watch, which first lists its collection, page by page, and
then reads the notices of changes.  Where something fails the watch pauses; the
pauses grow as long as nothing succeeds in between.  After a failed list, or
when the list has become too old, everything is listed again.  An object without
a name ends the feed.
-/

namespace Lineage

/-- What a watch does next. -/
inductive WatchPhase where
  | listing
  | reading (notices : List Notice)
  | silent
  deriving DecidableEq, Repr

/-- A watch on a collection: what it does next, when, and how many failures it
has had in a row. -/
structure Watch where
  phase : WatchPhase
  due : Nat
  failures : Nat
  deriving DecidableEq, Repr

namespace Watch

variable {σ : Type}

/-- A watch that begins at some instant. -/
def start (now : Nat) : Watch :=
  ⟨.listing, now, 0⟩

def due? (watch : Watch) : Option Nat :=
  match watch.phase with
  | .silent => none
  | _ => some watch.due

/-- The pause after some number of failures in a row, in milliseconds. -/
def pause (failures : Nat) : Nat :=
  min 30000 (1000 * Nat.pow 2 failures)

/-- A watch that has failed and goes on after a pause. -/
def retry (watch : Watch) (phase : WatchPhase) (now : Nat) : Watch :=
  ⟨phase, now + pause watch.failures, watch.failures + 1⟩

def rest (now : Nat) : Watch :=
  ⟨.silent, now, 0⟩

/-- The address of the collection of a kind, in one namespace or in all. -/
def address (kind : WorkloadKind) (ns : Option String) : String :=
  let groupVersion := (GroupVersion.parse kind.apiVersion).getD ⟨"", kind.apiVersion⟩
  Address.ofSegments (Api.root groupVersion.group groupVersion.version
    ++ Api.namespaceSegments ns ++ [kind.plural])

/-- How a list ends. -/
inductive Listed where
  | complete
  | failed
  | nameless
  deriving DecidableEq, Repr

/-- The events of the objects of a page, up to the first without a name, and
whether there is one. -/
def gather : List Metadata → List StoreEvent × Bool
  | [] => ([], false)
  | metadata :: others =>
    match metadata.stored? with
    | none => ([], true)
    | some object =>
      let (events, isNameless) := gather others
      (.gather object :: events, isNameless)

/-- Reads the pages of a list, at most the given number of them. -/
def readPages (api : Api σ) (kind : WorkloadKind) (address : String) :
    Nat → StateM σ (List StoreEvent × Listed)
  | 0 => return ([], .failed)
  | pages + 1 => do
    match ← api.fetch (Page.decode? kind) address with
    | .error _ => return ([], .failed)
    | .ok page =>
      if !page.isUsable then return ([], .failed)
      match gather page.objects with
      | (events, true) => return (events, .nameless)
      | (events, false) =>
        if page.continuation.isEmpty then return (events, .complete)
        let (others, ending) ← readPages api kind address pages
        return (events ++ others, ending)

/-- Reads notices up to the first that stops the reading. -/
def read (watch : Watch) (now : Nat) : List Notice → List StoreEvent × Watch
  | [] => ([], rest now)
  | .written object :: others =>
    let (events, watch) := read { watch with failures := 0 } now others
    (.write object :: events, watch)
  | .deleted object :: others =>
    let (events, watch) := read { watch with failures := 0 } now others
    (.delete object :: events, watch)
  | .passed :: others => read watch now others
  | .outdated :: _ => ([], watch.retry .listing now)
  | .broken :: others => ([], watch.retry (.reading others) now)
  | .nameless :: _ => ([.close], rest now)

/-- Lists a collection and starts to read the notices about it. -/
def list (api : Api σ) (pages : Nat) (kind : WorkloadKind) (ns : Option String)
    (watch : Watch) (now : Nat) : StateM σ (List StoreEvent × Watch) := do
  let address := address kind ns
  match ← readPages api kind address pages with
  | (events, .failed) => return (.begin :: events, watch.retry .listing now)
  | (events, .nameless) => return (.begin :: events ++ [.close], rest now)
  | (events, .complete) =>
    let path := (Address.path? address).getD address
    let notices := (← api.watch path).map (Notice.ofJson kind)
    let (changes, watch) := read { watch with failures := 0 } now notices
    return (.begin :: events ++ .finish :: changes, watch)

/-- Lets a watch do what is due at an instant. -/
def step (api : Api σ) (pages : Nat) (kind : WorkloadKind) (ns : Option String)
    (watch : Watch) (now : Nat) : StateM σ (List StoreEvent × Watch) :=
  match watch.phase with
  | .listing => list api pages kind ns watch now
  | .reading notices => return read watch now notices
  | .silent => return ([], watch)

end Watch

end Lineage
