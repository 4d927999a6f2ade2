import Lineage.Kind

/-!
# Waiting for stores

Whether a store becomes ready is a matter of time: it is ready from some moment
on, or its feed is closed at some moment before it was ready, or neither ever
happens.  Waiting takes the kinds one after another and shares one deadline
among them.  It ends early for a store that is ready or closed, and reports the
kinds whose stores did not become ready.  The deadline must be an instant, and
instants count seconds in words of sixty-four bits, one of them for the sign;
moments and durations are in milliseconds.
-/

namespace Lineage

/-- When a store becomes ready, or when it is settled that it never will. -/
inductive Readiness where
  | readyAt (time : Nat)
  | closedAt (time : Nat)
  | never
  deriving DecidableEq, Repr

/-- Why stores cannot be waited for. -/
inductive SyncFault where
  | noDeadline
  deriving DecidableEq, Repr

namespace SyncFault

def message : SyncFault → String
  | noDeadline => "overflow when adding duration to instant"

end SyncFault

namespace Readiness

/-- The instant some time after another, if there is one. -/
def deadline? (start timeout : Nat) : Option Nat :=
  if (start + timeout) / 1000 < Nat.pow 2 63 then some (start + timeout) else none

/-- Waits for one store from some moment on: whether it became ready, and the
moment at which that was settled.  What is settled already is seen even when
the deadline has passed. -/
def await (readiness : Readiness) (deadline now : Nat) : Bool × Nat :=
  match readiness with
  | readyAt time =>
    if time ≤ now then (true, now)
    else if time ≤ deadline then (true, time)
    else (false, max now deadline)
  | closedAt time =>
    if time ≤ now then (false, now)
    else if time ≤ deadline then (false, time)
    else (false, max now deadline)
  | never => (false, max now deadline)

/-- Waits for the stores of several kinds in turn: the kinds that did not become
ready, and the moment at which the waiting ended. -/
def awaitAll (schedule : WorkloadKind → Readiness) (deadline : Nat) :
    Nat → List WorkloadKind → List WorkloadKind × Nat
  | now, [] => ([], now)
  | now, kind :: others =>
    let (isReady, settled) := (schedule kind).await deadline now
    let (pending, finished) := awaitAll schedule deadline settled others
    (if isReady then pending else kind :: pending, finished)

/-- Waits from a moment on for at most some time. -/
def waitForSync (schedule : WorkloadKind → Readiness) (kinds : KindSet) (start timeout : Nat) :
    Except SyncFault (List WorkloadKind × Nat) :=
  match deadline? start timeout with
  | some deadline => .ok (awaitAll schedule deadline start kinds.toList)
  | none => .error .noDeadline

end Readiness

end Lineage
