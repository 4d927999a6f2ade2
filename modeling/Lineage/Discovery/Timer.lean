/-!
# Timers

A timer goes off at the instant at which it is set and then at every full
period.  Whoever starts a timer passes over the first time, so that nothing
happens at the start itself.  A timer that is noticed late goes off again a full
period after it was noticed, and a little lateness does not count.  Time is
counted in milliseconds.  A timer without a period cannot be set.
-/

namespace Lineage

/-- A timer with a period and the instant at which it goes off next. -/
structure Timer where
  period : Nat
  next : Nat
  deriving DecidableEq, Repr

namespace Timer

/-- A timer that goes off at once; none without a period. -/
def set (now period : Nat) : Option Timer :=
  if period = 0 then none else some ⟨period, now⟩

/-- How late a timer may be noticed without being late. -/
def tolerance : Nat := 5

/-- A timer that has gone off and is noticed at an instant. -/
def rewind (timer : Timer) (now : Nat) : Timer :=
  let noticed := if timer.next + tolerance < now then now else timer.next
  { timer with next := noticed + timer.period }

/-- A timer that is started at an instant, where it has gone off for the first
time; none without a period. -/
def start (now period : Nat) : Option Timer :=
  (set now period).map fun timer => timer.rewind now

theorem rewind_next (timer : Timer) :
    timer.rewind timer.next = { timer with next := timer.next + timer.period } := by
  simp [rewind]

theorem start_eq (now period : Nat) :
    start now period = if period = 0 then none else some ⟨period, now + period⟩ := by
  rw [start, set]
  split
  · rfl
  · exact congrArg some (rewind_next ⟨period, now⟩)

end Timer

end Lineage
