import Lineage.Live
import Lineage.Proofs.History
import Mathlib.Order.Lattice

/-!
# Waiting until one deadline

Stores are waited for one after another, and all of them share one deadline.  How
long one store takes shifts the moment at which the next one is looked at, but
never past the deadline, and what is settled by then is seen at once.  So the
answer is the same as if each store were watched alone: the kinds that are not
ready by the deadline.  The waiting ends as soon as the last store is settled, or
at the deadline.  All this needs that there is an instant at which the time is up;
where the clock cannot count that far nothing is waited for at all.

In a cluster that follows an API server the kinds that are reported are those
whose stores are not ready once everything has been done that is due until the
deadline.  A store that is ready stays ready, whatever it hears afterwards.
-/

namespace Lineage

namespace KindSet

def without (kinds : KindSet) (kind : WorkloadKind) : KindSet :=
  ⟨fun other => kinds.has other && other ≠ kind⟩

theorem mem_toList {kinds : KindSet} {kind : WorkloadKind} :
    kind ∈ kinds.toList ↔ kinds.has kind = true := by
  have listed : kind ∈ WorkloadKind.all := by cases kind <;> decide
  simp [toList, listed]

end KindSet

namespace Readiness

def isReadyBy (moment : Nat) : Readiness → Bool
  | readyAt time => time ≤ moment
  | _ => false

/-- The moment at which the waiting for a store would end that is watched alone
from the beginning of time. -/
def settledBy (deadline : Nat) : Readiness → Nat
  | readyAt time => min time deadline
  | closedAt time => min time deadline
  | never => deadline

/-- The moment at which the waiting for some stores ends. -/
def lastSettled (schedule : WorkloadKind → Readiness) (deadline now : Nat)
    (kinds : List WorkloadKind) : Nat :=
  kinds.foldl (fun now kind => max now ((schedule kind).settledBy deadline)) now

section Await

variable {schedule : WorkloadKind → Readiness} {deadline now : Nat}

theorem settledBy_le (readiness : Readiness) (deadline : Nat) :
    readiness.settledBy deadline ≤ deadline := by
  cases readiness with
  | readyAt time => exact Nat.min_le_right ..
  | closedAt time => exact Nat.min_le_right ..
  | never => exact Nat.le_refl _

/-- Waiting for one store tells whether it is ready by the deadline, whenever the
waiting begins before. -/
theorem await_eq (readiness : Readiness) (early : now ≤ deadline) :
    readiness.await deadline now =
      (readiness.isReadyBy deadline, max now (readiness.settledBy deadline)) := by
  cases readiness with
  | readyAt time =>
      simp only [await, isReadyBy, settledBy]
      split
      · rw [decide_eq_true (by omega), max_eq_left (by omega)]
      · split
        · rw [decide_eq_true (by omega), max_eq_right (by omega), min_eq_left (by omega)]
        · rw [decide_eq_false (by omega), min_eq_right (by omega)]
  | closedAt time =>
      simp only [await, isReadyBy, settledBy]
      split
      · rw [max_eq_left (by omega)]
      · split
        · rw [max_eq_right (by omega), min_eq_left (by omega)]
        · rw [min_eq_right (by omega)]
  | never => rfl

theorem awaitAll_eq (schedule : WorkloadKind → Readiness) (early : now ≤ deadline)
    (kinds : List WorkloadKind) :
    awaitAll schedule deadline now kinds =
      (kinds.filter fun kind => !(schedule kind).isReadyBy deadline,
        lastSettled schedule deadline now kinds) := by
  induction kinds generalizing now with
  | nil => rfl
  | cons kind kinds ih =>
      have still : max now ((schedule kind).settledBy deadline) ≤ deadline :=
        max_le early (settledBy_le ..)
      simp only [awaitAll, await_eq (schedule kind) early, ih still]
      cases ready : (schedule kind).isReadyBy deadline with
      | true => simp [ready, lastSettled]
      | false => simp [ready, lastSettled]

theorem lastSettled_le_iff {kinds : List WorkloadKind} {bound : Nat} :
    lastSettled schedule deadline now kinds ≤ bound ↔
      now ≤ bound ∧ ∀ kind ∈ kinds, (schedule kind).settledBy deadline ≤ bound := by
  induction kinds generalizing now with
  | nil => simp [lastSettled]
  | cons kind kinds ih =>
      rw [lastSettled, List.foldl_cons, ← lastSettled, ih, Nat.max_le, and_assoc,
        List.forall_mem_cons]

end Await

section Deadlines

variable {start timeout : Nat}

/-- There is an instant some time after another.  The seconds of an instant are
counted in a word with a sign. -/
def HasDeadline (start timeout : Nat) : Prop :=
  ∃ instant : Int64, instant.toInt = ((start + timeout) / 1000 : Nat)

theorem hasDeadline_iff_lt :
    HasDeadline start timeout ↔ (start + timeout) / 1000 < 9223372036854775808 := by
  constructor
  · rintro ⟨instant, same⟩
    have word := instant.toInt_lt
    omega
  · intro early
    refine ⟨Int64.ofInt ((start + timeout) / 1000 : Nat), Int64.toInt_ofInt_of_le ?_ ?_⟩ <;> omega

instance : Decidable (HasDeadline start timeout) :=
  decidable_of_iff _ hasDeadline_iff_lt.symm

theorem deadline?_eq_some (counted : HasDeadline start timeout) :
    deadline? start timeout = some (start + timeout) :=
  if_pos (hasDeadline_iff_lt.mp counted)

theorem deadline?_eq_none (uncounted : ¬HasDeadline start timeout) :
    deadline? start timeout = none :=
  if_neg (mt hasDeadline_iff_lt.mpr uncounted)

end Deadlines

section Sync

variable {schedule : WorkloadKind → Readiness} {kinds : KindSet} {start timeout finished : Nat}
  {pending : List WorkloadKind}

theorem waitForSync_eq_ok (schedule : WorkloadKind → Readiness) (kinds : KindSet)
    (counted : HasDeadline start timeout) :
    waitForSync schedule kinds start timeout =
      .ok (kinds.toList.filter fun kind => !(schedule kind).isReadyBy (start + timeout),
        lastSettled schedule (start + timeout) start kinds.toList) := by
  rw [waitForSync, deadline?_eq_some counted]
  exact congrArg Except.ok (awaitAll_eq schedule (Nat.le_add_right ..) kinds.toList)

theorem waitForSync_eq_error (schedule : WorkloadKind → Readiness) (kinds : KindSet)
    (uncounted : ¬HasDeadline start timeout) :
    waitForSync schedule kinds start timeout = .error .noDeadline := by
  rw [waitForSync, deadline?_eq_none uncounted]

/-- Where there is an answer there is a deadline, and the answer tells what is settled
by then. -/
theorem waitForSync_eq_ok_iff :
    waitForSync schedule kinds start timeout = .ok (pending, finished) ↔
      HasDeadline start timeout ∧
      pending = (kinds.toList.filter fun kind => !(schedule kind).isReadyBy (start + timeout)) ∧
      finished = lastSettled schedule (start + timeout) start kinds.toList := by
  by_cases counted : HasDeadline start timeout
  · rw [waitForSync_eq_ok schedule kinds counted, Except.ok.injEq, Prod.mk.injEq,
      and_iff_right counted]
    exact and_congr eq_comm eq_comm
  · rw [waitForSync_eq_error schedule kinds counted]
    simp [counted]

theorem pending_eq_filter
    (waited : waitForSync schedule kinds start timeout = .ok (pending, finished)) :
    pending = WorkloadKind.all.filter fun kind =>
      kinds.has kind && !(schedule kind).isReadyBy (start + timeout) := by
  rw [(waitForSync_eq_ok_iff.mp waited).2.1, KindSet.toList, List.filter_filter]
  simp only [Bool.and_comm]

theorem mem_pending_iff {kind : WorkloadKind}
    (waited : waitForSync schedule kinds start timeout = .ok (pending, finished)) :
    kind ∈ pending ↔
      kinds.has kind = true ∧ (schedule kind).isReadyBy (start + timeout) = false := by
  rw [(waitForSync_eq_ok_iff.mp waited).2.1]
  simp [KindSet.mem_toList]

theorem finished_le_iff {bound : Nat}
    (waited : waitForSync schedule kinds start timeout = .ok (pending, finished)) :
    finished ≤ bound ↔
      start ≤ bound ∧ ∀ kind, kinds.has kind = true →
        (schedule kind).settledBy (start + timeout) ≤ bound := by
  rw [(waitForSync_eq_ok_iff.mp waited).2.2]
  simp only [lastSettled_le_iff, KindSet.mem_toList]

theorem le_finished (waited : waitForSync schedule kinds start timeout = .ok (pending, finished)) :
    start ≤ finished :=
  ((finished_le_iff waited).mp (Nat.le_refl _)).1

theorem finished_le (waited : waitForSync schedule kinds start timeout = .ok (pending, finished)) :
    finished ≤ start + timeout :=
  (finished_le_iff waited).mpr ⟨Nat.le_add_right .., fun _ _ => settledBy_le ..⟩

/-- One more kind prolongs the waiting until its store is settled, if that takes
longest. -/
theorem finished_eq_max {kind : WorkloadKind} {others : List WorkloadKind} {ended : Nat}
    (waited : waitForSync schedule kinds start timeout = .ok (pending, finished))
    (enabled : kinds.has kind = true)
    (without : waitForSync schedule (kinds.without kind) start timeout = .ok (others, ended)) :
    finished = max ended ((schedule kind).settledBy (start + timeout)) := by
  refine eq_of_forall_ge_iff fun bound => ?_
  simp only [Nat.max_le, finished_le_iff waited, finished_le_iff without, KindSet.without,
    Bool.and_eq_true, decide_eq_true_eq]
  constructor
  · rintro ⟨begun, settled⟩
    exact ⟨⟨begun, fun other ⟨also, _⟩ => settled other also⟩, settled kind enabled⟩
  · rintro ⟨⟨begun, others⟩, settled⟩
    refine ⟨begun, fun other also => ?_⟩
    by_cases same : other = kind
    · rw [same]
      exact settled
    · exact others other ⟨also, same⟩

/-- A store that is ready by the deadline was ready when the waiting ended. -/
theorem isReadyBy_finished {kind : WorkloadKind}
    (waited : waitForSync schedule kinds start timeout = .ok (pending, finished))
    (enabled : kinds.has kind = true)
    (ready : (schedule kind).isReadyBy (start + timeout) = true) :
    (schedule kind).isReadyBy finished = true := by
  have settled := ((finished_le_iff waited).mp (Nat.le_refl finished)).2 kind enabled
  cases told : schedule kind with
  | readyAt time =>
      rw [told, settledBy] at settled
      rw [told, isReadyBy, decide_eq_true_eq] at ready
      rw [isReadyBy, decide_eq_true_eq]
      rwa [min_eq_left ready] at settled
  | _ => simp [told, isReadyBy] at ready

theorem isReadyBy_mono {readiness : Readiness} {moment later : Nat} (passes : moment ≤ later)
    (ready : readiness.isReadyBy moment = true) : readiness.isReadyBy later = true := by
  cases readiness with
  | readyAt time =>
      rw [isReadyBy, decide_eq_true_eq] at ready ⊢
      exact ready.trans passes
  | _ => cases ready

/-- What is not reported once is not reported by any later waiting. -/
theorem not_mem_pending_later {kind : WorkloadKind} {later also ended : Nat}
    {reported : List WorkloadKind}
    (waited : waitForSync schedule kinds start timeout = .ok (pending, finished))
    (enabled : kinds.has kind = true) (absent : kind ∉ pending) (after : finished ≤ later)
    (again : waitForSync schedule kinds later also = .ok (reported, ended)) :
    kind ∉ reported := by
  intro listed
  have ready : (schedule kind).isReadyBy (start + timeout) = true := by
    rw [← Bool.not_eq_false]
    exact fun late => absent ((mem_pending_iff waited).mpr ⟨enabled, late⟩)
  have still := isReadyBy_mono (after.trans (Nat.le_add_right later also))
    (isReadyBy_finished waited enabled ready)
  rw [((mem_pending_iff again).mp listed).2] at still
  cases still

/-- Waiting for the stores of some kinds is a matter of the deadline.  If the clock
cannot count up to it, the waiting breaks off at once, whatever the stores do.
Otherwise exactly the kinds are reported whose stores are not ready by the deadline,
in the order of kinds and each once.  A store that is ready by then is not reported,
however long the others take, and a store that is closed before is always reported and
prolongs the waiting at most until it is closed.  All waiting together takes at most
the given time, and what is not reported once is not reported by any later waiting. -/
theorem waitForSync_shares_deadline (schedule : WorkloadKind → Readiness) (kinds : KindSet)
    (start timeout : Nat) :
    (¬HasDeadline start timeout →
      waitForSync schedule kinds start timeout = .error .noDeadline) ∧
    (HasDeadline start timeout → ∃ pending finished,
      waitForSync schedule kinds start timeout = .ok (pending, finished) ∧
      pending = (WorkloadKind.all.filter fun kind =>
        kinds.has kind && !(schedule kind).isReadyBy (start + timeout)) ∧
      pending.Nodup ∧
      (∀ kind time, schedule kind = readyAt time → time ≤ start + timeout → kind ∉ pending) ∧
      (∀ kind time, kinds.has kind = true → schedule kind = closedAt time →
        kind ∈ pending ∧ ∃ others ended,
          waitForSync schedule (kinds.without kind) start timeout = .ok (others, ended) ∧
          finished = max ended (min time (start + timeout))) ∧
      start ≤ finished ∧
      finished ≤ start + timeout ∧
      ∀ kind, kinds.has kind = true → kind ∉ pending → ∀ later also, finished ≤ later →
        ∀ reported ended, waitForSync schedule kinds later also = .ok (reported, ended) →
          kind ∉ reported) := by
  refine ⟨waitForSync_eq_error schedule kinds, fun counted => ?_⟩
  have waited := waitForSync_eq_ok schedule kinds counted
  have listed : WorkloadKind.all.Nodup := by decide
  refine ⟨_, _, waited, pending_eq_filter waited, ?_, ?_, ?_, le_finished waited,
    finished_le waited, ?_⟩
  · rw [pending_eq_filter waited]
    exact listed.filter _
  · intro kind time told inTime reported
    have late := ((mem_pending_iff waited).mp reported).2
    rw [told, isReadyBy, decide_eq_false_iff_not] at late
    exact late inTime
  · intro kind time enabled told
    have without := waitForSync_eq_ok schedule (kinds.without kind) counted
    refine ⟨(mem_pending_iff waited).mpr ⟨enabled, by rw [told]; rfl⟩, _, _, without, ?_⟩
    rw [finished_eq_max waited enabled without, told]
    rfl
  · intro kind enabled absent later also after reported ended again
    exact not_mem_pending_later waited enabled absent after again

/-- The first store is never ready, the second one becomes ready while it is waited
for, the third one is closed, and the last one is ready from the start. -/
def unevenly : WorkloadKind → Readiness
  | .daemonSet => never
  | .deployment => readyAt 5
  | .replicaSet => closedAt 3
  | _ => readyAt 0

/-- The first store uses up all the time, and the second one is seen to be ready
nevertheless.  No store is looked at if there is more time than the clock can count. -/
theorem waitForSync_shares_deadline_unevenly :
    (∃ finished, finished ≤ 10 ∧
      waitForSync unevenly KindSet.full 0 10 = .ok ([.daemonSet, .replicaSet], finished) ∧
      ∃ reported ended, waitForSync unevenly KindSet.full 10 0 = .ok (reported, ended) ∧
        .deployment ∉ reported) ∧
    waitForSync unevenly KindSet.full 1 9223372036854775807999 = .error .noDeadline := by
  refine ⟨?_, (waitForSync_shares_deadline unevenly KindSet.full _ _).1 (by decide)⟩
  have begun : HasDeadline 0 10 := by decide
  obtain ⟨pending, finished, waited, filtered, _, ready, _, _, bounded, later⟩ :=
    (waitForSync_shares_deadline unevenly KindSet.full 0 10).2 begun
  have two : pending = [.daemonSet, .replicaSet] := by
    rw [filtered]
    decide
  have absent := ready .deployment 5 rfl (by decide)
  have soon : HasDeadline 10 0 := by decide
  have again := waitForSync_eq_ok unevenly KindSet.full soon
  refine ⟨finished, bounded, two ▸ waited, _, _, again, ?_⟩
  exact later .deployment rfl absent 10 0 bounded _ _ again

/-- The longest time that settings can give leads to no instant, so that not even stores
that are ready from the start are waited for. -/
theorem waitForSync_endless :
    waitForSync (fun _ => readyAt 0) KindSet.full 0 18446744073709551615000 =
      .error .noDeadline :=
  waitForSync_eq_error _ _ (by decide)

end Sync

end Readiness

namespace Store

variable {store : Store}

theorem isReady_step (ready : store.isReady = true) (event : StoreEvent) :
    (store.step event).isReady = true := by
  unfold step
  split
  · exact ready
  · cases event with
    | finish => rfl
    | _ => exact ready

theorem isReady_run (ready : store.isReady = true) (events : List StoreEvent) :
    (store.run events).isReady = true := by
  induction events generalizing store with
  | nil => exact ready
  | cons event events ih => exact ih (isReady_step ready event)

end Store

namespace Live

variable {σ : Type} {api : Api σ} {live later : Live σ} {kind : WorkloadKind}

/-- The stores of a cluster have heard of some events, and of nothing else. -/
def Hears (live later : Live σ) : Prop :=
  ∃ events, later.mirror = live.mirror.map fun mirror => mirror.run events

theorem Hears.refl (live : Live σ) : live.Hears live := by
  refine ⟨[], ?_⟩
  cases live.mirror <;> rfl

theorem Hears.trans {latest : Live σ} (first : live.Hears later) (second : later.Hears latest) :
    live.Hears latest := by
  obtain ⟨events, before⟩ := first
  obtain ⟨more, after⟩ := second
  refine ⟨events ++ more, ?_⟩
  rw [after, before, Option.map_map]
  simp only [Function.comp_def, Mirror.run, List.foldl_append]

theorem hears_perform (api : Api σ) (live : Live σ) (task : Task) :
    live.Hears (perform api live task) := by
  cases task with
  | discovery timer => exact Hears.refl live
  | watching kind watch => exact ⟨_, rfl⟩

theorem now_perform (api : Api σ) (live : Live σ) (task : Task) :
    (perform api live task).now = live.now := by
  cases task <;> rfl

theorem hears_performUntil (api : Api σ) (limit steps : Nat) (live : Live σ) :
    live.Hears (performUntil api limit steps live) := by
  induction steps generalizing live with
  | zero => exact Hears.refl live
  | succ steps ih =>
      rw [performUntil]
      cases earliest? live.tasks with
      | none => exact Hears.refl live
      | some found =>
          obtain ⟨due, task⟩ := found
          by_cases early : due ≤ limit
          · have moved : live.Hears { live with now := max live.now due } := Hears.refl live
            simp only [if_pos early]
            exact (moved.trans (hears_perform api _ task)).trans (ih _)
          · simp only [if_neg early]
            exact Hears.refl live

theorem Hears.isReady (hears : live.Hears later) (ready : live.isReady kind = true) :
    later.isReady kind = true := by
  obtain ⟨events, mirror⟩ := hears
  cases before : live.mirror with
  | none => simp [Live.isReady, before] at ready
  | some stores =>
      rw [Live.isReady, before, Option.any_some] at ready
      rw [Live.isReady, mirror, before, Option.map_some, Option.any_some, Mirror.stores_run]
      exact Store.isReady_run ready _

/-- A store that is closed becomes ready no more. -/
theorem Hears.isReady_of_isClosed (hears : live.Hears later) (closed : live.isClosed kind = true) :
    later.isReady kind = live.isReady kind := by
  obtain ⟨events, mirror⟩ := hears
  cases before : live.mirror with
  | none => simp [Live.isClosed, before] at closed
  | some stores =>
      rw [Live.isClosed, before, Option.any_some] at closed
      rw [Live.isReady, mirror, Live.isReady, before, Option.map_some, Option.any_some,
        Option.any_some, Mirror.stores_run, Store.run_of_isClosed closed]

theorem isReadyBy_settle_of_known (api : Api σ) {limit : Nat} (steps : Nat)
    (early : live.now ≤ limit) (known : live.isReady kind = true ∨ live.isClosed kind = true) :
    (settle api limit kind steps live).isReadyBy limit =
      (performUntil api limit steps live).isReady kind := by
  have hears := hears_performUntil api limit steps live
  unfold settle
  cases ready : live.isReady kind with
  | true =>
      rw [if_pos rfl, hears.isReady ready]
      exact decide_eq_true early
  | false =>
      have closed := known.resolve_left (by simp [ready])
      rw [if_neg Bool.false_ne_true, if_pos closed, hears.isReady_of_isClosed closed, ready]
      rfl

/-- What is settled about a store up to an instant is whether it is ready then. -/
theorem isReadyBy_settle (api : Api σ) (kind : WorkloadKind) {limit : Nat} (steps : Nat)
    (early : live.now ≤ limit) :
    (settle api limit kind steps live).isReadyBy limit =
      (performUntil api limit steps live).isReady kind := by
  induction steps generalizing live with
  | zero =>
      by_cases known : live.isReady kind = true ∨ live.isClosed kind = true
      · exact isReadyBy_settle_of_known api 0 early known
      · obtain ⟨unready, opened⟩ := not_or.mp known
        rw [settle, if_neg unready, if_neg opened, performUntil,
          Bool.eq_false_of_not_eq_true unready]
        rfl
  | succ steps ih =>
      by_cases known : live.isReady kind = true ∨ live.isClosed kind = true
      · exact isReadyBy_settle_of_known api (steps + 1) early known
      · obtain ⟨unready, opened⟩ := not_or.mp known
        rw [settle, if_neg unready, if_neg opened, performUntil]
        cases earliest? live.tasks with
        | none => exact (Bool.eq_false_of_not_eq_true unready).symm
        | some found =>
            obtain ⟨due, task⟩ := found
            by_cases inTime : due ≤ limit
            · simp only [if_pos inTime]
              refine ih ?_
              rw [now_perform]
              exact Nat.max_le.mpr ⟨early, inTime⟩
            · simp only [if_neg inTime]
              exact (Bool.eq_false_of_not_eq_true unready).symm

/-- A cluster is not touched if the clock cannot count up to the deadline. -/
theorem waitForSync_eq_error (api : Api σ) (live : Live σ) {timeout : Nat}
    (uncounted : ¬Readiness.HasDeadline live.now timeout) :
    waitForSync api timeout live = (.error .noDeadline, live) := by
  simp only [waitForSync, Readiness.waitForSync_eq_error _ _ uncounted]

theorem waitForSync_eq_ok (api : Api σ) (live : Live σ) {timeout : Nat}
    (counted : Readiness.HasDeadline live.now timeout) :
    ∃ pending finished, waitForSync api timeout live = (.ok pending, live.advance api finished) ∧
      Readiness.waitForSync (live.readiness api (live.now + timeout))
        ((live.mirror.map Mirror.kinds).getD (KindSet.ofList [])) live.now timeout =
          .ok (pending, finished) := by
  have waited := Readiness.waitForSync_eq_ok (live.readiness api (live.now + timeout))
    ((live.mirror.map Mirror.kinds).getD (KindSet.ofList [])) counted
  refine ⟨_, _, ?_, waited⟩
  simp only [waitForSync, waited]

/-- Waiting for the stores of a cluster reports the followed kinds whose stores are
not ready when everything has been done that is due until the deadline. -/
theorem pending_waitForSync (api : Api σ) {timeout : Nat}
    (counted : Readiness.HasDeadline live.now timeout) :
    (waitForSync api timeout live).1 =
      .ok (WorkloadKind.all.filter fun kind =>
        live.mirror.any (fun mirror => mirror.kinds.has kind) &&
          !(live.advance api (live.now + timeout)).isReady kind) := by
  obtain ⟨pending, finished, reported, waited⟩ := waitForSync_eq_ok api live counted
  have followed : ∀ kind, ((live.mirror.map Mirror.kinds).getD (KindSet.ofList [])).has kind =
      live.mirror.any fun mirror => mirror.kinds.has kind := by
    intro kind
    cases live.mirror <;> rfl
  rw [reported, Readiness.pending_eq_filter waited]
  refine congrArg Except.ok (List.filter_congr fun kind _ => ?_)
  rw [followed, Live.readiness, isReadyBy_settle api kind _ (Nat.le_add_right ..)]
  rfl

end Live

end Lineage
