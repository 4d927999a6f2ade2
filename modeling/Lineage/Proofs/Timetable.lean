import Lineage.Live
import Mathlib.Algebra.Order.BigOperators.Group.List
import Mathlib.Algebra.Order.Ring.Nat
import Mathlib.Data.List.Nodup
import Mathlib.Data.List.Perm.Subperm
import Mathlib.Data.List.Range

/-!
# The timetable of surveys

Once a timer is started, discovery is repeated at every full period after the
start until the timer is stopped: once at each of these instants, never at the
start itself, and never after the stop.  It does not matter what else happens to
the cluster meanwhile, what the watches do, or which surveys fail.  A survey that
fails leaves the index as it was.  Without a period discovery is never repeated.

Time passes in steps from one task to the next.  Each step takes the task that is
due first, and puts off what it carries out to a later instant, so the work that
remains up to some instant becomes less with every step, and the steps that are
allowed suffice for all of it.
-/

namespace Lineage

namespace Watch

variable {σ : Type}

/-- Whatever is due later than at an instant, or not at all. -/
def Later (now : Nat) (watch : Watch) : Prop :=
  ∀ due, watch.due? = some due → now < due

theorem later_rest (now : Nat) : (rest now).Later now := by
  intro due found
  cases found

theorem later_retry (watch : Watch) {phase : WatchPhase} (now : Nat) :
    (watch.retry phase now).Later now := by
  have paused : 0 < pause watch.failures := by
    have power : 0 < Nat.pow 2 watch.failures := Nat.pow_pos (by decide)
    simp only [pause]
    omega
  intro due found
  cases phase <;> simp only [due?, retry, Option.some.injEq, reduceCtorEq] at found <;> omega

theorem later_read (watch : Watch) (now : Nat) (notices : List Notice) :
    (watch.read now notices).2.Later now := by
  induction notices generalizing watch with
  | nil => exact later_rest now
  | cons notice others ih =>
      cases notice with
      | written object => exact ih _
      | deleted object => exact ih _
      | passed => exact ih _
      | outdated => exact later_retry watch now
      | broken => exact later_retry watch now
      | nameless => exact later_rest now

theorem later_list (api : Api σ) (pages : Nat) (kind : WorkloadKind) (ns : Option String)
    (watch : Watch) (now : Nat) (server : σ) :
    (watch.list api pages kind ns now server).1.2.Later now := by
  rcases read : readPages api kind (address kind ns) pages server with ⟨⟨events, ending⟩, next⟩
  simp only [list, bind, StateT.bind, read]
  cases ending with
  | failed => exact later_retry watch now
  | nameless => exact later_rest now
  | complete => exact later_read _ now _

/-- What a watch does at an instant puts off the rest of its work. -/
theorem later_step (api : Api σ) (pages : Nat) (kind : WorkloadKind) (ns : Option String)
    (watch : Watch) (now : Nat) (server : σ) :
    (watch.step api pages kind ns now server).1.2.Later now := by
  unfold step
  cases phase : watch.phase with
  | listing => exact later_list api pages kind ns watch now server
  | reading notices => exact later_read watch now notices
  | silent =>
      intro due found
      have idle : watch.due? = some due := found
      simp [due?, phase] at idle

end Watch

namespace Live

variable {σ : Type} {api : Api σ} {live : Live σ}

section Earliest

variable {tasks : List Task} {task : Task} {due : Nat}

theorem earliest?_eq_none_iff : earliest? tasks = none ↔ ∀ task ∈ tasks, task.due? = none := by
  induction tasks with
  | nil => simp [earliest?]
  | cons first others ih =>
      rw [earliest?, List.forall_mem_cons, ← ih]
      cases first.due? <;> cases earliest? others <;> simp
      split <;> simp

/-- The earliest task is due, and no other task is due before it. -/
theorem earliest?_spec (found : earliest? tasks = some (due, task)) :
    task ∈ tasks ∧ task.due? = some due ∧
      ∀ other ∈ tasks, ∀ instant, other.due? = some instant → due ≤ instant := by
  induction tasks generalizing due task with
  | nil => cases found
  | cons first others ih =>
      rw [earliest?] at found
      cases firstDue : first.due? with
      | none =>
          have rest : earliest? others = some (due, task) := by simpa [firstDue] using found
          obtain ⟨member, isDue, least⟩ := ih rest
          refine ⟨List.mem_cons_of_mem first member, isDue, ?_⟩
          rintro other member instant otherDue
          rcases List.mem_cons.mp member with rfl | inside
          · rw [firstDue] at otherDue
            cases otherDue
          · exact least other inside instant otherDue
      | some firstInstant =>
          cases rest : earliest? others with
          | none =>
              obtain ⟨rfl, rfl⟩ : firstInstant = due ∧ first = task := by
                simpa [firstDue, rest] using found
              refine ⟨List.mem_cons_self, firstDue, ?_⟩
              rintro other member instant otherDue
              rcases List.mem_cons.mp member with rfl | inside
              · rw [firstDue] at otherDue
                exact (Option.some.inj otherDue).le
              · rw [earliest?_eq_none_iff.mp rest other inside] at otherDue
                cases otherDue
          | some next =>
              obtain ⟨nextDue, nextTask⟩ := next
              obtain ⟨member, isDue, least⟩ := ih rest
              simp only [firstDue, rest] at found
              split at found
              · rename_i early
                obtain ⟨rfl, rfl⟩ : firstInstant = due ∧ first = task := by simpa using found
                refine ⟨List.mem_cons_self, firstDue, ?_⟩
                rintro other member instant otherDue
                rcases List.mem_cons.mp member with rfl | inside
                · rw [firstDue] at otherDue
                  exact (Option.some.inj otherDue).le
                · exact early.trans (least other inside instant otherDue)
              · rename_i late
                obtain ⟨rfl, rfl⟩ : nextDue = due ∧ nextTask = task := by simpa using found
                refine ⟨List.mem_cons_of_mem first member, isDue, ?_⟩
                rintro other member instant otherDue
                rcases List.mem_cons.mp member with rfl | inside
                · rw [firstDue] at otherDue
                  have same := Option.some.inj otherDue
                  omega
                · exact least other inside instant otherDue

end Earliest

/-- A cluster in which each kind is watched once and nothing is overdue. -/
structure Timely (live : Live σ) : Prop where
  distinct : (live.watches.map Prod.fst).Nodup
  watching : ∀ entry ∈ live.watches, ∀ due, entry.2.due? = some due → live.now ≤ due
  timing : ∀ timer, live.timer = some timer → 0 < timer.period ∧ live.now ≤ timer.next

/-- What remains to be done about a task up to an instant. -/
def remaining (limit : Nat) : Option Nat → Nat
  | none => 0
  | some due => limit + 1 - due

/-- What remains to be done by some watches up to an instant. -/
def watchLoad (limit : Nat) (watches : List (WorkloadKind × Watch)) : Nat :=
  (watches.map fun entry => remaining limit entry.2.due?).sum

/-- What remains to be done in a cluster up to an instant. -/
def load (live : Live σ) (limit : Nat) : Nat :=
  watchLoad limit live.watches + remaining limit (live.timer.map Timer.next)

theorem Timely.load_le (timely : live.Timely) (limit : Nat) :
    live.load limit ≤ live.taskBound limit := by
  have few : live.watches.length ≤ WorkloadKind.all.length := by
    have inside : live.watches.map Prod.fst ⊆ WorkloadKind.all := by
      intro kind _
      cases kind <;> decide
    have shorter := (List.subperm_of_subset timely.distinct inside).length_le
    rwa [List.length_map] at shorter
  have watched : watchLoad limit live.watches ≤ live.watches.length * (limit + 1 - live.now) := by
    rw [watchLoad, ← List.length_map fun entry => remaining limit entry.2.due?]
    refine List.sum_le_card_nsmul _ _ ?_
    intro number member
    obtain ⟨entry, inside, rfl⟩ := List.mem_map.mp member
    cases found : entry.2.due? with
    | none => simp [remaining]
    | some due =>
        have later := timely.watching entry inside due found
        simp only [remaining]
        omega
  have timed : remaining limit (live.timer.map Timer.next) ≤ limit + 1 - live.now := by
    cases found : live.timer with
    | none => simp [remaining]
    | some timer =>
        have later := (timely.timing timer found).2
        simp only [Option.map_some, remaining]
        omega
  calc live.load limit ≤ live.watches.length * (limit + 1 - live.now) + (limit + 1 - live.now) :=
        Nat.add_le_add watched timed
    _ = (live.watches.length + 1) * (limit + 1 - live.now) := by rw [Nat.succ_mul]
    _ ≤ live.taskBound limit := Nat.mul_le_mul_right _ (Nat.succ_le_succ few)

/-- Nothing remains to be done up to an instant if everything is due later. -/
theorem load_eq_zero_iff {limit : Nat} :
    live.load limit = 0 ↔
      ∀ task ∈ live.tasks, ∀ due, task.due? = some due → limit < due := by
  have later {due? : Option Nat} :
      remaining limit due? = 0 ↔ ∀ due, due? = some due → limit < due := by
    cases due? with
    | none => simp [remaining]
    | some due =>
        simp only [remaining, Option.some.injEq, forall_eq']
        omega
  simp only [load, watchLoad, Nat.add_eq_zero_iff, List.sum_eq_zero_iff, List.forall_mem_map,
    later, tasks, List.forall_mem_append]
  refine and_congr (Iff.rfl) ?_
  cases live.timer <;> simp [Task.due?]

section Step

variable {due limit : Nat} {task : Task}

def stepped (api : Api σ) (live : Live σ) (due : Nat) (task : Task) : Live σ :=
  perform api { live with now := max live.now due } task

theorem mem_tasks_watching {kind : WorkloadKind} {watch : Watch} :
    .watching kind watch ∈ live.tasks ↔ (kind, watch) ∈ live.watches := by
  simp [tasks]

theorem mem_tasks_discovery {timer : Timer} :
    .discovery timer ∈ live.tasks ↔ live.timer = some timer := by
  simp [tasks, eq_comm]

theorem Timely.now_eq (timely : live.Timely) (found : earliest? live.tasks = some (due, task)) :
    max live.now due = due := by
  obtain ⟨member, isDue, _⟩ := earliest?_spec found
  have later : live.now ≤ due := by
    cases task with
    | discovery timer =>
        cases isDue
        exact (timely.timing timer (mem_tasks_discovery.mp member)).2
    | watching kind watch =>
        exact timely.watching _ (mem_tasks_watching.mp member) due isDue
  omega

/-- Some watches with another one for a kind. -/
def replaced (kind : WorkloadKind) (done : Watch) (watches : List (WorkloadKind × Watch)) :
    List (WorkloadKind × Watch) :=
  watches.map fun entry => (entry.1, if entry.1 = kind then done else entry.2)

theorem replaced_of_not_mem {kind : WorkloadKind} (done : Watch)
    {watches : List (WorkloadKind × Watch)} (absent : kind ∉ watches.map Prod.fst) :
    replaced kind done watches = watches := by
  refine (List.map_congr_left fun entry member => ?_).trans (List.map_id watches)
  have other : entry.1 ≠ kind := by
    rintro rfl
    exact absent (List.mem_map_of_mem member)
  rw [if_neg other, id]

theorem exists_watches_stepped (api : Api σ) (live : Live σ) (due : Nat) (kind : WorkloadKind)
    (watch : Watch) :
    ∃ done : Watch, done.Later (max live.now due) ∧
      (stepped api live due (.watching kind watch)).watches = replaced kind done live.watches :=
  ⟨_, Watch.later_step api (api.extent live.server + 1) kind live.watched watch _ live.server, rfl⟩

/-- Putting off the work of one watch leaves less to be done. -/
theorem watchLoad_replaced_lt {watches : List (WorkloadKind × Watch)} {kind : WorkloadKind}
    {watch done : Watch} (distinct : (watches.map Prod.fst).Nodup)
    (member : (kind, watch) ∈ watches) (isDue : watch.due? = some due) (early : due ≤ limit)
    (later : done.Later due) :
    watchLoad limit (replaced kind done watches) < watchLoad limit watches := by
  have less : remaining limit done.due? < remaining limit watch.due? := by
    rw [isDue]
    cases found : done.due? with
    | none =>
        simp only [remaining]
        omega
    | some next =>
        have := later next found
        simp only [remaining]
        omega
  induction watches with
  | nil => cases member
  | cons first others ih =>
      rw [List.map_cons, List.nodup_cons] at distinct
      simp only [watchLoad, replaced, List.map_cons, List.sum_cons] at ih ⊢
      rcases List.mem_cons.mp member with rfl | inside
      · have untouched := replaced_of_not_mem done distinct.1
        simp only [replaced] at untouched
        rw [untouched, if_pos rfl]
        exact Nat.add_lt_add_right less _
      · have other : first.1 ≠ kind := fun same =>
          distinct.1 (List.mem_map.mpr ⟨(kind, watch), inside, same.symm⟩)
        have rest := ih distinct.2 inside
        rw [if_neg other]
        omega

theorem timer_stepped (timely : live.Timely) (timer : Timer) (api : Api σ)
    (found : earliest? live.tasks = some (timer.next, .discovery timer)) :
    (stepped api live timer.next (.discovery timer)).timer =
      some { timer with next := timer.next + timer.period } := by
  rw [← timer.rewind_next]
  exact congrArg (fun instant => some (timer.rewind instant)) (timely.now_eq found)

/-- A step leaves less to be done, and nothing overdue. -/
theorem Timely.stepped (timely : live.Timely) (found : earliest? live.tasks = some (due, task))
    (api : Api σ) :
    (stepped api live due task).Timely ∧ ∀ limit, due ≤ limit →
      (Live.stepped api live due task).load limit < live.load limit := by
  obtain ⟨member, isDue, least⟩ := earliest?_spec found
  have now := timely.now_eq found
  cases task with
  | discovery timer =>
      have timed := mem_tasks_discovery.mp member
      obtain ⟨positive, _⟩ := timely.timing timer timed
      obtain rfl : timer.next = due := Option.some.inj isDue
      have rewound := timer_stepped timely timer api found
      have current : (Live.stepped api live timer.next (.discovery timer)).now = timer.next := now
      refine ⟨⟨timely.distinct, ?_, ?_⟩, ?_⟩
      · intro entry inside due watchDue
        rw [current]
        exact least _ (mem_tasks_watching.mpr inside) due watchDue
      · intro other set
        rw [rewound] at set
        cases set
        rw [current]
        exact ⟨positive, Nat.le_add_right _ _⟩
      · intro limit early
        have watched : (Live.stepped api live timer.next (.discovery timer)).watches =
          live.watches := rfl
        simp only [load, rewound, watched, timed, Option.map_some, remaining]
        omega
  | watching kind watch =>
      have watched := mem_tasks_watching.mp member
      obtain ⟨done, later, watches⟩ := exists_watches_stepped api live due kind watch
      rw [now] at later
      have current : (Live.stepped api live due (.watching kind watch)).now = due := now
      have timer : (Live.stepped api live due (.watching kind watch)).timer = live.timer := rfl
      refine ⟨⟨?_, ?_, ?_⟩, ?_⟩
      · rw [watches, replaced, List.map_map]
        exact timely.distinct
      · intro entry inside instant entryDue
        rw [watches, replaced, List.mem_map] at inside
        obtain ⟨before, inside, rfl⟩ := inside
        rw [current]
        by_cases same : before.1 = kind
        · rw [if_pos same] at entryDue
          exact (later instant entryDue).le
        · rw [if_neg same] at entryDue
          exact least _ (mem_tasks_watching.mpr inside) instant entryDue
      · intro present set
        rw [timer] at set
        rw [current]
        exact ⟨(timely.timing present set).1, least _ (mem_tasks_discovery.mpr set) _ rfl⟩
      · intro limit early
        have less := watchLoad_replaced_lt timely.distinct watched isDue early later
        simp only [load, watches, timer]
        omega

end Step

/-- A survey that is run: when, whether a timer asked for it, the index in force
before, and what comes of it. -/
structure Survey where
  instant : Nat
  isTimed : Bool
  before : Option Index
  outcome : Except SurveyFault Index

/-- The survey that a task consists of, if it does. -/
def Task.survey? (api : Api σ) (live : Live σ) : Task → Option Survey
  | .discovery _ => some ⟨live.now, true, live.index, (refresh api live).1⟩
  | .watching _ _ => none

/-- The surveys among what is carried out up to an instant. -/
def surveysUntil (api : Api σ) (limit : Nat) : Nat → Live σ → List Survey
  | 0, _ => []
  | steps + 1, live =>
    match earliest? live.tasks with
    | none => []
    | some (due, task) =>
      if due ≤ limit then
        (task.survey? api { live with now := max live.now due }).toList
          ++ surveysUntil api limit steps (stepped api live due task)
      else []

/-- Surveys that follow one another from one index in force to another.  Each
begins with the index that the one before it left.  One that fails leaves it as it
was, and one that succeeds puts its own in the place of it. -/
inductive Succession : Option Index → List Survey → Option Index → Prop
  | nil (index? : Option Index) : Succession index? [] index?
  | failed {survey : Survey} {later : List Survey} {index? final? : Option Index}
      {fault : SurveyFault} (begins : survey.before = index?)
      (failure : survey.outcome = .error fault) (rest : Succession index? later final?) :
      Succession index? (survey :: later) final?
  | succeeded {survey : Survey} {later : List Survey} {index? final? : Option Index}
      {index : Index} (begins : survey.before = index?) (success : survey.outcome = .ok index)
      (rest : Succession (some index) later final?) :
      Succession index? (survey :: later) final?

theorem Succession.cons {survey : Survey} {later : List Survey} {index? final? : Option Index}
    (begins : survey.before = index?)
    (rest : Succession (Discovery.committed index? survey.outcome) later final?) :
    Succession index? (survey :: later) final? := by
  cases came : survey.outcome with
  | error fault =>
      rw [came] at rest
      exact .failed begins came rest
  | ok index =>
      rw [came] at rest
      exact .succeeded begins came rest

/-- The instants of the surveys that a timer asked for. -/
def timed (surveys : List Survey) : List Nat :=
  (surveys.filter Survey.isTimed).map Survey.instant

theorem timed_append (front back : List Survey) :
    timed (front ++ back) = timed front ++ timed back := by
  simp [timed]

/-- Some full periods after an instant, the first of them after a number of others. -/
def instants (start period first count : Nat) : List Nat :=
  (List.range' first count).map fun number => start + (number + 1) * period

theorem instants_append (start period first front back : Nat) :
    instants start period first front ++ instants start period (first + front) back =
      instants start period first (front + back) := by
  rw [instants, instants, instants, ← List.map_append, List.range'_append_1]

/-- A timer that has gone off at some number of periods after its start. -/
def Ticking (live : Live σ) (start period count : Nat) : Prop :=
  live.timer = some ⟨period, start + (count + 1) * period⟩

section Ticking

variable {start period count limit steps : Nat}

/-- What is carried out up to an instant includes one survey at each full period
until then, and none after it. -/
theorem surveysUntil_of_ticking (timely : live.Timely) (ticking : live.Ticking start period count)
    (api : Api σ) (enough : live.load limit ≤ steps) :
    ∃ more, timed (surveysUntil api limit steps live) = instants start period count more ∧
      (performUntil api limit steps live).Ticking start period (count + more) ∧
      limit < start + (count + more + 1) * period ∧
      (0 < more → start + (count + more) * period ≤ limit) := by
  induction steps generalizing live count with
  | zero =>
      have nothing : remaining limit (some (start + (count + 1) * period)) ≤ 0 := by
        have whole := enough
        rw [load, ticking] at whole
        exact (Nat.le_add_left _ _).trans whole
      refine ⟨0, rfl, ticking, ?_, fun some => absurd some (Nat.lt_irrefl 0)⟩
      simp only [remaining] at nothing
      rw [Nat.add_zero]
      omega
  | succ steps ih =>
      have member := mem_tasks_discovery.mpr ticking
      rw [surveysUntil, performUntil]
      cases found : earliest? live.tasks with
      | none => simpa [Task.due?] using earliest?_eq_none_iff.mp found _ member
      | some next =>
          obtain ⟨due, task⟩ := next
          obtain ⟨isTask, isDue, least⟩ := earliest?_spec found
          have before : due ≤ start + (count + 1) * period := least _ member _ rfl
          by_cases early : due ≤ limit
          · obtain ⟨later, less⟩ := timely.stepped found api
            have enough : (stepped api live due task).load limit ≤ steps :=
              Nat.le_of_lt_succ ((less limit early).trans_le enough)
            simp only [if_pos early]
            cases task with
            | watching kind watch =>
                exact ih later ticking enough
            | discovery timer =>
                obtain rfl : timer = ⟨period, start + (count + 1) * period⟩ :=
                  Option.some.inj ((mem_tasks_discovery.mp isTask).symm.trans ticking)
                obtain rfl : start + (count + 1) * period = due := Option.some.inj isDue
                have now := timely.now_eq found
                have next : (stepped api live (start + (count + 1) * period)
                    (.discovery ⟨period, start + (count + 1) * period⟩)).Ticking start period
                    (count + 1) := by
                  rw [Ticking, Nat.succ_mul (count + 1), ← Nat.add_assoc]
                  exact timer_stepped timely ⟨period, start + (count + 1) * period⟩ api found
                obtain ⟨more, surveys, final, beyond, within⟩ := ih later next enough
                have shifted : count + 1 + more = count + (more + 1) := by omega
                rw [shifted] at final beyond within
                refine ⟨more + 1, ?_, final, beyond, fun _ => ?_⟩
                · rw [timed_append, surveys, Nat.add_comm more, ← instants_append]
                  exact congrArg (· :: instants start period (count + 1) more) now
                · rcases Nat.eq_zero_or_pos more with rfl | some
                  · exact early
                  · exact within some
          · simp only [if_neg early]
            refine ⟨0, rfl, ticking, ?_, fun some => absurd some (Nat.lt_irrefl 0)⟩
            rw [Nat.add_zero]
            omega

/-- The steps that are allowed suffice for everything that is due. -/
theorem performUntil_finishes (timely : live.Timely) (api : Api σ)
    (enough : live.load limit ≤ steps) :
    (performUntil api limit steps live).Timely ∧
      (performUntil api limit steps live).load limit = 0 := by
  induction steps generalizing live with
  | zero => exact ⟨timely, Nat.le_zero.mp enough⟩
  | succ steps ih =>
      rw [performUntil]
      cases found : earliest? live.tasks with
      | none =>
          refine ⟨timely, load_eq_zero_iff.mpr fun task member due isDue => ?_⟩
          rw [earliest?_eq_none_iff.mp found task member] at isDue
          cases isDue
      | some next =>
          obtain ⟨due, task⟩ := next
          obtain ⟨_, _, least⟩ := earliest?_spec found
          by_cases early : due ≤ limit
          · simp only [if_pos early]
            obtain ⟨later, less⟩ := timely.stepped found api
            exact ih later (Nat.le_of_lt_succ ((less limit early).trans_le enough))
          · simp only [if_neg early]
            refine ⟨timely, load_eq_zero_iff.mpr fun task member instant isDue => ?_⟩
            have := least task member instant isDue
            omega

theorem Timely.advance (timely : live.Timely) (api : Api σ) (ahead : live.now ≤ limit) :
    (live.advance api limit).Timely ∧
      ∀ timer, (live.advance api limit).timer = some timer → limit < timer.next := by
  obtain ⟨kept, done⟩ := performUntil_finishes timely api (timely.load_le limit)
  have later := load_eq_zero_iff.mp done
  have now : (live.advance api limit).now = limit := max_eq_right ahead
  have strict : ∀ timer, (live.advance api limit).timer = some timer → limit < timer.next :=
    fun timer set => later (.discovery timer) (mem_tasks_discovery.mpr set) _ rfl
  refine ⟨⟨kept.distinct, ?_, ?_⟩, strict⟩
  · intro entry inside due isDue
    rw [now]
    exact (later (.watching entry.1 entry.2) (mem_tasks_watching.mpr inside) due isDue).le
  · intro timer set
    rw [now]
    exact ⟨(kept.timing timer set).1, (strict timer set).le⟩

end Ticking

/-- What may happen to a cluster, one thing after another. -/
inductive Act (σ : Type) where
  | wait (duration : Nat)
  | refresh
  | change (update : σ → σ)
  | follow (kinds : KindSet) (ns : Option String)
  | unfollow
  | stop

namespace Act

/-- The cluster after something has happened to it. -/
def perform (api : Api σ) (live : Live σ) : Act σ → Live σ
  | wait duration => live.advance api (live.now + duration)
  | refresh => (Live.refresh api live).2
  | change update => { live with server := update live.server }
  | follow kinds ns => live.follow kinds ns
  | unfollow => live.unfollow
  | stop => live.stopTimer

/-- The surveys that are run when something happens. -/
def surveys (api : Api σ) (live : Live σ) : Act σ → List Survey
  | wait duration =>
    surveysUntil api (live.now + duration) (live.taskBound (live.now + duration)) live
  | refresh => [⟨live.now, false, live.index, (Live.refresh api live).1⟩]
  | _ => []

def duration : Act σ → Nat
  | wait duration => duration
  | _ => 0

end Act

def run (api : Api σ) : List (Act σ) → Live σ → Live σ
  | [], live => live
  | act :: acts, live => run api acts (act.perform api live)

/-- The surveys during some acts, in order. -/
def surveys (api : Api σ) : List (Act σ) → Live σ → List Survey
  | [], _ => []
  | act :: acts, live => act.surveys api live ++ surveys api acts (act.perform api live)

section Acts

variable {start period count : Nat}

theorem Timely.perform_act (timely : live.Timely) (api : Api σ) (act : Act σ) :
    (act.perform api live).Timely := by
  cases act with
  | wait duration => exact (timely.advance api (Nat.le_add_right _ _)).1
  | refresh => exact ⟨timely.distinct, timely.watching, timely.timing⟩
  | change update => exact ⟨timely.distinct, timely.watching, timely.timing⟩
  | follow kinds ns =>
      refine ⟨?_, ?_, timely.timing⟩
      · have distinct : WorkloadKind.all.Nodup := by decide
        have kept : (live.follow kinds ns).watches.map Prod.fst = kinds.toList :=
          (List.map_map ..).trans (List.map_id _)
        rw [Act.perform, kept]
        exact distinct.filter _
      · intro entry inside due isDue
        obtain ⟨kind, _, rfl⟩ := List.mem_map.mp inside
        exact (Option.some.inj isDue).le
  | unfollow => exact ⟨List.nodup_nil, fun _ inside => (by cases inside), timely.timing⟩
  | stop => exact ⟨timely.distinct, timely.watching, fun _ set => (by cases set)⟩

theorem Timely.run (timely : live.Timely) (api : Api σ) (acts : List (Act σ)) :
    (run api acts live).Timely := by
  induction acts generalizing live with
  | nil => exact timely
  | cons act acts ih => exact ih (timely.perform_act api act)

/-- A timer that is started at an instant and goes off next at the first full
period that has not passed. -/
structure Running (live : Live σ) (start period count : Nat) : Prop where
  ticking : live.Ticking start period count
  reached : start + count * period ≤ live.now
  ahead : live.now < start + (count + 1) * period

/-- Until the timer is stopped, its surveys are run at the full periods that pass. -/
theorem Running.perform_act (running : live.Running start period count) (timely : live.Timely)
    (api : Api σ) {act : Act σ} (goesOn : act ≠ .stop) :
    ∃ more, timed (act.surveys api live) = instants start period count more ∧
      (act.perform api live).Running start period (count + more) ∧
      (act.perform api live).now = live.now + act.duration := by
  obtain ⟨ticking, reached, ahead⟩ := running
  cases act with
  | wait duration =>
      obtain ⟨more, surveys, later, beyond, within⟩ :=
        surveysUntil_of_ticking timely ticking api (timely.load_le (live.now + duration))
      have now : (live.advance api (live.now + duration)).now = live.now + duration :=
        max_eq_right (Nat.le_add_right _ _)
      refine ⟨more, surveys, ⟨later, ?_, ?_⟩, now⟩
      · rw [Act.perform, now]
        rcases Nat.eq_zero_or_pos more with rfl | some
        · exact reached.trans (Nat.le_add_right _ _)
        · exact within some
      · rw [Act.perform, now]
        exact beyond
  | refresh => exact ⟨0, rfl, ⟨ticking, reached, ahead⟩, rfl⟩
  | change update => exact ⟨0, rfl, ⟨ticking, reached, ahead⟩, rfl⟩
  | follow kinds ns => exact ⟨0, rfl, ⟨ticking, reached, ahead⟩, rfl⟩
  | unfollow => exact ⟨0, rfl, ⟨ticking, reached, ahead⟩, rfl⟩
  | stop => exact absurd rfl goesOn

end Acts

end Live

end Lineage
