import Lineage.Proofs.Refresh
import Mathlib.Logic.Function.Basic

/-!
# Surveys that overlap

Several surveys of one mapper may be under way at the same time.  Each of them
lists the groups, reads the index in force, asks for one group after another and
commits at last, and between these steps the others may do any of theirs.

At every moment the index in force is the one from the start or one that some
survey committed as a whole.  The survey that commits last decides about every
group that it lists.  Where its own query failed it falls back on the index that
it read.  If that was before the other survey committed, the mappings of the
group are those from the start again, whatever the other survey has found.
-/

namespace Lineage

namespace Discovery

variable {σ : Type}

/-- What a survey that committed has read, learnt and committed. -/
structure Report where
  groups : List GroupEntry
  previous : Option Index
  outcomes : List GroupOutcome
  index : Index

/-- How far a survey has come. -/
inductive Stage where
  | idle
  | listed (groups : List GroupEntry)
  | asking (groups : List GroupEntry) (previous : Option Index) (outcomes : List GroupOutcome)
      (left : List GroupEntry)
  | failed (fault : SurveyFault)
  | committed (report : Report)

/-- What the surveys of one mapper share. -/
structure Shared (σ : Type) where
  server : σ
  index : Option Index

/-- The next step of a survey. -/
def Stage.next (api : Api σ) : Stage → Shared σ → Stage × Shared σ
  | .idle, shared =>
    match api.fetch Catalogue.groups? "/apis" shared.server with
    | (.error fault, server) => (.failed (.noGroupList fault), ⟨server, shared.index⟩)
    | (.ok groups, server) => (.listed groups, ⟨server, shared.index⟩)
  | .listed groups, shared => (.asking groups shared.index [] (surveyed groups), shared)
  | .asking groups previous outcomes (entry :: left), shared =>
    let (found, server) := group api entry shared.server
    (.asking groups previous (outcomes ++ [⟨entry.name, found⟩]) left, ⟨server, shared.index⟩)
  | .asking groups previous outcomes [], shared =>
    match commit previous outcomes with
    | .error fault => (.failed fault, shared)
    | .ok index => (.committed ⟨groups, previous, outcomes, index⟩, ⟨shared.server, some index⟩)
  | .failed fault, shared => (.failed fault, shared)
  | .committed report, shared => (.committed report, shared)

/-- Some steps of one survey, with nothing in between. -/
def Stage.advance (api : Api σ) : Nat → Stage × Shared σ → Stage × Shared σ
  | 0, state => state
  | steps + 1, (stage, shared) => Stage.advance api steps (stage.next api shared)

/-- What a survey has answered, once it is over. -/
def Stage.answer? : Stage → Option (Except SurveyFault Index)
  | .failed fault => some (.error fault)
  | .committed report => some (.ok report.index)
  | _ => none

section Alone

variable {api : Api σ}

theorem Stage.advance_add (api : Api σ) (first second : Nat) (state : Stage × Shared σ) :
    Stage.advance api (first + second) state =
      Stage.advance api second (Stage.advance api first state) := by
  induction first generalizing state with
  | zero => rw [Nat.zero_add, advance]
  | succ first ih =>
      obtain ⟨stage, shared⟩ := state
      rw [Nat.succ_add, advance, ih, advance]

theorem Stage.advance_asking (groups : List GroupEntry) (previous : Option Index)
    (outcomes : List GroupOutcome) (left : List GroupEntry) (shared : Shared σ) :
    Stage.advance api left.length (.asking groups previous outcomes left, shared) =
      (.asking groups previous (outcomes ++ (survey api left shared.server).1) [],
        ⟨(survey api left shared.server).2, shared.index⟩) := by
  induction left generalizing outcomes shared with
  | nil => simp [advance, survey, pure, StateT.pure]
  | cons entry left ih =>
      rcases queried : group api entry shared.server with ⟨found, server⟩
      rcases rest : survey api left server with ⟨others, final⟩
      have together : survey api (entry :: left) shared.server =
          (⟨entry.name, found⟩ :: others, final) := by
        simp only [survey, bind, StateT.bind, queried, rest]
        rfl
      simp only [List.length_cons, advance, next, queried, ih, rest, together]
      rw [List.append_assoc, List.singleton_append]

/-- The first two steps of a survey list the groups and read the index. -/
theorem Stage.advance_begin (shared : Shared σ) {groups : List GroupEntry} {next : σ}
    (fetched : api.fetch Catalogue.groups? "/apis" shared.server = (.ok groups, next)) :
    Stage.advance api 2 (.idle, shared) =
      (.asking groups shared.index [] (surveyed groups), ⟨next, shared.index⟩) := by
  simp only [advance, Stage.next, fetched]

/-- The other steps of a survey ask for the groups and commit. -/
theorem Stage.advance_finish (groups : List GroupEntry) (previous : Option Index)
    (shared : Shared σ) {left : List GroupEntry} {outcomes : List GroupOutcome} {next : σ}
    (asked : survey api left shared.server = (outcomes, next)) :
    Stage.advance api (left.length + 1) (.asking groups previous [] left, shared) =
      match commit previous outcomes with
      | .error fault => (.failed fault, ⟨next, shared.index⟩)
      | .ok index => (.committed ⟨groups, previous, outcomes, index⟩, ⟨next, some index⟩) := by
  rw [Stage.advance_add, Stage.advance_asking, asked, List.nil_append]
  simp only [advance, Stage.next]

/-- A survey that nothing interrupts does in steps what it does at once. -/
theorem Stage.advance_idle (api : Api σ) (shared : Shared σ) :
    ∃ steps stage, Stage.advance api steps (.idle, shared) =
        (stage, ⟨(refresh api shared.index shared.server).2,
          Discovery.committed shared.index (refresh api shared.index shared.server).1⟩) ∧
      stage.answer? = some (refresh api shared.index shared.server).1 := by
  rcases fetched : api.fetch Catalogue.groups? "/apis" shared.server with ⟨fault | groups, server⟩
  · have refreshed : refresh api shared.index shared.server =
        (.error (.noGroupList fault), server) := by
      simp only [refresh, bind, StateT.bind, fetched]
      rfl
    refine ⟨1, .failed (.noGroupList fault), ?_, ?_⟩
    · simp only [advance, next, fetched, refreshed, Discovery.committed]
    · simp only [answer?, refreshed]
  · rcases asked : survey api (surveyed groups) server with ⟨outcomes, final⟩
    have refreshed : refresh api shared.index shared.server =
        (commit shared.index outcomes, final) := by
      simp only [refresh, bind, StateT.bind, fetched, asked]
      rfl
    have steps := Stage.advance_add api 2 ((surveyed groups).length + 1) (.idle, shared)
    rw [Stage.advance_begin shared fetched,
      Stage.advance_finish groups shared.index _ asked] at steps
    rw [refreshed]
    cases decided : commit shared.index outcomes with
    | error fault =>
        rw [decided] at steps
        exact ⟨_, .failed fault, steps, rfl⟩
    | ok index =>
        rw [decided] at steps
        exact ⟨_, .committed ⟨groups, shared.index, outcomes, index⟩, steps, rfl⟩

end Alone

/-- Some surveys under way and what they share. -/
structure Overlap (σ ι : Type) where
  shared : Shared σ
  stage : ι → Stage

namespace Overlap

variable {ι : Type} [DecidableEq ι]

def start (server : σ) (initial : Option Index) : Overlap σ ι :=
  ⟨⟨server, initial⟩, fun _ => .idle⟩

def step (api : Api σ) (overlap : Overlap σ ι) (turn : ι) : Overlap σ ι :=
  let (stage, shared) := (overlap.stage turn).next api overlap.shared
  ⟨shared, Function.update overlap.stage turn stage⟩

/-- The steps of the surveys in some order. -/
def run (api : Api σ) (schedule : List ι) (overlap : Overlap σ ι) : Overlap σ ι :=
  schedule.foldl (step api) overlap

end Overlap

/-- A survey that has learnt something of every group that was listed, and that
committed all of it. -/
structure Report.Whole (report : Report) : Prop where
  covered : report.outcomes.map GroupOutcome.group =
    (surveyed report.groups).map GroupEntry.name
  commit_eq : commit report.previous report.outcomes = .ok report.index

/-- What a stage owes to the list of groups. -/
def Stage.Covers : Stage → Prop
  | .asking groups _ outcomes left =>
    outcomes.map GroupOutcome.group ++ left.map GroupEntry.name =
      (surveyed groups).map GroupEntry.name
  | .committed report => report.Whole
  | _ => True

/-- The index that a survey has read. -/
def Stage.previous? : Stage → Option (Option Index)
  | .asking _ previous _ _ => some previous
  | .committed report => some report.previous
  | _ => none

theorem Stage.Covers.next {stage : Stage} (covers : stage.Covers) (api : Api σ)
    (shared : Shared σ) : (stage.next api shared).1.Covers := by
  cases stage with
  | idle =>
      rcases fetched : api.fetch Catalogue.groups? "/apis" shared.server with
        ⟨fault | groups, server⟩
      · simp only [Stage.next, fetched, Covers]
      · simp only [Stage.next, fetched, Covers]
  | listed groups => rfl
  | asking groups previous outcomes left =>
      cases left with
      | nil =>
          have covered : outcomes.map GroupOutcome.group =
              (surveyed groups).map GroupEntry.name := by
            simpa [Covers] using covers
          cases decided : commit previous outcomes with
          | error fault => simp only [Stage.next, decided, Covers]
          | ok index =>
              simp only [Stage.next, decided]
              exact ⟨covered, decided⟩
      | cons entry left =>
          have covered : outcomes.map GroupOutcome.group ++ entry.name ::
              left.map GroupEntry.name = (surveyed groups).map GroupEntry.name := covers
          rcases queried : group api entry shared.server with ⟨found, server⟩
          simpa [Stage.next, queried, Covers] using covered
  | failed fault => trivial
  | committed report => exact covers

/-- What a step of a survey may be: a survey that has committed rests, one that
has read an index may commit, and every other step leaves the index alone. -/
inductive Stage.Moves (stage : Stage) (shared : Shared σ) (later : Stage) (after : Shared σ) : Prop
  | rests (report : Report) (ended : stage = .committed report) (same : later = .committed report)
      (kept : after.index = shared.index)
  | commits (report : Report) (read : stage.previous? = some report.previous)
      (ended : later = .committed report) (written : after.index = some report.index)
  | goesOn (still : ∀ report, later ≠ .committed report) (kept : after.index = shared.index)
      (unwritten : ∀ report, stage ≠ .committed report)
      (read : ∀ previous, later.previous? = some previous →
        stage.previous? = some previous ∨ previous = shared.index)

theorem Stage.moves_next (api : Api σ) (stage : Stage) (shared : Shared σ) :
    stage.Moves shared (stage.next api shared).1 (stage.next api shared).2 := by
  cases stage with
  | idle =>
      rcases fetched : api.fetch Catalogue.groups? "/apis" shared.server with
        ⟨fault | groups, server⟩
      · simp only [next, fetched]
        exact .goesOn (by simp) rfl (by simp) (by simp [previous?])
      · simp only [next, fetched]
        exact .goesOn (by simp) rfl (by simp) (by simp [previous?])
  | listed groups => exact .goesOn (by simp [next]) rfl (by simp) (by simp [next, previous?])
  | asking groups previous outcomes left =>
      cases left with
      | nil =>
          cases decided : commit previous outcomes with
          | error fault =>
              simp only [next, decided]
              exact .goesOn (by simp) rfl (by simp) (by simp [previous?])
          | ok index =>
              simp only [next, decided]
              exact .commits ⟨groups, previous, outcomes, index⟩ rfl rfl rfl
      | cons entry left =>
          rcases queried : group api entry shared.server with ⟨found, server⟩
          simp only [next, queried]
          exact .goesOn (by simp) rfl (by simp) (by simp [previous?])
  | failed fault => exact .goesOn (by simp [next]) rfl (by simp) (by simp [next, previous?])
  | committed report => exact .rests report rfl rfl rfl

namespace Overlap

variable {ι : Type} [DecidableEq ι] {initial : Option Index} {overlap : Overlap σ ι}

/-- Surveys that have read and committed whole indexes only. -/
structure Sound (initial : Option Index) (overlap : Overlap σ ι) : Prop where
  covers : ∀ turn, (overlap.stage turn).Covers
  current : (overlap.shared.index = initial ∧
      ∀ turn report, overlap.stage turn ≠ .committed report) ∨
    ∃ turn report, overlap.stage turn = .committed report ∧
      overlap.shared.index = some report.index
  read : ∀ turn previous, (overlap.stage turn).previous? = some previous → previous = initial ∨
    ∃ other report, other ≠ turn ∧ overlap.stage other = .committed report ∧
      previous = some report.index

omit [DecidableEq ι] in
theorem sound_start (server : σ) (initial : Option Index) :
    (start server initial : Overlap σ ι).Sound initial where
  covers := fun _ => trivial
  current := .inl ⟨rfl, fun _ _ => by simp [start]⟩
  read := by
    intro turn previous found
    cases found

omit [DecidableEq ι] in
/-- A survey that has not committed finds the index from the start or one that
another survey has committed. -/
theorem Sound.index_eq (sound : overlap.Sound initial) {turn : ι}
    (unwritten : ∀ report, overlap.stage turn ≠ .committed report) :
    overlap.shared.index = initial ∨ ∃ other report, other ≠ turn ∧
      overlap.stage other = .committed report ∧ overlap.shared.index = some report.index := by
  rcases sound.current with ⟨same, _⟩ | ⟨other, report, ended, written⟩
  · exact .inl same
  · refine .inr ⟨other, report, ?_, ended, written⟩
    rintro rfl
    exact unwritten report ended

section Step

variable (api : Api σ) (turn : ι)

theorem stage_step_self (overlap : Overlap σ ι) : (overlap.step api turn).stage turn =
    ((overlap.stage turn).next api overlap.shared).1 :=
  Function.update_self ..

theorem stage_step_of_ne {other : ι} (different : other ≠ turn) :
    (overlap.step api turn).stage other = overlap.stage other :=
  Function.update_of_ne different ..

theorem moves_step (overlap : Overlap σ ι) : (overlap.stage turn).Moves overlap.shared
    ((overlap.step api turn).stage turn) (overlap.step api turn).shared := by
  rw [stage_step_self]
  exact Stage.moves_next api (overlap.stage turn) overlap.shared

/-- What has been committed stays committed. -/
theorem committed_step {other : ι} {report : Report}
    (ended : overlap.stage other = .committed report) :
    (overlap.step api turn).stage other = .committed report := by
  by_cases same : other = turn
  · rw [← same, stage_step_self, ended]
    rfl
  · rw [stage_step_of_ne api turn same, ended]

theorem Sound.current_step (sound : overlap.Sound initial) :
    ((overlap.step api turn).shared.index = initial ∧
        ∀ other report, (overlap.step api turn).stage other ≠ .committed report) ∨
      ∃ other report, (overlap.step api turn).stage other = .committed report ∧
        (overlap.step api turn).shared.index = some report.index := by
  cases moves_step api turn overlap with
  | commits report read ended written => exact .inr ⟨turn, report, ended, written⟩
  | rests report ended same kept =>
      rcases sound.current with ⟨_, none⟩ | ⟨other, first, committed, written⟩
      · exact absurd ended (none turn report)
      · exact .inr ⟨other, first, committed_step api turn committed, kept.trans written⟩
  | goesOn still kept unwritten read =>
      rcases sound.current with ⟨untouched, none⟩ | ⟨other, first, committed, written⟩
      · refine .inl ⟨kept.trans untouched, fun other report => ?_⟩
        by_cases same : other = turn
        · rw [same]
          exact still report
        · rw [stage_step_of_ne api turn same]
          exact none other report
      · exact .inr ⟨other, first, committed_step api turn committed, kept.trans written⟩

theorem Sound.read_step (sound : overlap.Sound initial) (reader : ι) (previous : Option Index)
    (read : ((overlap.step api turn).stage reader).previous? = some previous) :
    previous = initial ∨ ∃ other report, other ≠ reader ∧
      (overlap.step api turn).stage other = .committed report ∧ previous = some report.index := by
  -- What was read before the step was committed before it as well.
  have earlier (known : (overlap.stage reader).previous? = some previous) : previous = initial ∨
      ∃ other report, other ≠ reader ∧
        (overlap.step api turn).stage other = .committed report ∧ previous = some report.index := by
    rcases sound.read reader previous known with same | ⟨other, report, different, ended, same⟩
    · exact .inl same
    · exact .inr ⟨other, report, different, committed_step api turn ended, same⟩
  by_cases same : reader = turn
  · subst same
    cases moves_step api reader overlap with
    | rests report ended same kept =>
        rw [same] at read
        rw [ended] at earlier
        exact earlier read
    | commits report known ended written =>
        rw [ended] at read
        exact earlier (known.trans read)
    | goesOn still kept unwritten now =>
        rcases now previous read with known | rfl
        · exact earlier known
        · rcases sound.index_eq unwritten with same | ⟨other, report, different, ended, same⟩
          · exact .inl same
          · exact .inr ⟨other, report, different, committed_step api reader ended, same⟩
  · rw [stage_step_of_ne api turn same] at read
    exact earlier read

theorem Sound.step (sound : overlap.Sound initial) : (overlap.step api turn).Sound initial where
  covers := by
    intro other
    by_cases same : other = turn
    · rw [same, stage_step_self]
      exact (sound.covers turn).next api overlap.shared
    · rw [stage_step_of_ne api turn same]
      exact sound.covers other
  current := sound.current_step api turn
  read := sound.read_step api turn

end Step

theorem Sound.run (sound : overlap.Sound initial) (api : Api σ) (schedule : List ι) :
    (run api schedule overlap).Sound initial := by
  induction schedule generalizing overlap with
  | nil => exact sound
  | cons turn rest ih => exact ih (sound.step api turn)

end Overlap

namespace Report

variable {report : Report} {group : String} {found : List Mapping}

/-- The query for a group succeeded with some mappings. -/
def Finds (report : Report) (group : String) (found : List Mapping) : Prop :=
  ⟨group, .ok found⟩ ∈ report.outcomes

/-- The query for a group failed. -/
def Misses (report : Report) (group : String) : Prop :=
  ∃ fault, ⟨group, .error fault⟩ ∈ report.outcomes

/-- Groups are listed under different names and have mappings of their own only. -/
structure Orderly (report : Report) : Prop where
  distinct : (report.outcomes.map GroupOutcome.group).Nodup
  owned : Owned report.outcomes

/-- The mappings of a kind, as an index gives them. -/
def ofKind (kind : String) (found : List Mapping) : List Mapping :=
  (found.filter fun mapping => mapping.kind = kind).eraseDups

theorem Whole.tidy (whole : report.Whole) : report.index.Tidy := by
  rw [index_of_commit whole.commit_eq]
  exact Index.Tidy.ofList _

theorem Whole.lookup_found (whole : report.Whole) (orderly : report.Orderly)
    (tidy : ∀ index, report.previous = some index → index.Tidy) (finds : report.Finds group found)
    (kind : String) : report.index.lookup group kind = ofKind kind found :=
  lookup_of_commit whole.commit_eq tidy orderly.distinct orderly.owned finds kind

theorem Whole.lookup_missed (whole : report.Whole) (orderly : report.Orderly)
    (tidy : ∀ index, report.previous = some index → index.Tidy) (misses : report.Misses group)
    (kind : String) : report.index.lookup group kind = known report.previous group kind := by
  obtain ⟨fault, member⟩ := misses
  exact lookup_of_commit whole.commit_eq tidy orderly.distinct orderly.owned member kind

end Report

/-- Who asks for a survey of a mapper: someone explicitly, or its timer. -/
inductive Caller where
  | client
  | timer
  deriving DecidableEq

namespace Caller

def other : Caller → Caller
  | client => timer
  | timer => client

theorem eq_other_of_ne {caller another : Caller} (different : another ≠ caller) :
    another = caller.other := by
  cases caller <;> cases another <;> first | rfl | exact absurd rfl different

end Caller

namespace Overlap

/-- Once both surveys are over, a group that some query found and both surveys
list has the mappings that a query found. -/
def Current (overlap : Overlap σ Caller) : Prop :=
  ∀ reports : Caller → Report, (∀ caller, overlap.stage caller = .committed (reports caller)) →
    ∀ group, (∀ caller, group ∈ (surveyed (reports caller).groups).map GroupEntry.name) →
      (∃ caller found, (reports caller).Finds group found) →
        ∃ caller found, (reports caller).Finds group found ∧
          ∀ kind, lookup overlap.shared.index group kind = .ok (Report.ofKind kind found)

theorem run_append (api : Api σ) (first second : List Caller) (overlap : Overlap σ Caller) :
    run api (first ++ second) overlap = run api second (run api first overlap) :=
  List.foldl_append

/-- While the other rests, the steps of a survey are those of the survey alone. -/
theorem run_replicate (api : Api σ) (turn : Caller) (steps : Nat) (overlap : Overlap σ Caller) :
    run api (List.replicate steps turn) overlap =
      ⟨(Stage.advance api steps (overlap.stage turn, overlap.shared)).2,
        Function.update overlap.stage turn
          (Stage.advance api steps (overlap.stage turn, overlap.shared)).1⟩ := by
  induction steps generalizing overlap with
  | zero => simp [run, Stage.advance]
  | succ steps ih =>
      rw [List.replicate_succ, Stage.advance]
      refine (ih (overlap.step api turn)).trans ?_
      rw [stage_step_self]
      simp [step]

/-- A survey that nothing interrupts does what one does that is all by itself. -/
theorem exists_run_refresh (api : Api σ) (overlap : Overlap σ Caller) {caller : Caller}
    (idle : overlap.stage caller = .idle) :
    ∃ steps, (run api (List.replicate steps caller) overlap).shared =
        ⟨(refresh api overlap.shared.index overlap.shared.server).2,
          committed overlap.shared.index
            (refresh api overlap.shared.index overlap.shared.server).1⟩ ∧
      ((run api (List.replicate steps caller) overlap).stage caller).answer? =
        some (refresh api overlap.shared.index overlap.shared.server).1 := by
  obtain ⟨steps, stage, advanced, answered⟩ := Stage.advance_idle api overlap.shared
  refine ⟨steps, ?_⟩
  rw [run_replicate, idle, advanced]
  refine ⟨rfl, ?_⟩
  rw [← answered]
  exact congrArg Stage.answer? (Function.update_self ..)

section Both

variable {initial : Option Index} {overlap : Overlap σ Caller} {reports : Caller → Report}

theorem Sound.whole {ι : Type} {overlap : Overlap σ ι} (sound : overlap.Sound initial) {turn : ι}
    {report : Report} (ended : overlap.stage turn = .committed report) : report.Whole := by
  have covers := sound.covers turn
  rwa [ended] at covers

/-- When both surveys have committed, each has read the index from the start or the one
of the other. -/
theorem Sound.previous_eq (sound : overlap.Sound initial)
    (ended : ∀ caller, overlap.stage caller = .committed (reports caller)) (caller : Caller) :
    (reports caller).previous = initial ∨
      (reports caller).previous = some (reports caller.other).index := by
  have read : (overlap.stage caller).previous? = some (reports caller).previous := by
    rw [ended]
    rfl
  rcases sound.read caller _ read with same | ⟨another, report, different, committed, same⟩
  · exact .inl same
  · obtain rfl := Caller.eq_other_of_ne different
    rw [ended, Stage.committed.injEq] at committed
    exact .inr (committed ▸ same)

theorem Sound.exists_last (sound : overlap.Sound initial)
    (ended : ∀ caller, overlap.stage caller = .committed (reports caller)) :
    ∃ last, overlap.shared.index = some (reports last).index := by
  rcases sound.current with ⟨_, none⟩ | ⟨last, report, committed, written⟩
  · exact absurd (ended .client) (none _ _)
  · rw [ended, Stage.committed.injEq] at committed
    exact ⟨last, committed ▸ written⟩

/-- Whatever a survey falls back on is tidy if the index from the start is. -/
theorem Sound.tidy_previous (sound : overlap.Sound initial)
    (tidy : ∀ index, initial = some index → index.Tidy)
    (ended : ∀ caller, overlap.stage caller = .committed (reports caller)) (caller : Caller)
    (index : Index) (known : (reports caller).previous = some index) : index.Tidy := by
  rcases sound.previous_eq ended caller with same | same
  · exact tidy index (same.symm.trans known)
  · cases same.symm.trans known
    exact (sound.whole (ended caller.other)).tidy

end Both

/-- Two surveys that overlap commit whole indexes only.  The one that is last
decides: it has found the mappings of a group, or it has kept those of the index
that it read, which is the one from the start or the one of the other survey.  One
that begins later and is not interrupted does what a single survey does at once. -/
theorem lookup_after_overlap (api : Api σ) (server : σ) (before : Option (List Mapping))
    (schedule : List Caller) :
    let initial := before.map Index.ofList
    let overlap := run api schedule (start server initial)
    (overlap.shared.index = initial ∨ ∃ caller report,
        overlap.stage caller = .committed report ∧ report.Whole ∧
          overlap.shared.index = some report.index) ∧
      (∀ reports : Caller → Report,
        (∀ caller, overlap.stage caller = .committed (reports caller)) →
        (∀ caller, (reports caller).Orderly) →
        ∃ last, overlap.shared.index = some (reports last).index ∧
          ((reports last).previous = initial ∨
            (reports last).previous = some (reports last.other).index) ∧
          ∀ group kind,
            (∀ found, (reports last).Finds group found →
              lookup overlap.shared.index group kind = .ok (Report.ofKind kind found)) ∧
            ((reports last).Misses group →
              ((reports last).previous = initial →
                lookup overlap.shared.index group kind = .ok (known initial group kind)) ∧
              ((reports last).previous = some (reports last.other).index →
                ∀ found, (reports last.other).Finds group found →
                  lookup overlap.shared.index group kind = .ok (Report.ofKind kind found)))) ∧
      ∀ caller, overlap.stage caller = .idle → ∃ steps,
        let later := run api (schedule ++ List.replicate steps caller) (start server initial)
        let alone := refresh api overlap.shared.index overlap.shared.server
        later.shared = ⟨alone.2, committed overlap.shared.index alone.1⟩ ∧
          (later.stage caller).answer? = some alone.1 := by
  intro initial overlap
  have sound : overlap.Sound initial := (sound_start server initial).run api schedule
  refine ⟨?_, ?_, ?_⟩
  · rcases sound.current with ⟨same, _⟩ | ⟨caller, report, ended, written⟩
    · exact .inl same
    · exact .inr ⟨caller, report, ended, sound.whole ended, written⟩
  · intro reports ended orderly
    have whole (caller : Caller) : (reports caller).Whole := sound.whole (ended caller)
    have begun (index : Index) (known : initial = some index) : index.Tidy := by
      obtain ⟨mappings, _, rfl⟩ := Option.map_eq_some_iff.mp known
      exact Index.Tidy.ofList mappings
    have tidy := sound.tidy_previous begun ended
    obtain ⟨last, inForce⟩ := sound.exists_last ended
    refine ⟨last, inForce, sound.previous_eq ended last, fun group kind => ⟨?_, ?_⟩⟩
    · intro found finds
      rw [inForce]
      exact congrArg Except.ok
        ((whole last).lookup_found (orderly last) (tidy last) finds kind)
    · intro misses
      have kept := (whole last).lookup_missed (orderly last) (tidy last) misses kind
      refine ⟨?_, ?_⟩
      · intro early
        rw [inForce, ← early]
        exact congrArg Except.ok kept
      · intro late found finds
        have learnt := (whole last.other).lookup_found (orderly last.other) (tidy last.other)
          finds kind
        rw [late] at kept
        rw [inForce]
        exact congrArg Except.ok (kept.trans learnt)
  · intro caller idle
    simp only [run_append]
    exact exists_run_refresh api overlap idle

section Vanishing

/-- The server of the pods, which can be reached for one more catalogue only. -/
def vanishing : Api Bool where
  request path := fun reachable =>
    ((failing.request path reachable).1, reachable && path ≠ "/api/v1")
  watch _ := fun reachable => ([], reachable)
  extent _ := 0

theorem fetch_vanishing {α : Type} (decode : Json → Option α) (address : String)
    (reachable : Bool) :
    vanishing.fetch decode address reachable =
      ((failing.fetch decode address reachable).1,
        reachable && Address.path? address ≠ some "/api/v1") := by
  unfold Api.fetch
  cases Address.path? address with
  | none => simp [pure, StateT.pure]
  | some path =>
      rcases requested : failing.request path reachable with ⟨reply, next⟩
      simp [bind, StateT.bind, pure, StateT.pure, vanishing, requested]

theorem vanishing_groups (reachable : Bool) :
    vanishing.fetch Catalogue.groups? "/apis" reachable =
      (.ok [⟨"batch", [], none⟩], reachable) := by
  have other : Address.path? "/apis" ≠ some "/api/v1" := by decide
  rw [fetch_vanishing, failing_groups]
  simp [other]

theorem vanishing_coreVersions (reachable : Bool) :
    vanishing.fetch Catalogue.coreVersions? "/api" reachable = (.ok ["v1"], reachable) := by
  have other : Address.path? "/api" ≠ some "/api/v1" := by decide
  rw [fetch_vanishing, failing_coreVersions]
  simp [other]

theorem readVersion_vanishing (reachable : Bool) :
    readVersion vanishing coreGroup "v1" reachable = (failingFound reachable, false) := by
  have address : Address.ofSegments (Api.root coreGroup "v1") = "/api/v1" := by cbv
  have path : Address.path? "/api/v1" = some "/api/v1" := by decide
  rcases read : failing.fetch Catalogue.resources? "/api/v1" reachable with ⟨resources, next⟩
  have found := readVersion_failing reachable
  simp only [readVersion, address, bind, StateT.bind, read, pure, StateT.pure] at found
  have answer : (resources.map ResourceList.mappings).mapError GroupFault.unread =
      failingFound reachable := congrArg Prod.fst found
  simp only [readVersion, address, bind, StateT.bind, fetch_vanishing, path, read, pure,
    StateT.pure]
  simp [answer]

theorem core_vanishing (reachable : Bool) :
    group vanishing ⟨coreGroup, [], none⟩ reachable = (failingFound reachable, false) := by
  have arranged : arrangeCore [("v1", [pods])] = [pods] := by cbv
  have read := readVersion_vanishing reachable
  have isCore : group vanishing ⟨coreGroup, [], none⟩ reachable = core vanishing reachable := rfl
  rw [isCore]
  simp only [core, bind, StateT.bind, vanishing_coreVersions, readVersions, read]
  cases reachable with
  | false => rfl
  | true =>
      change (Except.ok (arrangeCore [("v1", [pods])]), false) = (Except.ok [pods], false)
      rw [arranged]

/-- The collection of pods under an earlier name. -/
def formerPods : Mapping :=
  ⟨"", "v1", "po", "Pod", false⟩

def formerIndex : Index :=
  ⟨[⟨"", "Pod", [formerPods]⟩]⟩

/-- The survey of the timer begins first and commits last. -/
def enclosing : List Caller :=
  List.replicate 2 .timer ++ List.replicate 5 .client ++ List.replicate 3 .timer

/-- What the two surveys have learnt: only that of the client has reached the
catalogue of the core group. -/
def enclosingReport : Caller → Report
  | .client => ⟨[⟨"batch", [], none⟩], some formerIndex,
      [⟨coreGroup, .ok [pods]⟩, ⟨"batch", .ok []⟩], podIndex⟩
  | .timer => ⟨[⟨"batch", [], none⟩], some formerIndex,
      [⟨coreGroup, .error (.unread .undecodable)⟩, ⟨"batch", .ok []⟩], formerIndex⟩

theorem survey_vanishing (reachable : Bool) :
    survey vanishing (surveyed [⟨"batch", [], none⟩]) reachable =
      ([⟨coreGroup, failingFound reachable⟩, ⟨"batch", .ok []⟩], false) := by
  have batch : group vanishing ⟨"batch", [], none⟩ false = (.ok [], false) := rfl
  simp only [survey, surveyed, bind, StateT.bind, core_vanishing, batch]
  rfl

theorem run_enclosing :
    let overlap := run vanishing enclosing (start true (some (Index.ofList [formerPods])))
    overlap.shared.index = some formerIndex ∧
      ∀ caller, overlap.stage caller = .committed (enclosingReport caller) := by
  have before : Index.ofList [formerPods] = formerIndex := by decide
  have begun := Stage.advance_begin ⟨true, some formerIndex⟩ (vanishing_groups true)
  have enclosed : Stage.advance vanishing 5 (.idle, ⟨true, some formerIndex⟩) =
      (.committed (enclosingReport .client), ⟨false, some podIndex⟩) := by
    have learnt : commit (some formerIndex) [⟨coreGroup, failingFound true⟩, ⟨"batch", .ok []⟩] =
        .ok podIndex := rfl
    have others := Stage.advance_finish [⟨"batch", [], none⟩] (some formerIndex)
      ⟨true, some formerIndex⟩ (survey_vanishing true)
    rw [learnt] at others
    have steps := Stage.advance_add vanishing 2 3 (.idle, ⟨true, some formerIndex⟩)
    rw [begun] at steps
    exact steps.trans others
  have finished : Stage.advance vanishing 3
      (.asking [⟨"batch", [], none⟩] (some formerIndex) [] (surveyed [⟨"batch", [], none⟩]),
        ⟨false, some podIndex⟩) =
      (.committed (enclosingReport .timer), ⟨false, some formerIndex⟩) := by
    have kept : commit (some formerIndex) [⟨coreGroup, failingFound false⟩, ⟨"batch", .ok []⟩] =
        .ok formerIndex := rfl
    have others := Stage.advance_finish [⟨"batch", [], none⟩] (some formerIndex)
      ⟨false, some podIndex⟩ (survey_vanishing false)
    rw [kept] at others
    exact others
  intro overlap
  have final : overlap = ⟨⟨false, some formerIndex⟩,
      Function.update (Function.update (Function.update (fun _ => .idle) .timer
        (.asking [⟨"batch", [], none⟩] (some formerIndex) [] (surveyed [⟨"batch", [], none⟩])))
        .client (.committed (enclosingReport .client))) .timer
        (.committed (enclosingReport .timer))⟩ := by
    simp only [overlap, enclosing, run_append, run_replicate, start, before, begun]
    simp only [Function.update_self, Function.update_of_ne, ne_eq, reduceCtorEq,
      not_false_eq_true, enclosed, finished]
  rw [final]
  refine ⟨rfl, fun caller => ?_⟩
  cases caller with
  | client => rfl
  | timer => rfl

theorem enclosingReport_finds {caller : Caller} {found : List Mapping}
    (finds : (enclosingReport caller).Finds coreGroup found) : found = [pods] := by
  have named : coreGroup ≠ "batch" := by decide
  cases caller with
  | client => simpa [enclosingReport, Report.Finds, named] using finds
  | timer => simp [enclosingReport, Report.Finds, named] at finds

theorem enclosingReport_orderly (caller : Caller) : (enclosingReport caller).Orderly where
  distinct := by cases caller <;> decide
  owned := by
    intro outcome member found learnt mapping inside
    cases caller with
    | client =>
        rcases List.mem_cons.mp member with rfl | member
        · cases learnt
          rw [List.mem_singleton.mp inside]
          rfl
        · rw [List.mem_singleton.mp member] at learnt
          cases learnt
          cases inside
    | timer =>
        rcases List.mem_cons.mp member with rfl | member
        · cases learnt
        · rw [List.mem_singleton.mp member] at learnt
          cases learnt
          cases inside

/-- The pods that one survey has found are lost when the other commits, which
could not reach them and had read the index before. -/
theorem not_current_enclosing :
    ¬ (run vanishing enclosing (start true (some (Index.ofList [formerPods])))).Current := by
  obtain ⟨inForce, reported⟩ := run_enclosing
  intro current
  have listed : ∀ caller,
      coreGroup ∈ (surveyed (enclosingReport caller).groups).map GroupEntry.name :=
    fun _ => List.mem_cons_self
  obtain ⟨caller, found, finds, answers⟩ := current enclosingReport reported coreGroup listed
    ⟨.client, [pods], List.mem_cons_self⟩
  have answer := answers "Pod"
  rw [inForce, enclosingReport_finds finds] at answer
  have lost : lookup (some formerIndex) coreGroup "Pod" ≠ .ok (Report.ofKind "Pod" [pods]) := by
    decide
  exact lost answer

/-- The survey that commits last has missed the pods and answers with those from
the start. -/
theorem lookup_after_overlap_enclosing :
    let overlap := run vanishing enclosing (start true (some (Index.ofList [formerPods])))
    (∀ caller, overlap.stage caller = .committed (enclosingReport caller)) ∧
      (∀ caller, (enclosingReport caller).Orderly) ∧
      (enclosingReport .client).Finds coreGroup [pods] ∧
      (enclosingReport .timer).Misses coreGroup ∧
      lookup overlap.shared.index coreGroup "Pod" = .ok [formerPods] := by
  obtain ⟨inForce, reported⟩ := run_enclosing
  have misses : (enclosingReport .timer).Misses coreGroup :=
    ⟨.unread .undecodable, List.mem_cons_self⟩
  have initial : Index.ofList [formerPods] = formerIndex := by decide
  have told := lookup_after_overlap vanishing true (some [formerPods]) enclosing
  simp only [Option.map_some] at told
  obtain ⟨last, decides, _, answers⟩ := told.2.1 enclosingReport reported enclosingReport_orderly
  have isTimer : last = .timer := by
    have same : formerIndex = (enclosingReport last).index :=
      Option.some.inj (inForce.symm.trans decides)
    cases last with
    | client =>
        have different : formerIndex ≠ (enclosingReport .client).index := by decide
        exact absurd same different
    | timer => rfl
  subst isTimer
  have read : (enclosingReport .timer).previous = some (Index.ofList [formerPods]) := by
    rw [initial]
    rfl
  have kept := ((answers coreGroup "Pod").2 misses).1 read
  have before : known (some (Index.ofList [formerPods])) coreGroup "Pod" = [formerPods] := by
    rw [initial]
    decide
  rw [before] at kept
  exact ⟨reported, enclosingReport_orderly, List.mem_cons_self, misses, kept⟩

end Vanishing

end Overlap

end Discovery

end Lineage
