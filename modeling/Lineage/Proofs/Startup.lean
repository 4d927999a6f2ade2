import Lineage.Api.Server
import Lineage.Proofs.Following
import Lineage.Proofs.RoundTrip
import Lineage.Proofs.Waiting

/-!
# Starting with accepted settings

Settings are accepted if no kind is listed twice and discovery has a period.  That
period is all that the timer of a session needs.  Nothing bounds the time for which
the stores are waited for, however, and a session does not start where the clock
cannot count up to the end of that time.  So there are accepted settings with which
no session starts, and they are the only reason why a run of the program, whose clock
begins at zero, breaks off.
-/

namespace Lineage

namespace Session

section Starts

variable {σ : Type} {api : Api σ} {settings : Settings} {live : Live σ} {session : Session σ}

/-- There is an instant some seconds after another. -/
def HasInstant (now : Nat) (seconds : UInt64) : Prop :=
  Readiness.HasDeadline now (milliseconds seconds)

instance {now : Nat} {seconds : UInt64} : Decidable (HasInstant now seconds) :=
  inferInstanceAs (Decidable (Readiness.HasDeadline ..))

theorem hasInstant_iff_lt {now : Nat} {seconds : UInt64} :
    HasInstant now seconds ↔ now / 1000 + seconds.toNat < 9223372036854775808 := by
  rw [HasInstant, Readiness.hasDeadline_iff_lt, milliseconds,
    Nat.add_mul_div_left _ _ (by decide)]

/-- A session that was started with some settings on a cluster: its timer is set, and
the waiting has ended at its deadline or before. -/
structure Started (settings : Settings) (live : Live σ) (session : Session σ) : Prop where
  kinds : session.kinds = settings.kinds
  timer : session.live.timer = some
    ⟨milliseconds settings.discoveryRefreshSeconds,
      session.live.now + milliseconds settings.discoveryRefreshSeconds⟩
  begun : live.now ≤ session.live.now
  ended : session.live.now ≤ live.now + milliseconds settings.cacheSyncTimeoutSeconds

theorem milliseconds_ne_zero {seconds : UInt64} (period : seconds ≠ 0) :
    milliseconds seconds ≠ 0 := by
  have positive : seconds.toNat ≠ 0 := fun zero => period (UInt64.toNat_inj.mp zero)
  unfold milliseconds
  omega

/-- A session starts where there is an instant at which the waiting ends. -/
theorem exists_started (api : Api σ) (period : settings.discoveryRefreshSeconds ≠ 0)
    (counted : HasInstant live.now settings.cacheSyncTimeoutSeconds) :
    ∃ session, startOn api settings live = .ok session ∧ Started settings live session := by
  obtain ⟨finished, later, early, started⟩ := exists_startOn api settings live counted
  refine ⟨_, started, rfl, ?_, ?_, ?_⟩
  · exact (Timer.start_eq _ _).trans (if_neg (milliseconds_ne_zero period))
  · exact Nat.le_max_left ..
  · exact Nat.max_le.mpr ⟨Nat.le_add_right .., early⟩

end Starts

end Session

namespace Program

variable {σ : Type} {api : Api σ} {environment : Environment} {tree : FileTree}
  {invocation : Invocation} {target : Except Chain Target} {format : OutputFormat}
  {settings : Settings} {begun : Target} {server : σ} {arguments : List String}

/-- Where a command searches from, and the format of what it finds. -/
def searchOf : Command → Option (Except Chain Target × OutputFormat)
  | .resolve ns kind name apiVersion format =>
    some ((Resolution.startKey ns kind name apiVersion).map Target.controller, format)
  | .pod ns name format => some (.ok (.pod ns name), format)
  | _ => none

/-- An invocation is to search with some settings: these are loaded, a start is named, and
there is a connection. -/
def SearchesWith (environment : Environment) (tree : FileTree) (invocation : Invocation)
    (settings : Settings) : Prop :=
  ∃ target format begun, searchOf invocation.command = some (target, format) ∧
    prepare environment tree invocation target = .ok (settings, begun)

theorem load_of_prepare (prepared : prepare environment tree invocation target =
      .ok (settings, begun)) :
    Settings.load environment tree (contextOf environment tree invocation) = .ok settings := by
  rw [prepare, SettingsCommand.loaded] at prepared
  cases loaded : Settings.load environment tree (contextOf environment tree invocation) with
  | error fault =>
      rw [loaded] at prepared
      cases prepared
  | ok other =>
      rw [loaded] at prepared
      cases target with
      | error chain => cases prepared
      | ok aimed =>
          cases connected : Connection.select environment tree invocation.context with
          | error chain =>
              rw [connected] at prepared
              cases prepared
          | ok connection =>
              rw [connected] at prepared
              cases prepared
              rfl

theorem SearchesWith.loaded (searches : SearchesWith environment tree invocation settings) :
    Settings.load environment tree (contextOf environment tree invocation) = .ok settings := by
  obtain ⟨_, _, _, _, prepared⟩ := searches
  exact load_of_prepare prepared

/-- Runs that do not break off end with a code of at most two. -/
theorem ne_breakdown {outcome : Outcome} (usual : outcome.code ≤ 2) : outcome ≠ .breakdown := by
  rintro rfl
  exact absurd usual (by decide)

theorem code_runSettings_le (context? : Option String) (command : SettingsCommand) :
    (runSettings environment tree context? command).1.code ≤ 2 := by
  unfold runSettings
  cases command.run environment context? tree with
  | ok answer => exact Nat.zero_le 2
  | error chain =>
      dsimp only
      split
      · exact Nat.le_succ 1
      · exact Nat.le_succ 1

theorem runSearch_eq_breakdown_iff :
    (runSearch api environment tree invocation target format server).1 = .breakdown ↔
      ∃ settings begun, prepare environment tree invocation target = .ok (settings, begun) ∧
        ¬Session.HasInstant 0 settings.cacheSyncTimeoutSeconds := by
  unfold runSearch
  cases prepare environment tree invocation target with
  | error chain =>
      dsimp only
      refine iff_of_false (ne_breakdown (Nat.le_succ 1)) ?_
      rintro ⟨_, _, same, _⟩
      cases same
  | ok prepared =>
      obtain ⟨settings, begun⟩ := prepared
      by_cases deadline : Session.HasInstant 0 settings.cacheSyncTimeoutSeconds
      · obtain ⟨_, _, _, started⟩ :=
          Session.exists_startOn api settings (Live.start server) deadline
        simp only [Session.start, started]
        refine iff_of_false ?_ ?_
        · cases search api begun _ with
          | mk answer session =>
              cases answer with
              | ok resolution => exact ne_breakdown (Nat.zero_le 2)
              | error chain => exact ne_breakdown (Nat.le_succ 1)
        · rintro ⟨others, _, same, late⟩
          cases same
          exact late deadline
      · have failed :=
          Session.startOn_of_not_hasDeadline api settings (Live.start server) deadline
        simp only [Session.start, failed]
        exact iff_of_true trivial ⟨settings, begun, rfl, deadline⟩

theorem runInvocation_of_search
    (asked : searchOf invocation.command = some (target, format)) :
    (runInvocation api environment tree invocation server).1.1 =
      (runSearch api environment tree invocation target format server).1 := by
  obtain ⟨context, command⟩ := invocation
  cases command with
  | resolve | pod =>
      cases asked
      rfl
  | settings | version => cases asked

theorem code_runInvocation_le (silent : searchOf invocation.command = none) :
    (runInvocation api environment tree invocation server).1.1.code ≤ 2 := by
  obtain ⟨context, command⟩ := invocation
  cases command with
  | resolve | pod => cases silent
  | settings command => exact code_runSettings_le _ command
  | version => exact Nat.zero_le 2

theorem runInvocation_eq_breakdown_iff :
    (runInvocation api environment tree invocation server).1.1 = .breakdown ↔
      ∃ settings, SearchesWith environment tree invocation settings ∧
        ¬Session.HasInstant 0 settings.cacheSyncTimeoutSeconds := by
  cases asked : searchOf invocation.command with
  | none =>
      refine iff_of_false (ne_breakdown (code_runInvocation_le asked)) ?_
      rintro ⟨_, ⟨_, _, _, same, _⟩, _⟩
      cases asked.symm.trans same
  | some search =>
      obtain ⟨target, format⟩ := search
      rw [runInvocation_of_search asked, runSearch_eq_breakdown_iff]
      constructor
      · rintro ⟨settings, begun, prepared, late⟩
        exact ⟨settings, ⟨target, format, begun, asked, prepared⟩, late⟩
      · rintro ⟨settings, ⟨other, _, begun, same, prepared⟩, late⟩
        cases asked.symm.trans same
        exact ⟨settings, begun, prepared, late⟩

/-- A run breaks off where it is to search and its settings leave no instant at which
the waiting for the stores ends. -/
theorem run_eq_breakdown_iff :
    (run api environment tree arguments server).1.1 = .breakdown ↔
      ∃ invocation settings, Invocation.read arguments = .ok invocation ∧
        SearchesWith environment tree invocation settings ∧
        ¬Session.HasInstant 0 settings.cacheSyncTimeoutSeconds := by
  unfold run
  cases Invocation.read arguments with
  | error halt =>
      simp only [reduceCtorEq, false_and, exists_false, iff_false]
      cases halt with
      | misused => exact ne_breakdown (Nat.le_refl 2)
      | help => exact ne_breakdown (Nat.zero_le 2)
      | version => exact ne_breakdown (Nat.zero_le 2)
  | ok invocation =>
      simp only [runInvocation_eq_breakdown_iff, Except.ok.injEq, exists_and_left,
        exists_eq_left']

end Program

namespace Settings

variable {environment : Environment} {tree : FileTree} {settings : Settings}

/-- Settings that are accepted: those that are loaded for a context, and those that are
written when a setting is set. -/
inductive Accepted (environment : Environment) (tree : FileTree) : Settings → Prop
  | loaded {context? : Option String} {settings : Settings}
      (loaded : load environment tree context? = .ok settings) : Accepted environment tree settings
  | written {context? : Option String} {name text output : String} {other : FileTree}
      {settings : Settings}
      (done : Program.runSettings environment tree context? (.set name text) =
        (.success output, other))
      (holds : loadFile other (rootFile environment) = .ok settings) :
      Accepted environment tree settings

theorem Accepted.check (accepted : Accepted environment tree settings) :
    settings.check = .ok () := by
  cases accepted with
  | loaded loaded => exact check_of_load loaded
  | @written context? name text output other settings done holds =>
      obtain ⟨written, ⟨_, _, _, passed⟩, saved⟩ := runSettings_set_eq_success_iff.mp ⟨output, done⟩
      cases (loadFile_of_save saved).symm.trans holds
      exact passed

/-- Accepted settings always have a period for discovery, whereas the time for which
stores are waited for may be any.  Whether a session starts with them depends on that
time alone: it must lead to an instant that the clock can count, wherever the clock
stands.  Then the timer of the session is set, and the waiting has ended by its
deadline.  A run of the program breaks off exactly if it is to search with accepted
settings that lead to no such instant. -/
theorem accepted_start (environment : Environment) (tree : FileTree) :
    (∀ settings, Accepted environment tree settings →
      settings.discoveryRefreshSeconds ≠ 0 ∧
      (∀ seconds, { settings with cacheSyncTimeoutSeconds := seconds }.check = .ok ()) ∧
      ∀ {σ : Type} (api : Api σ) (live : Live σ),
        (Session.HasInstant live.now settings.cacheSyncTimeoutSeconds →
          ∃ session, Session.startOn api settings live = .ok session ∧
            Session.Started settings live session) ∧
        (¬Session.HasInstant live.now settings.cacheSyncTimeoutSeconds →
          Session.startOn api settings live = .error .noDeadline)) ∧
    ∀ {σ : Type} (api : Api σ) (server : σ) (arguments : List String),
      (Program.run api environment tree arguments server).1.1 = .breakdown ↔
        ∃ invocation settings, Invocation.read arguments = .ok invocation ∧
          Program.SearchesWith environment tree invocation settings ∧
          Accepted environment tree settings ∧
          ¬Session.HasInstant 0 settings.cacheSyncTimeoutSeconds := by
  constructor
  · intro settings accepted
    obtain ⟨distinct, period⟩ := check_eq_ok_iff.mp accepted.check
    refine ⟨period, fun seconds => check_eq_ok_iff.mpr ⟨distinct, period⟩,
      fun api live => ⟨?_, ?_⟩⟩
    · exact Session.exists_started api period
    · exact Session.startOn_of_not_hasDeadline api settings live
  · intro σ api server arguments
    rw [Program.run_eq_breakdown_iff]
    constructor
    · rintro ⟨invocation, settings, read, searches, late⟩
      exact ⟨invocation, settings, read, searches, .loaded searches.loaded, late⟩
    · rintro ⟨invocation, settings, read, searches, _, late⟩
      exact ⟨invocation, settings, read, searches, late⟩

/-- The longest time that leads to an instant while the clock has not counted a second. -/
def longest : Settings :=
  { default with
    discoveryRefreshSeconds := 18446744073709551615
    cacheSyncTimeoutSeconds := 9223372036854775807 }

def endless : Settings :=
  { default with cacheSyncTimeoutSeconds := 18446744073709551615 }

def longestTree : FileTree :=
  treeOf ("discoveryRefreshSeconds: 18446744073709551615\n" ++
    "cacheSyncTimeoutSeconds: 9223372036854775807\n") ""

def endlessTree : FileTree :=
  (treeOf "cacheSyncTimeoutSeconds: 18446744073709551615\n" "").put ["work", "k"] (.file (some
    "contexts: [{name: a, context: {cluster: c}}]\nclusters: [{name: c, cluster: {server: h}}]\n"))

theorem accepted_start_longest :
    Accepted nearby longestTree longest ∧
    (∃ session, Session.startOn Server.api longest (Live.start Server.empty) = .ok session ∧
      session.live.timer =
        some ⟨18446744073709551615000, session.live.now + 18446744073709551615000⟩) ∧
    Session.startOn Server.api longest { Live.start Server.empty with now := 1000 } =
      .error .noDeadline := by
  have loaded : load nearby longestTree none = .ok longest := by decide +kernel
  have accepted := Accepted.loaded loaded
  obtain ⟨_, _, begins⟩ := (accepted_start nearby longestTree).1 longest accepted
  refine ⟨accepted, ?_, ?_⟩
  · obtain ⟨session, started, like⟩ := (begins Server.api (Live.start Server.empty)).1 (by decide)
    exact ⟨session, started, like.timer⟩
  · exact (begins Server.api { Live.start Server.empty with now := 1000 }).2 (by decide)

/-- Settings are written and loaded with which no session starts, wherever the clock
stands, and a run that is to search with them breaks off. -/
theorem start_without_deadline :
    (∃ other, Program.runSettings nearby .empty none
        (.set "cacheSyncTimeoutSeconds" "18446744073709551615") =
      (.success "Configuration saved to cfg/config.yaml\n", other) ∧
      loadFile other (rootFile nearby) = .ok endless) ∧
    load nearby endlessTree none = .ok endless ∧
    (∀ live : Live Server, Session.startOn Server.api endless live = .error .noDeadline) ∧
    (Program.run Server.api (nearby.set "KUBECONFIG" (some (.ofText "k"))) endlessTree
        ["resolve", "-n", "team", "--kind", "Job", "--name", "load", "--context", "a"]
        Server.empty).1.1 = .breakdown := by
  refine ⟨?_, by decide +kernel, fun live => ?_, by decide +kernel⟩
  · have drafted : Drafts nearby .empty "cacheSyncTimeoutSeconds" "18446744073709551615" endless :=
      ⟨default, by decide, by decide, by decide⟩
    have made : FileTree.empty.makeParent (rootFile nearby) =
        .ok (FileTree.empty.put ["work", "cfg"] .directory) := by
      decide
    obtain ⟨other, saved⟩ : ∃ other, save .empty endless (rootFile nearby) = .ok other :=
      exists_save_iff.mpr
        ⟨by decide, by decide, _, ["work", "cfg", "config.yaml"], made, by decide, by decide⟩
    exact ⟨other, runSettings_set_of_ok (setRoot_eq_ok_iff.mpr ⟨endless, drafted, saved⟩),
      loadFile_of_save saved⟩
  · have word : endless.cacheSyncTimeoutSeconds.toNat = 18446744073709551615 := by decide
    have late : ¬Session.HasInstant live.now endless.cacheSyncTimeoutSeconds := by
      rw [Session.hasInstant_iff_lt]
      omega
    exact Session.startOn_of_not_hasDeadline Server.api endless live late

end Settings

end Lineage
