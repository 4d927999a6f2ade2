import Lineage.Mirror
import Mathlib.Data.List.Basic
import Mathlib.Data.List.Induction
import Mathlib.Data.List.TakeWhile

/-!
# What a store shows after a history

A store that is fed by a history of events shows under an identity, that is a
namespace or none together with a name, what was put there last: by a write, or
by the last complete list if the object was gathered for it.  Any later write or
deletion under the identity, and any later list, settles the matter anew.

The buffer is described in the same way, so that the contents of a list are
known when it is completed.  Both descriptions speak of the history alone; one
event changes the description as it changes the store, and by induction on the
history the two agree.  In a mirror each store hears its own events only.
-/

namespace Lineage

namespace StoredObject

theorem isAt_iff {object : StoredObject} {ns : Option String} {name : String} :
    object.isAt ns name = true ↔ object.ns = ns ∧ object.name = name := by
  simp [isAt]

theorem find?_without (objects : List StoredObject) (object : StoredObject) (ns : Option String)
    (name : String) :
    find? (without objects object.ns object.name) ns name =
      if object.isAt ns name then none else find? objects ns name := by
  rw [find?, without, List.find?_filter]
  by_cases same : object.isAt ns name = true
  · obtain ⟨rfl, rfl⟩ := isAt_iff.mp same
    rw [if_pos same, List.find?_eq_none]
    simp
  · rw [if_neg same, find?]
    congr 1
    funext other
    by_cases found : other.isAt ns name = true
    · obtain ⟨rfl, rfl⟩ := isAt_iff.mp found
      have different : ¬ other.isAt object.ns object.name = true := by
        rw [isAt_iff] at same ⊢
        exact fun equal => same ⟨equal.1.symm, equal.2.symm⟩
      simp [found, different]
    · simp [found]

theorem find?_without_eq_some_iff {objects : List StoredObject} {object found : StoredObject}
    {ns : Option String} {name : String} :
    find? (without objects object.ns object.name) ns name = some found ↔
      find? objects ns name = some found ∧ ¬ object.isAt ns name = true := by
  rw [find?_without]
  by_cases same : object.isAt ns name = true <;> simp [same]

theorem find?_put_eq_some_iff {objects : List StoredObject} {object found : StoredObject}
    {ns : Option String} {name : String} :
    find? (put objects object) ns name = some found ↔
      (object = found ∧ found.isAt ns name = true) ∨
        (find? objects ns name = some found ∧ ¬ object.isAt ns name = true) := by
  have appended : find? (put objects object) ns name =
      (find? (without objects object.ns object.name) ns name).or (find? [object] ns name) :=
    List.find?_append
  rw [appended, find?_without]
  by_cases same : object.isAt ns name = true
  · have stays : object = found → found.isAt ns name = true := by
      rintro rfl
      exact same
    simpa [find?, same] using stays
  · have different : ¬ (object = found ∧ found.isAt ns name = true) := by
      rintro ⟨rfl, isAt⟩
      exact same isAt
    rw [if_neg same, or_iff_right different]
    simp [find?, same]

end StoredObject

/-- An event that stands in a history behind the given ones, and that no later event
overrides. -/
def Since (overrides : StoreEvent → Prop) (history before : List StoreEvent)
    (event : StoreEvent) : Prop :=
  ∃ after, history = before ++ event :: after ∧ ∀ later ∈ after, ¬ overrides later

theorem not_since_nil {overrides : StoreEvent → Prop} {before : List StoreEvent}
    {event : StoreEvent} : ¬ Since overrides [] before event := by
  rintro ⟨after, split, _⟩
  simp at split

theorem since_concat {overrides : StoreEvent → Prop} {history before : List StoreEvent}
    {event final : StoreEvent} :
    Since overrides (history ++ [final]) before event ↔
      (before = history ∧ event = final) ∨
        (Since overrides history before event ∧ ¬ overrides final) := by
  constructor
  · rintro ⟨after, split, kept⟩
    rcases List.eq_nil_or_concat' after with rfl | ⟨after, last, rfl⟩
    · obtain ⟨rfl, same⟩ := List.append_inj' split rfl
      exact .inl ⟨rfl, (List.singleton_inj.mp same).symm⟩
    · rw [← List.cons_append, ← List.append_assoc] at split
      obtain ⟨rfl, same⟩ := List.append_inj' split rfl
      obtain rfl := List.singleton_inj.mp same
      obtain ⟨kept, keptLast⟩ := List.forall_mem_append.mp kept
      exact .inr ⟨⟨after, rfl, kept⟩, keptLast final (List.mem_singleton_self final)⟩
  · rintro (⟨rfl, rfl⟩ | ⟨⟨after, rfl, kept⟩, keptLast⟩)
    · exact ⟨[], rfl, List.forall_mem_nil _⟩
    · exact ⟨after ++ [final], by simp,
        List.forall_mem_append.mpr ⟨kept, List.forall_mem_singleton.mpr keptLast⟩⟩

namespace StoreEvent

/-- Whether an event decides what is in the buffer under an identity. -/
def Gathers (ns : Option String) (name : String) : StoreEvent → Prop
  | begin | finish => True
  | gather object => object.isAt ns name = true
  | write _ | delete _ | close => False

/-- Whether an event decides what a store shows under an identity. -/
def Settles (ns : Option String) (name : String) : StoreEvent → Prop
  | finish => True
  | write object | delete object => object.isAt ns name = true
  | begin | gather _ | close => False

end StoreEvent

/-- The object that has been gathered last under an identity since a list was
begun or completed. -/
def Gathered (history : List StoreEvent) (ns : Option String) (name : String)
    (object : StoredObject) : Prop :=
  object.isAt ns name = true ∧
    ∃ before, Since (StoreEvent.Gathers ns name) history before (.gather object)

/-- The object that a history has put last under an identity, by a write or by the
completion of the list for which it was gathered, without deleting it since. -/
inductive Shown (history : List StoreEvent) (ns : Option String) (name : String)
    (object : StoredObject) : Prop
  | written {before : List StoreEvent} (isAt : object.isAt ns name = true)
      (last : Since (StoreEvent.Settles ns name) history before (.write object))
  | listed {before : List StoreEvent} (gathered : Gathered before ns name object)
      (last : Since (StoreEvent.Settles ns name) history before .finish)

section Steps

variable {history : List StoreEvent} {event : StoreEvent} {ns : Option String} {name : String}
  {object : StoredObject}

theorem not_gathered_nil : ¬ Gathered [] ns name object := by
  rintro ⟨_, before, since⟩
  exact not_since_nil since

theorem not_shown_nil : ¬ Shown [] ns name object := by
  rintro (⟨_, since⟩ | ⟨_, since⟩) <;> exact not_since_nil since

theorem gathered_concat :
    Gathered (history ++ [event]) ns name object ↔
      (event = .gather object ∧ object.isAt ns name = true) ∨
        (Gathered history ns name object ∧ ¬ event.Gathers ns name) := by
  constructor
  · rintro ⟨isAt, before, since⟩
    rcases since_concat.mp since with ⟨_, rfl⟩ | ⟨since, kept⟩
    · exact .inl ⟨rfl, isAt⟩
    · exact .inr ⟨⟨isAt, before, since⟩, kept⟩
  · rintro (⟨rfl, isAt⟩ | ⟨⟨isAt, before, since⟩, kept⟩)
    · exact ⟨isAt, history, since_concat.mpr (.inl ⟨rfl, rfl⟩)⟩
    · exact ⟨isAt, before, since_concat.mpr (.inr ⟨since, kept⟩)⟩

theorem shown_concat :
    Shown (history ++ [event]) ns name object ↔
      (event = .write object ∧ object.isAt ns name = true) ∨
        (event = .finish ∧ Gathered history ns name object) ∨
          (Shown history ns name object ∧ ¬ event.Settles ns name) := by
  constructor
  · rintro (⟨isAt, since⟩ | ⟨gathered, since⟩)
    · rcases since_concat.mp since with ⟨_, rfl⟩ | ⟨since, kept⟩
      · exact .inl ⟨rfl, isAt⟩
      · exact .inr (.inr ⟨.written isAt since, kept⟩)
    · rcases since_concat.mp since with ⟨rfl, rfl⟩ | ⟨since, kept⟩
      · exact .inr (.inl ⟨rfl, gathered⟩)
      · exact .inr (.inr ⟨.listed gathered since, kept⟩)
  · rintro (⟨rfl, isAt⟩ | ⟨rfl, gathered⟩ | ⟨⟨isAt, since⟩ | ⟨gathered, since⟩, kept⟩)
    · exact .written isAt (since_concat.mpr (.inl ⟨rfl, rfl⟩))
    · exact .listed gathered (since_concat.mpr (.inl ⟨rfl, rfl⟩))
    · exact .written isAt (since_concat.mpr (.inr ⟨since, kept⟩))
    · exact .listed gathered (since_concat.mpr (.inr ⟨since, kept⟩))

end Steps

namespace Store

/-- A store that has heard of a history without closing: it shows and has in its
buffer what the history has put there last. -/
structure Reflects (history : List StoreEvent) (store : Store) : Prop where
  isOpen : store.isClosed = false
  objects : ∀ ns name object,
    StoredObject.find? store.objects ns name = some object ↔ Shown history ns name object
  buffer : ∀ ns name object,
    StoredObject.find? store.buffer ns name = some object ↔ Gathered history ns name object

theorem reflects_empty : Reflects [] empty where
  isOpen := rfl
  objects ns name object := by
    simp [empty, StoredObject.find?, not_shown_nil]
  buffer ns name object := by
    simp [empty, StoredObject.find?, not_gathered_nil]

/-- An event changes a store as it changes the description of its history. -/
theorem Reflects.step {history : List StoreEvent} {store : Store}
    (reflects : Reflects history store) {event : StoreEvent} (going : event ≠ .close) :
    Reflects (history ++ [event]) (store.step event) := by
  obtain ⟨isOpen, objects, buffer⟩ := reflects
  have opened : ¬ store.isClosed = true := by simp [isOpen]
  rw [Store.step.eq_def, if_neg opened]
  cases event with
  | begin =>
      refine ⟨isOpen, fun ns name object => ?_, fun ns name object => ?_⟩
      · simp [shown_concat, StoreEvent.Settles, objects]
      · simp [gathered_concat, StoreEvent.Gathers, StoredObject.find?]
  | gather gathered =>
      refine ⟨isOpen, fun ns name object => ?_, fun ns name object => ?_⟩
      · simp [shown_concat, StoreEvent.Settles, objects]
      · simp [gathered_concat, StoreEvent.Gathers, StoredObject.find?_put_eq_some_iff, buffer]
  | finish =>
      refine ⟨isOpen, fun ns name object => ?_, fun ns name object => ?_⟩
      · simp [shown_concat, StoreEvent.Settles, buffer]
      · simp [gathered_concat, StoreEvent.Gathers, StoredObject.find?]
  | write written =>
      refine ⟨isOpen, fun ns name object => ?_, fun ns name object => ?_⟩
      · simp [shown_concat, StoreEvent.Settles, StoredObject.find?_put_eq_some_iff, objects]
      · simp [gathered_concat, StoreEvent.Gathers, buffer]
  | delete deleted =>
      refine ⟨isOpen, fun ns name object => ?_, fun ns name object => ?_⟩
      · simp [shown_concat, StoreEvent.Settles, StoredObject.find?_without_eq_some_iff, objects]
      · simp [gathered_concat, StoreEvent.Gathers, buffer]
  | close => exact absurd rfl going

theorem run_append (store : Store) (first second : List StoreEvent) :
    store.run (first ++ second) = (store.run first).run second :=
  List.foldl_append

/-- A store that has not been closed reflects its history. -/
theorem reflects_run {history : List StoreEvent} (going : .close ∉ history) :
    Reflects history (empty.run history) := by
  -- A history grows at its end, where the latest event settles what is shown.
  induction history using List.reverseRecOn with
  | nil => exact reflects_empty
  | append_singleton history event ih =>
      rw [List.mem_append, not_or, List.mem_singleton] at going
      rw [run_append]
      exact (ih going.1).step (Ne.symm going.2)

theorem step_of_isClosed {store : Store} (closed : store.isClosed = true) (event : StoreEvent) :
    store.step event = store := by
  rw [step.eq_def, if_pos closed]

theorem run_of_isClosed {store : Store} (closed : store.isClosed = true)
    (events : List StoreEvent) : store.run events = store := by
  induction events with
  | nil => rfl
  | cons event events ih =>
      rw [run, List.foldl_cons, step_of_isClosed closed]
      exact ih

theorem isClosed_step_close (store : Store) : (store.step .close).isClosed = true := by
  by_cases closed : store.isClosed = true
  · rw [step_of_isClosed closed, closed]
  · rw [step, if_neg closed]

theorem objects_step_close (store : Store) : (store.step .close).objects = store.objects := by
  by_cases closed : store.isClosed = true
  · rw [step_of_isClosed closed]
  · rw [step, if_neg closed]

/-- The objects of a store are settled when it is closed. -/
theorem objects_run_takeWhile (store : Store) (events : List StoreEvent) :
    (store.run (events.takeWhile fun event => event ≠ .close)).objects =
      (store.run events).objects := by
  induction events generalizing store with
  | nil => rfl
  | cons event events ih =>
      by_cases last : event = .close
      · subst last
        rw [List.takeWhile_cons_of_neg (by simp)]
        calc
          store.objects = (store.step .close).objects := (objects_step_close store).symm
          _ = ((store.step .close).run events).objects :=
            congrArg objects (run_of_isClosed (isClosed_step_close store) events).symm
      · rw [List.takeWhile_cons_of_pos (by simpa using last)]
        exact ih (store.step event)

/-- Stores that differ in their buffers at most. -/
structure SameContents (first second : Store) : Prop where
  objects : first.objects = second.objects
  isClosed : first.isClosed = second.isClosed

theorem SameContents.step {first second : Store} (same : first.SameContents second)
    {event : StoreEvent} (other : event ≠ .finish) :
    (first.step event).SameContents (second.step event) := by
  obtain ⟨objects, isClosed⟩ := same
  by_cases closed : second.isClosed = true
  · rw [step_of_isClosed closed, step_of_isClosed (isClosed.trans closed)]
    exact ⟨objects, isClosed⟩
  · have opened : ¬ first.isClosed = true := isClosed ▸ closed
    rw [Store.step.eq_def, Store.step.eq_def second, if_neg closed, if_neg opened]
    cases event with
    | begin => exact ⟨objects, isClosed⟩
    | gather gathered => exact ⟨objects, isClosed⟩
    | finish => exact absurd rfl other
    | write written => exact ⟨congrArg (StoredObject.put · written) objects, isClosed⟩
    | delete deleted =>
        exact ⟨congrArg (StoredObject.without · deleted.ns deleted.name) objects, isClosed⟩
    | close => exact ⟨objects, rfl⟩

/-- What is in the buffer does not show as long as no list is completed. -/
theorem SameContents.run {first second : Store} (same : first.SameContents second)
    {events : List StoreEvent} (pending : .finish ∉ events) :
    (first.run events).SameContents (second.run events) := by
  induction events generalizing first second with
  | nil => exact same
  | cons event events ih =>
      rw [List.mem_cons, not_or] at pending
      exact ih (same.step (Ne.symm pending.1)) pending.2

theorem sameContents_gather (store : Store) (object : StoredObject) :
    (store.step (.gather object)).SameContents store := by
  by_cases closed : store.isClosed = true
  · rw [step_of_isClosed closed]
    exact ⟨rfl, rfl⟩
  · rw [step, if_neg closed]
    exact ⟨rfl, rfl⟩

theorem get?_congr {first second : Store} (same : first.objects = second.objects)
    (ns name : String) : first.get? ns name = second.get? ns name := by
  rw [get?, get?, same]

end Store

namespace Mirror

def told (kind : WorkloadKind) (events : List (WorkloadKind × StoreEvent)) : List StoreEvent :=
  (events.filter fun event => event.1 = kind).map Prod.snd

/-- What the store of a kind hears of a history: nothing after it has been closed. -/
def heard (kind : WorkloadKind) (events : List (WorkloadKind × StoreEvent)) : List StoreEvent :=
  (told kind events).takeWhile fun event => event ≠ .close

@[simp]
theorem told_append (kind : WorkloadKind) (first second : List (WorkloadKind × StoreEvent)) :
    told kind (first ++ second) = told kind first ++ told kind second := by
  simp [told]

@[simp]
theorem told_cons_self (kind : WorkloadKind) (event : StoreEvent)
    (events : List (WorkloadKind × StoreEvent)) :
    told kind ((kind, event) :: events) = event :: told kind events := by
  simp [told]

theorem close_not_mem_heard (kind : WorkloadKind) (events : List (WorkloadKind × StoreEvent)) :
    .close ∉ heard kind events := by
  intro member
  simpa using List.mem_takeWhile_imp member

theorem kinds_run (mirror : Mirror) (events : List (WorkloadKind × StoreEvent)) :
    (mirror.run events).kinds = mirror.kinds := by
  induction events generalizing mirror with
  | nil => rfl
  | cons event events ih => exact ih (mirror.step event.1 event.2)

/-- Every store goes through the events of its own kind. -/
theorem stores_run (mirror : Mirror) (events : List (WorkloadKind × StoreEvent))
    (kind : WorkloadKind) :
    (mirror.run events).stores kind = (mirror.stores kind).run (told kind events) := by
  induction events generalizing mirror with
  | nil => rfl
  | cons event events ih =>
      refine (ih (mirror.step event.1 event.2)).trans ?_
      by_cases own : event.1 = kind
      · subst own
        simp [Mirror.step, told, Store.run]
      · have other : ¬ kind = event.1 := Ne.symm own
        simp [Mirror.step, told, own, other]

theorem objects_run (kinds : KindSet) (events : List (WorkloadKind × StoreEvent))
    (kind : WorkloadKind) :
    (((empty kinds).run events).stores kind).objects =
      (Store.empty.run (heard kind events)).objects := by
  rw [stores_run, heard, Store.objects_run_takeWhile]
  rfl

theorem get_congr {first second : Mirror} {kind : WorkloadKind}
    (kinds : first.kinds = second.kinds)
    (objects : (first.stores kind).objects = (second.stores kind).objects) (ns name : String) :
    first.get kind ns name = second.get kind ns name := by
  rw [get, get, kinds, Store.get?_congr objects]

/-- What a mirror answers after any history of events for its stores.  It fails for
the kinds that it does not follow.  Otherwise it answers with the object that the
history has put last under the namespace and name, or without a namespace if there is
none.  Nothing but what the store of the kind has heard before it was closed has a
part in this, nor has anything gathered for a list that is not complete. -/
theorem get_after_history (kinds : KindSet) (events : List (WorkloadKind × StoreEvent))
    (kind : WorkloadKind) (ns name : String) :
    (((empty kinds).run events).get kind ns name = .error (.cacheDisabled kind) ↔
      kinds.has kind = false) ∧
    (kinds.has kind = true →
      ∃ found, ((empty kinds).run events).get kind ns name = .ok found ∧
        ∀ object, found = some object ↔
          Shown (heard kind events) (some ns) name object ∨
            (∀ other, ¬ Shown (heard kind events) (some ns) name other) ∧
              Shown (heard kind events) none name object) ∧
    (∀ others, heard kind others = heard kind events →
      ((empty kinds).run others).get kind ns name =
        ((empty kinds).run events).get kind ns name) ∧
    (∀ before after object, events = before ++ (kind, .gather object) :: after →
      (kind, .finish) ∉ after →
      ((empty kinds).run events).get kind ns name =
        ((empty kinds).run (before ++ after)).get kind ns name) := by
  have kept : ∀ history, ((empty kinds).run history).kinds = kinds := kinds_run (empty kinds)
  refine ⟨?_, fun enabled => ?_, fun others same => ?_, fun before after object split pending => ?_⟩
  · rw [get, kept]
    by_cases enabled : kinds.has kind = true <;> simp [enabled]
  · have shown := (Store.reflects_run (close_not_mem_heard kind events)).objects
    refine ⟨(((empty kinds).run events).stores kind).get? ns name, ?_, fun object => ?_⟩
    · rw [get, kept, if_pos enabled]
    · simp only [← shown, ← Option.eq_none_iff_forall_ne_some]
      rw [Store.get?_congr (objects_run kinds events kind), Store.get?]
      cases StoredObject.find? (Store.empty.run (heard kind events)).objects (some ns) name with
      | none => simp
      | some found => simp
  · refine get_congr ((kept others).trans (kept events).symm) ?_ ns name
    rw [objects_run, objects_run, same]
  · subst split
    refine get_congr ((kept _).trans (kept (before ++ after)).symm) ?_ ns name
    have unfinished : .finish ∉ told kind after := by
      simpa [told] using pending
    rw [stores_run, stores_run, told_append, told_append, told_cons_self, Store.run_append,
      Store.run_append]
    exact ((Store.sameContents_gather _ object).run unfinished).objects

/-- A deployment that a list has under the owner `all`. -/
def listedWeb : StoredObject :=
  ⟨some "team", "web", [⟨"v1", "Fleet", "all", "", some true⟩]⟩

/-- A list of deployments is begun after one has been written, and is not complete
when the store of the jobs is closed. -/
def interleaved : List (WorkloadKind × StoreEvent) :=
  [(.deployment, .write ⟨some "team", "web", []⟩),
    (.deployment, .begin),
    (.deployment, .gather listedWeb),
    (.job, .write ⟨some "team", "web", []⟩),
    (.job, .close)]

theorem get_after_history_interleaved :
    ((empty .full).run interleaved).get .deployment "team" "web" =
      ((empty .full).run (interleaved.eraseIdx 2)).get .deployment "team" "web" ∧
    ((empty .full).run (interleaved ++ [(.deployment, .finish)])).get .deployment "team" "web" =
      .ok (some listedWeb) := by
  constructor
  · obtain ⟨_, _, _, hidden⟩ := get_after_history .full interleaved .deployment "team" "web"
    exact hidden (interleaved.take 2) (interleaved.drop 3) listedWeb rfl (by decide)
  · obtain ⟨_, answered, _⟩ := get_after_history .full (interleaved ++ [(.deployment, .finish)])
      .deployment "team" "web"
    obtain ⟨found, got, decided⟩ := answered rfl
    have gathered : Gathered ([.write ⟨some "team", "web", []⟩, .begin] ++ [.gather listedWeb])
        (some "team") "web" listedWeb :=
      ⟨rfl, _, [], rfl, List.forall_mem_nil _⟩
    have listed : found = some listedWeb :=
      (decided listedWeb).mpr (.inl (.listed gathered ⟨[], rfl, List.forall_mem_nil _⟩))
    rw [got, listed]

end Mirror

end Lineage
