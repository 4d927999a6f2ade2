import Lineage.Proofs.Climb
import Mathlib.Data.List.Chain
import Mathlib.Logic.Relation

/-!
# Trails of owners

Where lookups of parents never change, an ascent follows a trail: pairwise
distinct keys of which each is the parent of the one before.  A trail is
complete when it cannot go on, because its last key is a root, or could not be
looked up, or has a parent that the trail has passed.

From every start there is at most one complete trail, and an ascent that ends
has followed it and answers its outcome.
-/

namespace Lineage

/-- The keys through which parents lead from a start, the start itself first. -/
@[ext]
structure Trail (parent : Key → Except Fault (Option Key)) (start : Key) where
  later : List Key
  distinct : (start :: later).Nodup
  linked : (start :: later).IsChain fun key owner => parent key = .ok (some owner)

namespace Trail

variable {parent : Key → Except Fault (Option Key)} {start : Key}

def keys (trail : Trail parent start) : List Key :=
  start :: trail.later

def last (trail : Trail parent start) : Key :=
  trail.keys.getLast (List.cons_ne_nil _ _)

/-- A trail that leads to no further key. -/
def Complete (trail : Trail parent start) : Prop :=
  ∀ owner, parent trail.last = .ok (some owner) → owner ∈ trail.keys

/-- What the lookup of the last key of a trail means for a search. -/
def outcome (trail : Trail parent start) : Except Fault (Option Key) :=
  match parent trail.last with
  | .error fault => .error fault
  | .ok none => .ok (some trail.last)
  | .ok (some owner) => .error (.cycleDetected owner)

/-- A key has one parent. -/
theorem owner_unique {key owner other : Key} (found : parent key = .ok (some owner))
    (foundAgain : parent key = .ok (some other)) : owner = other :=
  Option.some.inj (Except.ok.inj (found.symm.trans foundAgain))

theorem complete_of_closes {trail : Trail parent start} {owner : Key}
    (closes : parent trail.last = .ok (some owner)) (passed : owner ∈ trail.keys) :
    trail.Complete := by
  intro other found
  exact owner_unique closes found ▸ passed

theorem outcome_of_fault {trail : Trail parent start} {fault : Fault}
    (found : parent trail.last = .error fault) : trail.outcome = .error fault := by
  simp only [outcome, found]

theorem outcome_of_root {trail : Trail parent start} (found : parent trail.last = .ok none) :
    trail.outcome = .ok (some trail.last) := by
  simp only [outcome, found]

theorem outcome_of_owner {trail : Trail parent start} {owner : Key}
    (found : parent trail.last = .ok (some owner)) :
    trail.outcome = .error (.cycleDetected owner) := by
  simp only [outcome, found]

theorem getLast?_keys (trail : Trail parent start) : trail.keys.getLast? = some trail.last :=
  List.getLast?_eq_getLast_of_ne_nil _

/-- The end of a trail is seen from any part that it ends with. -/
theorem last_of_keys {trail : Trail parent start} {before after : List Key} {key : Key}
    (split : trail.keys = before ++ after) (ending : after.getLast? = some key) :
    trail.last = key := by
  apply Option.some.inj
  rw [← getLast?_keys, split, List.getLast?_append, ending]
  rfl

theorem last_of_concat {trail : Trail parent start} {before : List Key} {key : Key}
    (split : trail.keys = before ++ [key]) : trail.last = key :=
  last_of_keys split rfl

theorem keys_eq_dropLast_append (trail : Trail parent start) :
    trail.keys = trail.keys.dropLast ++ [trail.last] :=
  (List.dropLast_append_getLast _).symm

theorem last_mem_keys (trail : Trail parent start) : trail.last ∈ trail.keys :=
  List.getLast_mem _

def single (parent : Key → Except Fault (Option Key)) (start : Key) : Trail parent start :=
  ⟨[], List.nodup_singleton start, .singleton start⟩

/-- A trail that goes on to the parent of its last key. -/
def extend (trail : Trail parent start) (owner : Key)
    (next : parent trail.last = .ok (some owner)) (fresh : owner ∉ trail.keys) :
    Trail parent start where
  later := trail.later ++ [owner]
  distinct := by
    rw [← List.cons_append, List.nodup_append]
    refine ⟨trail.distinct, List.nodup_singleton owner, ?_⟩
    rintro key member other isOwner rfl
    exact fresh (List.mem_singleton.mp isOwner ▸ member)
  linked := by
    rw [← List.cons_append, List.isChain_append]
    refine ⟨trail.linked, .singleton owner, ?_⟩
    intro key isLast other isOwner
    have atLast : trail.last = key := Option.some.inj (trail.getLast?_keys.symm.trans isLast)
    cases isOwner
    rw [← atLast]
    exact next

@[simp]
theorem keys_extend (trail : Trail parent start) (owner : Key)
    (next : parent trail.last = .ok (some owner)) (fresh : owner ∉ trail.keys) :
    (trail.extend owner next fresh).keys = trail.keys ++ [owner] :=
  rfl

section Uniqueness

/-- Of two paths along a functional relation from one start, one continues the other. -/
theorem isChain_continued_or_continued {α : Type} {relation : α → α → Prop}
    (functional : ∀ key first second, relation key first → relation key second →
      first = second) (start : α) (first second : List α)
    (firstLinked : (start :: first).IsChain relation)
    (secondLinked : (start :: second).IsChain relation) :
    first <+: second ∨ second <+: first := by
  induction first generalizing start second with
  | nil => exact .inl List.nil_prefix
  | cons next first ih =>
      cases second with
      | nil => exact .inr List.nil_prefix
      | cons other second =>
          rw [List.isChain_cons_cons] at firstLinked secondLinked
          obtain rfl := functional _ _ _ firstLinked.1 secondLinked.1
          rcases ih next second firstLinked.2 secondLinked.2 with shorter | longer
          · exact .inl (List.cons_prefix_cons.mpr ⟨rfl, shorter⟩)
          · exact .inr (List.cons_prefix_cons.mpr ⟨rfl, longer⟩)

/-- A complete trail is not a proper part of another one. -/
theorem eq_of_continued {first second : Trail parent start} (complete : first.Complete)
    (shorter : first.later <+: second.later) : first = second := by
  obtain ⟨rest, continued⟩ := shorter
  cases rest with
  | nil => exact Trail.ext (by simpa using continued)
  | cons owner rest =>
      have split : start :: second.later = first.keys ++ owner :: rest := by
        simp [keys, ← continued]
      have distinct := second.distinct
      have linked := second.linked
      rw [split] at distinct linked
      have next : parent first.last = .ok (some owner) := by
        rw [first.keys_eq_dropLast_append, List.append_assoc] at linked
        exact List.isChain_append_cons_cons.mp linked |>.2.1
      have passed := complete owner next
      exact absurd rfl ((List.nodup_append.mp distinct).2.2 owner passed owner List.mem_cons_self)

/-- There is at most one complete trail from a start. -/
theorem eq_of_complete {first second : Trail parent start} (firstComplete : first.Complete)
    (secondComplete : second.Complete) : first = second := by
  rcases isChain_continued_or_continued (fun _ _ _ => owner_unique) start first.later second.later
    first.linked second.linked with shorter | longer
  · exact eq_of_continued firstComplete shorter
  · exact (eq_of_continued secondComplete longer).symm

end Uniqueness

section Tails

variable {middle owner : Key}

/-- A key that lies on a cycle: it is reached again from its own parent. -/
def OnCycle (parent : Key → Except Fault (Option Key)) (key : Key) : Prop :=
  Relation.TransGen (fun key owner => parent key = .ok (some owner)) key key

/-- The trail that begins at a key of another one. -/
def tail (trail : Trail parent start) (before after : List Key)
    (split : trail.keys = before ++ middle :: after) : Trail parent middle where
  later := after
  distinct := by
    have distinct : trail.keys.Nodup := trail.distinct
    rw [split] at distinct
    exact (List.nodup_append.mp distinct).2.1
  linked := by
    have linked : trail.keys.IsChain _ := trail.linked
    rw [split] at linked
    exact (List.isChain_append.mp linked).2.1

theorem last_tail (trail : Trail parent start) {before after : List Key}
    (split : trail.keys = before ++ middle :: after) :
    (trail.tail before after split).last = trail.last :=
  (last_of_keys split (trail.tail before after split).getLast?_keys).symm

/-- A trail whose last key has an owner that the trail has passed before some key,
led round from that key to the key in front of it. -/
def rotate (trail : Trail parent start) (before between after : List Key)
    (split : trail.keys = before ++ owner :: between ++ middle :: after)
    (closes : parent trail.last = .ok (some owner)) : Trail parent middle where
  later := after ++ owner :: between
  distinct := by
    have distinct : trail.keys.Nodup := trail.distinct
    rw [split, List.append_assoc] at distinct
    exact List.nodup_append_comm.mp (List.nodup_append.mp distinct).2.1
  linked := by
    have linked : trail.keys.IsChain _ := trail.linked
    rw [split, List.append_assoc] at linked
    have round := (List.isChain_append.mp linked).2.1
    rw [← List.cons_append, List.isChain_append]
    refine ⟨(List.isChain_append.mp round).2.1, (List.isChain_append.mp round).1, ?_⟩
    intro key isLast other isOwner
    cases isOwner
    rw [← last_of_keys split isLast]
    exact closes

/-- A trail that was led round ends in front of the key from which it set out. -/
theorem closes_rotate (trail : Trail parent start) {before between after : List Key}
    (split : trail.keys = before ++ owner :: between ++ middle :: after)
    (closes : parent trail.last = .ok (some owner)) :
    parent (trail.rotate before between after split closes).last = .ok (some middle) := by
  have linked : trail.keys.IsChain _ := trail.linked
  rw [split, List.append_assoc] at linked
  have round := (List.isChain_append.mp (List.isChain_append.mp linked).2.1).2.2
  have rotated : (trail.rotate before between after split closes).keys =
      (middle :: after) ++ owner :: between := rfl
  have ending := List.getLast?_eq_getLast_of_ne_nil (List.cons_ne_nil owner between)
  rw [last_of_keys rotated ending]
  exact round _ ending middle rfl

/-- The parent of a key of a trail comes later in it, unless the key is the last. -/
theorem owner_mem_later (trail : Trail parent start) {key : Key} (member : key ∈ trail.keys)
    (found : parent key = .ok (some owner)) : owner ∈ trail.later ∨ key = trail.last := by
  obtain ⟨before, after, split⟩ := List.append_of_mem member
  cases after with
  | nil => exact .inr (last_of_concat split).symm
  | cons next after =>
      have linked : trail.keys.IsChain _ := trail.linked
      rw [split] at linked
      have nextFound := (List.isChain_append_cons_cons.mp linked).2.1
      obtain rfl := owner_unique found nextFound
      refine .inl ?_
      have behind : owner ∈ trail.keys.tail := by
        rw [split]
        cases before <;> simp
      exact behind

/-- Where a trail runs into a cycle behind its start, the start is not on the cycle. -/
theorem not_onCycle_of_owner_mem_later {trail : Trail parent start}
    (closes : parent trail.last = .ok (some owner)) (behind : owner ∈ trail.later) :
    ¬ OnCycle parent start := by
  have closed : ∀ key,
      Relation.TransGen (fun key owner => parent key = .ok (some owner)) start key →
      key ∈ trail.later := by
    intro key reached
    -- The keys behind the start are closed under parents, so nothing leads out of them.
    have step : ∀ key ∈ trail.keys, ∀ next, parent key = .ok (some next) → next ∈ trail.later := by
      intro key member next found
      rcases trail.owner_mem_later member found with later | rfl
      · exact later
      · exact owner_unique closes found ▸ behind
    induction reached with
    | single found => exact step start List.mem_cons_self _ found
    | tail _ found ih => exact step _ (List.mem_cons_of_mem start ih) _ found
  intro onCycle
  exact (List.nodup_cons.mp trail.distinct).1 (closed start onCycle)

/-- Where a trail leads back to its start, the start is on a cycle. -/
theorem onCycle_of_closes_start {trail : Trail parent start}
    (closes : parent trail.last = .ok (some start)) : OnCycle parent start :=
  Relation.TransGen.tail' (List.relationReflTransGen_of_exists_isChain_cons
    trail.later trail.linked rfl) closes

/-- A search that ends with a root or a failed lookup ends so from every key on its way. -/
theorem exists_complete_of_ends (trail : Trail parent start)
    (ends : ∀ owner, parent trail.last ≠ .ok (some owner)) (member : middle ∈ trail.keys) :
    ∃ other : Trail parent middle, other.Complete ∧ other.outcome = trail.outcome := by
  obtain ⟨before, after, split⟩ := List.append_of_mem member
  have sameLast := trail.last_tail split
  refine ⟨trail.tail before after split, ?_, ?_⟩
  · intro owner found
    rw [sameLast] at found
    exact absurd found (ends owner)
  · simp only [outcome, sameLast]

/-- A search that ends with a cycle blames the key from which it set out if that
key is on the cycle, and the key at which the cycle is entered otherwise. -/
theorem exists_complete_of_closes (trail : Trail parent start)
    (closes : parent trail.last = .ok (some owner)) (passed : owner ∈ trail.keys)
    (member : middle ∈ trail.keys) :
    ∃ other : Trail parent middle, other.Complete ∧
      (OnCycle parent middle → other.outcome = .error (.cycleDetected middle)) ∧
      (¬ OnCycle parent middle → other.outcome = .error (.cycleDetected owner)) := by
  obtain ⟨before, after, split⟩ := List.append_of_mem member
  have passedSplit : owner ∈ before ∨ owner = middle ∨ owner ∈ after := by
    rwa [split, List.mem_append, List.mem_cons] at passed
  rcases passedSplit with earlier | rfl | behind
  · obtain ⟨front, between, rfl⟩ := List.append_of_mem earlier
    have returns := trail.closes_rotate split closes
    refine ⟨trail.rotate front between after split closes, ?_, ?_, ?_⟩
    · exact complete_of_closes returns List.mem_cons_self
    · exact fun _ => outcome_of_owner returns
    · exact fun off => absurd (onCycle_of_closes_start returns) off
  · have returns : parent (trail.tail before after split).last = .ok (some owner) := by
      rw [trail.last_tail split, closes]
    refine ⟨trail.tail before after split, ?_, ?_, ?_⟩
    · exact complete_of_closes returns List.mem_cons_self
    · exact fun _ => outcome_of_owner returns
    · exact fun _ => outcome_of_owner returns
  · have returns : parent (trail.tail before after split).last = .ok (some owner) := by
      rw [trail.last_tail split, closes]
    refine ⟨trail.tail before after split, ?_, ?_, ?_⟩
    · exact complete_of_closes returns (List.mem_cons_of_mem middle behind)
    · exact fun on => absurd on (not_onCycle_of_owner_mem_later returns behind)
    · exact fun _ => outcome_of_owner returns

end Tails

section Agreement

variable {other : Key → Except Fault (Option Key)}

/-- What holds of the start of a trail and passes from keys to their parents holds
of all keys of the trail. -/
theorem forall_keys (trail : Trail parent start) {property : Key → Prop} (begins : property start)
    (passes : ∀ key owner, parent key = .ok (some owner) → property key → property owner) :
    ∀ key ∈ trail.keys, property key :=
  trail.linked.induction property trail.keys passes fun _ => begins

/-- A trail as one of other lookups that answer the same along it. -/
def transfer (trail : Trail parent start)
    (agree : ∀ key ∈ trail.keys, other key = parent key) : Trail other start where
  later := trail.later
  distinct := trail.distinct
  linked := trail.linked.imp_of_mem_imp fun key _ member _ found => (agree key member).trans found

variable {trail : Trail parent start} (agree : ∀ key ∈ trail.keys, other key = parent key)

theorem lookup_last_transfer : other (trail.transfer agree).last = parent trail.last :=
  agree trail.last trail.last_mem_keys

theorem complete_transfer (complete : trail.Complete) : (trail.transfer agree).Complete := by
  intro owner found
  rw [lookup_last_transfer agree] at found
  exact complete owner found

theorem outcome_transfer : (trail.transfer agree).outcome = trail.outcome := by
  simp only [outcome, lookup_last_transfer agree]
  rfl

end Agreement

end Trail

namespace Ascent

variable {σ : Type} {parent : Key → StateM σ (Except Fault (Option Key))}
  {reading : Key → Except Fault (Option Key)} {start : Key}

/-- An ascent over lookups that never change, if it ends, follows a trail until it
is complete and answers its outcome. -/
theorem Climbs.exists_complete (constant : ∀ key state, (parent key state).1 = reading key)
    {hops : Nat} {visited : List Key} {current : Key} {state final : σ} {ascent : Ascent}
    (run : Climbs parent hops visited current state ascent final)
    (finished : ascent.ending ≠ .unfinished) (trail : Trail reading start)
    (passed : trail.keys = visited.reverse ++ [current]) :
    ∃ whole : Trail reading start, whole.Complete ∧
      whole.keys = ascent.visited.reverse ∧ ascent.answer = whole.outcome := by
  have reply {key : Key} {state next : σ} {reply : Except Fault (Option Key)}
      (answer : parent key state = (reply, next)) : reading key = reply := by
    rw [← constant key state, answer]
  induction run generalizing trail with
  | exhausted => exact absurd rfl finished
  | failed answer =>
      have found : reading trail.last = _ := Trail.last_of_concat passed ▸ reply answer
      refine ⟨trail, ?_, by simpa using passed, ?_⟩
      · simp [Trail.Complete, found]
      · rw [Trail.outcome_of_fault found, Ascent.answer]
  | root answer =>
      have found : reading trail.last = _ := Trail.last_of_concat passed ▸ reply answer
      refine ⟨trail, ?_, by simpa using passed, ?_⟩
      · simp [Trail.Complete, found]
      · rw [Trail.outcome_of_root found, Trail.last_of_concat passed, Ascent.answer]
  | cycle answer known =>
      have found : reading trail.last = _ := Trail.last_of_concat passed ▸ reply answer
      refine ⟨trail, ?_, by simpa using passed, ?_⟩
      · simp only [Trail.Complete, found, passed]
        rintro owner ⟨⟩
        simpa [or_comm] using known
      · rw [Trail.outcome_of_owner found, Ascent.answer]
  | @hop _ visited current owner _ _ _ _ answer fresh rest ih =>
      have found : reading trail.last = _ := Trail.last_of_concat passed ▸ reply answer
      have unpassed : owner ∉ trail.keys := by
        rw [passed]
        simpa [or_comm] using fresh
      exact ih finished (trail.extend owner found unpassed) (by simp [passed])

end Ascent

end Lineage
