import Lineage.Yaml.Value
import Mathlib.Data.List.Pairwise

/-!
# Laying entries over one another

Merging puts the entries of one mapping over those of another, one after
another.  Under a key that is a text it leaves what the upper mapping has there,
laid over what the lower one has, and it leaves what the lower one has where the
upper one has nothing.  The keys that remain are those of both mappings, up to
the order of the entries inside a key.
-/

namespace Lineage

namespace Yaml

namespace Value

def Distinct (entries : List (Value × Value)) : Prop :=
  entries.Pairwise fun first second => same second.1 first.1 = false

/-- The entries under a key that is a text. -/
def entriesAt (name : String) (entries : List (Value × Value)) : List (Value × Value) :=
  entries.filter fun entry => same (.string name) entry.1

section Keys

variable {name : String} {key other : Value}

@[simp]
theorem same_string_iff : same (.string name) key = true ↔ key = .string name := by
  cases key with
  | string text => simp [same, eq_comm (a := name)]
  | _ => simp [same]

theorem eq_string_of_same (alike : same key (.string name) = true) : key = .string name := by
  cases key with
  | string text => simpa [same] using alike
  | _ => simp [same] at alike

/-- Keys that are the same are the same text apart from their tags, if they are texts. -/
theorem untagged_of_same (alike : same key other = true) :
    key.untagged = .string name ↔ other.untagged = .string name := by
  fun_induction untagged key generalizing other with
  | case1 tag value ih =>
      cases other with
      | tagged otherTag inner =>
          rw [same, Bool.and_eq_true] at alike
          rw [untagged]
          exact ih alike.2
      | _ => simp [same] at alike
  | case2 key plain =>
      cases other with
      | tagged tag inner =>
          cases key with
          | tagged tag value => exact absurd rfl (plain tag value)
          | _ => simp [same] at alike
      | string text =>
          rw [eq_string_of_same alike]
          rfl
      | _ => cases key <;> simp_all [same, untagged]

end Keys

section Entries

variable {name : String} {key value : Value} {entries others : List (Value × Value)}

theorem entriesAt_append :
    entriesAt name (entries ++ others) = entriesAt name entries ++ entriesAt name others :=
  List.filter_append ..

theorem entriesAt_cons_self :
    entriesAt name ((.string name, value) :: entries) =
      (.string name, value) :: entriesAt name entries :=
  List.filter_cons_of_pos (same_string_iff.mpr rfl)

theorem entriesAt_cons_of_ne (different : key ≠ .string name) :
    entriesAt name ((key, value) :: entries) = entriesAt name entries :=
  List.filter_cons_of_neg fun alike => different (same_string_iff.mp alike)

theorem entriesAt_remove_self : entriesAt name (remove (.string name) entries) = [] := by
  simp [entriesAt, remove, List.filter_filter]

theorem entriesAt_remove_of_ne (different : key ≠ .string name) :
    entriesAt name (remove key entries) = entriesAt name entries := by
  rw [entriesAt, remove, List.filter_filter]
  refine List.filter_congr fun entry _ => ?_
  by_cases here : entry.1 = .string name
  · have kept : same key (.string name) = false :=
      Bool.eq_false_iff.mpr fun alike => different (eq_string_of_same alike)
    simp [here, kept]
  · have absent : same (.string name) entry.1 = false :=
      Bool.eq_false_iff.mpr fun alike => here (same_string_iff.mp alike)
    simp [absent]

theorem lookup_eq_head? (name : String) (entries : List (Value × Value)) :
    lookup (.string name) entries = (entriesAt name entries).head?.map Prod.snd := by
  induction entries with
  | nil => rfl
  | cons entry rest ih =>
      obtain ⟨key, value⟩ := entry
      cases alike : same (.string name) key with
      | true => simp [lookup, entriesAt, alike]
      | false => simpa [lookup, entriesAt, alike] using ih

theorem exists_mem_of_lookup (found : lookup key entries = some value) :
    ∃ entry ∈ entries, entry.2 = value := by
  induction entries with
  | nil => cases found
  | cons first rest ih =>
      obtain ⟨other, upper⟩ := first
      rw [lookup] at found
      split at found
      · cases found
        exact ⟨_, List.mem_cons_self, rfl⟩
      · obtain ⟨entry, member, same⟩ := ih found
        exact ⟨entry, List.mem_cons_of_mem _ member, same⟩

theorem mem_of_lookup_string (found : lookup (.string name) entries = some value) :
    (.string name, value) ∈ entries := by
  rw [lookup_eq_head?, Option.map_eq_some_iff] at found
  obtain ⟨entry, first, rfl⟩ := found
  have member : entry ∈ entriesAt name entries := List.mem_of_head? first
  obtain ⟨inside, alike⟩ := List.mem_filter.mp member
  rw [← same_string_iff.mp alike]
  exact inside

theorem same_eq_false_of_lookup (absent : ¬ (lookup key entries).isSome = true)
    {entry : Value × Value} (member : entry ∈ entries) : same key entry.1 = false := by
  induction entries with
  | nil => cases member
  | cons first rest ih =>
      obtain ⟨other, value⟩ := first
      cases alike : same key other with
      | true => simp [lookup, alike] at absent
      | false =>
          rw [lookup, if_neg (by simp [alike])] at absent
          rcases List.mem_cons.mp member with rfl | later
          · exact alike
          · exact ih absent later

theorem forall_mem_entriesAt {entry : Value × Value} (member : entry ∈ entriesAt name entries) :
    entry.1 = .string name := by
  rw [entriesAt, List.mem_filter] at member
  exact same_string_iff.mp member.2

/-- Among entries whose keys are all different at most one is under a name. -/
theorem Distinct.entriesAt_cases (distinct : Distinct entries) (name : String) :
    entriesAt name entries = [] ∨ ∃ value, entriesAt name entries = [(.string name, value)] := by
  have apart : Distinct (entriesAt name entries) := List.Pairwise.filter _ distinct
  have named : ∀ entry ∈ entriesAt name entries, entry.1 = .string name :=
    fun _ => forall_mem_entriesAt
  rcases shape : entriesAt name entries with _ | ⟨⟨key, value⟩, _ | ⟨second, rest⟩⟩
  · exact .inl rfl
  · rw [shape] at named
    have here := named (key, value) List.mem_cons_self
    exact .inr ⟨value, by rw [← here]⟩
  · rw [shape] at named apart
    have differ := (List.pairwise_cons.mp apart).1 second List.mem_cons_self
    rw [named second (by simp), named (key, value) List.mem_cons_self,
      same_string_iff.mpr rfl] at differ
    cases differ

end Entries

section Merge

variable {name : String} {value : Value} {entries others : List (Value × Value)}

/-- What a value becomes when it is laid over a place where something may be. -/
def laidOver (present? : Option Value) (value : Value) : Value :=
  present?.elim value fun present => merge present value

theorem mergeEntries_cons (entries : List (Value × Value)) (key value : Value)
    (rest : List (Value × Value)) :
    mergeEntries entries ((key, value) :: rest) =
      mergeEntries (remove key entries ++ [(key, laidOver (lookup key entries) value)]) rest := by
  rw [mergeEntries, laidOver]
  cases lookup key entries <;> rfl

theorem entriesAt_mergeEntries_of_absent (absent : entriesAt name others = []) :
    entriesAt name (mergeEntries entries others) = entriesAt name entries := by
  induction others generalizing entries with
  | nil => rfl
  | cons other rest ih =>
      obtain ⟨key, value⟩ := other
      by_cases here : key = .string name
      · subst here
        rw [entriesAt_cons_self] at absent
        cases absent
      · rw [entriesAt_cons_of_ne here] at absent
        rw [mergeEntries_cons, ih absent, entriesAt_append, entriesAt_remove_of_ne here,
          entriesAt_cons_of_ne here]
        exact List.append_nil _

theorem entriesAt_mergeEntries_of_single
    (single : entriesAt name others = [(.string name, value)]) :
    entriesAt name (mergeEntries entries others) =
      [(.string name, laidOver (lookup (.string name) entries) value)] := by
  induction others generalizing entries with
  | nil => cases single
  | cons other rest ih =>
      obtain ⟨key, upper⟩ := other
      rw [mergeEntries_cons]
      by_cases here : key = .string name
      · subst here
        rw [entriesAt_cons_self] at single
        obtain ⟨same, later⟩ := List.cons.inj single
        obtain ⟨_, rfl⟩ := Prod.mk.inj same
        rw [entriesAt_mergeEntries_of_absent later, entriesAt_append, entriesAt_remove_self,
          entriesAt_cons_self]
        rfl
      · rw [entriesAt_cons_of_ne here] at single
        have unchanged : entriesAt name
            (remove key entries ++ [(key, laidOver (lookup key entries) upper)]) =
              entriesAt name entries := by
          rw [entriesAt_append, entriesAt_remove_of_ne here, entriesAt_cons_of_ne here]
          exact List.append_nil _
        rw [ih single, lookup_eq_head?, lookup_eq_head?, unchanged]

/-- What is under a name after entries have been laid over others. -/
theorem lookup_mergeEntries (distinct : Distinct others) (name : String) :
    lookup (.string name) (mergeEntries entries others) =
      ((lookup (.string name) others).map (laidOver (lookup (.string name) entries))).or
        (lookup (.string name) entries) := by
  rcases distinct.entriesAt_cases name with absent | ⟨value, single⟩
  · rw [lookup_eq_head?, entriesAt_mergeEntries_of_absent absent, lookup_eq_head? name others,
      absent, ← lookup_eq_head?]
    rfl
  · rw [lookup_eq_head?, entriesAt_mergeEntries_of_single single,
      lookup_eq_head? name others, single]
    rfl

/-- What holds of keys whatever the order of the entries inside them holds of all
keys of merged entries if it holds of those of both parts. -/
theorem forall_mem_mergeEntries {holds : Value → Prop}
    (respects : ∀ first second, same first second = true → (holds first ↔ holds second)) :
    (∀ entry ∈ mergeEntries entries others, holds entry.1) ↔
      (∀ entry ∈ entries, holds entry.1) ∧ ∀ entry ∈ others, holds entry.1 := by
  induction others generalizing entries with
  | nil => simp [mergeEntries]
  | cons other rest ih =>
      obtain ⟨key, value⟩ := other
      rw [mergeEntries_cons, ih, List.forall_mem_cons, ← and_assoc]
      refine and_congr_left fun _ => ?_
      constructor
      · intro all
        have here : holds key :=
          all (key, laidOver (lookup key entries) value)
            (List.mem_append_right _ List.mem_cons_self)
        refine ⟨fun entry member => ?_, here⟩
        cases alike : same key entry.1 with
        | true => exact (respects key entry.1 alike).mp here
        | false => exact all entry (by simp [remove, member, alike])
      · rintro ⟨lower, here⟩ entry member
        rw [List.mem_append, List.mem_singleton] at member
        rcases member with kept | rfl
        · exact lower entry (List.mem_filter.mp kept).1
        · exact here

end Merge

end Value

end Yaml

end Lineage
