import Lineage.Proofs.Meaning
import Lineage.Settings.Load

/-!
# Settings in layers

The layers of settings are laid over one another before anything is decoded, and
what comes of them decodes if each setting does.  For each setting the value that
counts is the one in the highest layer that has it.  The keys of the layers have
to be texts, and a key that names a setting has to do so without a tag, because
the lowest layer names all of them.
-/

namespace Lineage

namespace SettingKey

/-- What a setting is. -/
abbrev Content : SettingKey → Type
  | watchNamespace => String
  | wellKnownKinds => List WorkloadKind
  | discoveryRefreshSeconds => UInt64
  | cacheSyncTimeoutSeconds => UInt64
  | loggerLevel => String

def content (key : SettingKey) (settings : Settings) : key.Content :=
  match key with
  | watchNamespace => settings.watchNamespace
  | wellKnownKinds => settings.wellKnownKinds
  | discoveryRefreshSeconds => settings.discoveryRefreshSeconds
  | cacheSyncTimeoutSeconds => settings.cacheSyncTimeoutSeconds
  | loggerLevel => settings.loggerLevel

def path : SettingKey → List String
  | watchNamespace => ["watchNamespace"]
  | wellKnownKinds => ["wellKnownKinds"]
  | discoveryRefreshSeconds => ["discoveryRefreshSeconds"]
  | cacheSyncTimeoutSeconds => ["cacheSyncTimeoutSeconds"]
  | loggerLevel => ["logger", "level"]

def entry : SettingKey → String
  | watchNamespace => "watchNamespace"
  | wellKnownKinds => "wellKnownKinds"
  | discoveryRefreshSeconds => "discoveryRefreshSeconds"
  | cacheSyncTimeoutSeconds => "cacheSyncTimeoutSeconds"
  | loggerLevel => "logger"

/-- What a value is when it is taken for a setting. -/
def decode (key : SettingKey) (value : Yaml.Value) : Option key.Content :=
  match key with
  | watchNamespace => Settings.textOfValue value
  | wellKnownKinds => Settings.kindsOfValue value
  | discoveryRefreshSeconds => Settings.wordOfValue value
  | cacheSyncTimeoutSeconds => Settings.wordOfValue value
  | loggerLevel => Settings.textOfValue value

/-- What the value of an entry gives to a setting. -/
def decodeEntry (key : SettingKey) (value : Yaml.Value) : Option key.Content :=
  match key with
  | loggerLevel => Settings.levelOfValue value
  | key => key.decode value

theorem mem_all (key : SettingKey) : key ∈ all := by
  cases key <;> decide

theorem decodeEntry_eq_decode {key : SettingKey} (top : key ≠ loggerLevel) :
    key.decodeEntry = key.decode := by
  cases key with
  | loggerLevel => exact absurd rfl top
  | _ => rfl

theorem decode_mapping (key : SettingKey) (entries : List (Yaml.Value × Yaml.Value)) :
    key.decode (.mapping entries) = none := by
  cases key <;> rfl

end SettingKey

namespace Yaml.Value

/-- The value to which names lead one after another. -/
def descend : List String → Value → Option Value
  | [], value => some value
  | name :: rest, value => (value.field? name).bind (descend rest)

theorem descend_singleton (name : String) : descend [name] = field? name := by
  funext value
  exact Option.bind_fun_some (value.field? name)

def entriesOf : Option Value → List (Value × Value)
  | some (.mapping entries) => entries
  | _ => []

/-- Whether a key is some text apart from its tags. -/
def spells (name : String) (key : Value) : Bool :=
  match key.untagged with
  | .string text => text = name
  | _ => false

theorem spells_iff {name : String} {key : Value} :
    spells name key = true ↔ key.untagged = .string name := by
  rw [spells]
  cases key.untagged <;> simp

/-- A key that is a text and that is written without a tag if it is one of the
given names. -/
def Named (names : List String) (key : Value) : Prop :=
  ∃ text, key.untagged = .string text ∧ (text ∈ names → key = .string text)

end Yaml.Value

namespace Settings

open Yaml (Value)
open Yaml.Value (Distinct Named entriesAt entriesOf lookup mergeEntries laidOver)

def entryNames : List String :=
  SettingKey.all.map SettingKey.entry

theorem entry_mem_entryNames (key : SettingKey) : key.entry ∈ entryNames :=
  List.mem_map_of_mem key.mem_all

/-- Settings are read one by one. -/
theorem ofValue_eq_some_iff {value : Value} {settings : Settings} :
    ofValue value = some settings ↔
      ∃ named, namedEntries value = some named ∧
        ∀ key : SettingKey, fieldOr named key.entry (key.content default) key.decodeEntry =
          some (key.content settings) := by
  rw [ofValue]
  simp only [Option.bind_eq_bind, Option.bind_eq_some_iff, Option.some.injEq]
  refine exists_congr fun named => and_congr_right fun _ => ?_
  constructor
  · rintro ⟨ns, nsRead, kinds, kindsRead, refresh, refreshRead, sync, syncRead, level, levelRead,
      rfl⟩
    rintro (_ | _ | _ | _ | _)
    exacts [nsRead, kindsRead, refreshRead, syncRead, levelRead]
  · intro all
    exact ⟨_, all .watchNamespace, _, all .wellKnownKinds, _, all .discoveryRefreshSeconds, _,
      all .cacheSyncTimeoutSeconds, _, all .loggerLevel, rfl⟩

section Fields

variable {entries : List (Value × Value)} {named : List (String × Value)} {name : String}
  {value : Value} {α : Type} {otherwise content : α} {decode : Value → Option α}

theorem namedEntries_mapping_eq_some_iff :
    namedEntries (.mapping entries) = some named ↔
      List.Forall₂ (fun entry pair => entry.1.untagged = .string pair.1 ∧ entry.2 = pair.2)
        entries named := by
  change entries.mapM _ = some named ↔ _
  rw [mapM_eq_some_iff_forall₂]
  refine ⟨fun read => read.imp ?_, fun read => read.imp ?_⟩
  · rintro ⟨key, value⟩ ⟨name, other⟩ found
    cases text : key.untagged <;> simp [text] at found
    exact ⟨congrArg Value.string found.1, found.2⟩
  · rintro ⟨key, value⟩ ⟨name, other⟩ ⟨text, same⟩
    change key.untagged = .string name at text
    change value = other at same
    simp only [text, same]

theorem exists_namedEntries_iff :
    (∃ named, namedEntries (.mapping entries) = some named) ↔
      ∀ entry ∈ entries, ∃ text, entry.1.untagged = .string text := by
  simp only [namedEntries_mapping_eq_some_iff]
  induction entries with
  | nil => exact ⟨fun _ => by simp, fun _ => ⟨[], .nil⟩⟩
  | cons entry rest ih =>
      rw [List.forall_mem_cons, ← ih]
      constructor
      · rintro ⟨_ | ⟨pair, named⟩, read⟩
        · cases read
        · obtain ⟨first, others⟩ := List.forall₂_cons.mp read
          exact ⟨⟨pair.1, first.1⟩, named, others⟩
      · rintro ⟨⟨text, first⟩, named, others⟩
        exact ⟨(text, entry.2) :: named, .cons ⟨first, rfl⟩ others⟩

/-- Under a name that a mapping has once without a tag, a value is read exactly if
no other key says the same with a tag. -/
theorem fieldOr_eq_some_iff (read : namedEntries (.mapping entries) = some named)
    (single : entriesAt name entries = [(.string name, value)]) :
    fieldOr named name otherwise decode = some content ↔
      (∀ entry ∈ entries, entry.1.untagged = .string name → entry.1 = .string name) ∧
        decode value = some content := by
  have pairs : List.Forall₂ (fun entry pair => entry.1.untagged = .string pair.1 ∧ entry.2 = pair.2)
      (entries.filter fun entry => Value.spells name entry.1)
      (named.filter fun pair => pair.1 = name) := by
    refine List.rel_filter ?_ (namedEntries_mapping_eq_some_iff.mp read)
    rintro entry pair ⟨text, _⟩
    simp [Value.spells_iff, text]
  have here : ((.string name, value) : Value × Value) ∈
      entries.filter fun entry => Value.spells name entry.1 := by
    have member : ((.string name, value) : Value × Value) ∈ entriesAt name entries := by
      rw [single]
      exact List.mem_singleton_self _
    exact List.mem_filter.mpr ⟨(List.mem_filter.mp member).1, Value.spells_iff.mpr rfl⟩
  by_cases exact : ∀ entry ∈ entries, entry.1.untagged = .string name → entry.1 = .string name
  · have kept : (entries.filter fun entry => Value.spells name entry.1) =
        [(.string name, value)] := by
      rw [← single, entriesAt]
      refine List.filter_congr fun entry member => Bool.eq_iff_iff.mpr ?_
      rw [Value.spells_iff, Value.same_string_iff]
      refine ⟨exact entry member, fun same => ?_⟩
      rw [same]
      rfl
    rw [kept, List.forall₂_cons_left_iff] at pairs
    obtain ⟨⟨text, other⟩, rest, ⟨_, rfl⟩, none, found⟩ := pairs
    rw [List.forall₂_nil_left_iff.mp none] at found
    rw [fieldOr, found]
    exact (and_iff_right exact).symm
  · refine iff_of_false ?_ fun both => exact both.1
    push Not at exact
    obtain ⟨entry, member, text, tagged⟩ := exact
    have other : entry ∈ entries.filter fun entry => Value.spells name entry.1 :=
      List.mem_filter.mpr ⟨member, Value.spells_iff.mpr text⟩
    rw [fieldOr]
    -- Two entries say the name, one of them with a tag.
    rcases shape : entries.filter fun entry => Value.spells name entry.1 with
      _ | ⟨first, _ | ⟨second, rest⟩⟩
    · rw [shape] at here
      cases here
    · rw [shape, List.mem_singleton] at here other
      exact absurd (congrArg Prod.fst (other.trans here.symm)) tagged
    · rw [shape, List.forall₂_cons_left_iff] at pairs
      obtain ⟨pair, _, _, pairs, found⟩ := pairs
      obtain ⟨next, others, _, _, rfl⟩ := List.forall₂_cons_left_iff.mp pairs
      simp [found]

/-- A name that no key of a mapping has with a tag is read where it stands, if it does. -/
theorem fieldOr_eq_elim (distinct : Distinct entries)
    (read : namedEntries (.mapping entries) = some named)
    (plain : ∀ entry ∈ entries, entry.1.untagged = .string name → entry.1 = .string name) :
    fieldOr named name otherwise decode =
      (lookup (.string name) entries).elim (some otherwise) decode := by
  rcases distinct.entriesAt_cases name with absent | ⟨value, single⟩
  · have none : named.filter (fun pair => pair.1 = name) = [] := by
      rw [List.filter_eq_nil_iff]
      intro pair member
      obtain ⟨index, bound, rfl⟩ := List.mem_iff_getElem.mp member
      have pairs := namedEntries_mapping_eq_some_iff.mp read
      have inside : index < entries.length := by
        rw [pairs.length_eq]
        exact bound
      have text := (pairs.get inside bound).1
      intro same
      have named_eq : named[index].1 = name := of_decide_eq_true same
      have here : entries[index] ∈ entriesAt name entries := by
        refine List.mem_filter.mpr ⟨List.getElem_mem inside, ?_⟩
        rw [Value.same_string_iff]
        refine plain entries[index] (List.getElem_mem inside) ?_
        rw [← named_eq]
        exact text
      rw [absent] at here
      cases here
    rw [fieldOr, none, Value.lookup_eq_head?, absent]
    rfl
  · rw [Value.lookup_eq_head?, single]
    refine Option.ext fun content => ?_
    rw [fieldOr_eq_some_iff read single, and_iff_right plain]
    rfl

theorem forall_named_iff {names : List String} :
    (∀ entry ∈ entries, Named names entry.1) ↔
      (∃ named, namedEntries (.mapping entries) = some named) ∧
        ∀ name ∈ names, ∀ entry ∈ entries, entry.1.untagged = .string name →
          entry.1 = .string name := by
  rw [exists_namedEntries_iff]
  constructor
  · intro all
    refine ⟨fun entry member => ?_, fun name listed entry member text => ?_⟩
    · obtain ⟨text, same, _⟩ := all entry member
      exact ⟨text, same⟩
    · obtain ⟨other, same, plain⟩ := all entry member
      cases same.symm.trans text
      exact plain listed
  · rintro ⟨texts, plain⟩ entry member
    obtain ⟨text, same⟩ := texts entry member
    exact ⟨text, same, fun listed => plain text listed entry member same⟩

/-- Each of the names is the key of one entry. -/
def Complete (names : List String) (entries : List (Value × Value)) : Prop :=
  ∀ name ∈ names, ∃ value, entriesAt name entries = [(.string name, value)]

theorem Complete.lookup_bind {names : List String} (complete : Complete names entries)
    (listed : name ∈ names) (read : namedEntries (.mapping entries) = some named) :
    fieldOr named name otherwise decode = some content ↔
      (∀ entry ∈ entries, entry.1.untagged = .string name → entry.1 = .string name) ∧
        (lookup (.string name) entries).bind decode = some content := by
  obtain ⟨value, single⟩ := complete name listed
  rw [fieldOr_eq_some_iff read single, Value.lookup_eq_head?, single]
  rfl

theorem levelOfValue_mapping_eq_some_iff {level : String} (complete : Complete ["level"] entries) :
    levelOfValue (.mapping entries) = some level ↔
      (∀ entry ∈ entries, Named ["level"] entry.1) ∧
        (lookup (.string "level") entries).bind textOfValue = some level := by
  rw [forall_named_iff, levelOfValue, Option.bind_eq_bind, Option.bind_eq_some_iff]
  simp only [List.forall_mem_singleton]
  constructor
  · rintro ⟨named, read, found⟩
    rw [complete.lookup_bind (by simp) read] at found
    exact ⟨⟨⟨named, read⟩, found.1⟩, found.2⟩
  · rintro ⟨⟨⟨named, read⟩, plain⟩, found⟩
    exact ⟨named, read, (complete.lookup_bind (by simp) read).mpr ⟨plain, found⟩⟩

/-- What settings are read from a mapping that has an entry for each of them. -/
theorem ofValue_mapping_eq_some_iff {settings : Settings} (complete : Complete entryNames entries) :
    ofValue (.mapping entries) = some settings ↔
      (∀ entry ∈ entries, Named entryNames entry.1) ∧
        ∀ key : SettingKey, (lookup (.string key.entry) entries).bind key.decodeEntry =
          some (key.content settings) := by
  rw [forall_named_iff, ofValue_eq_some_iff]
  constructor
  · rintro ⟨named, read, found⟩
    have parts := fun key : SettingKey =>
      (complete.lookup_bind (entry_mem_entryNames key) read).mp (found key)
    refine ⟨⟨⟨named, read⟩, fun name listed => ?_⟩, fun key => (parts key).2⟩
    obtain ⟨key, _, rfl⟩ := List.mem_map.mp listed
    exact (parts key).1
  · rintro ⟨⟨⟨named, read⟩, plain⟩, found⟩
    refine ⟨named, read, fun key => ?_⟩
    rw [complete.lookup_bind (entry_mem_entryNames key) read]
    exact ⟨plain key.entry (entry_mem_entryNames key), found key⟩

end Fields

section Merged

variable {names : List String} {entries others : List (Value × Value)}

theorem Complete.mergeEntries (complete : Complete names entries) (distinct : Distinct others) :
    Complete names (mergeEntries entries others) := by
  intro name listed
  rcases distinct.entriesAt_cases name with absent | ⟨value, single⟩
  · rw [Value.entriesAt_mergeEntries_of_absent absent]
    exact complete name listed
  · exact ⟨_, Value.entriesAt_mergeEntries_of_single single⟩

theorem named_iff_of_same (first second : Value) (alike : first.same second = true) :
    Named names first ↔ Named names second := by
  refine exists_congr fun text => and_congr (Value.untagged_of_same alike) ?_
  refine imp_congr_right fun _ => ⟨?_, ?_⟩
  · rintro rfl
    exact Value.same_string_iff.mp alike
  · rintro rfl
    exact Value.eq_string_of_same alike

theorem forall_mem_mergeEntries_named :
    (∀ entry ∈ mergeEntries entries others, Named names entry.1) ↔
      (∀ entry ∈ entries, Named names entry.1) ∧ ∀ entry ∈ others, Named names entry.1 :=
  Value.forall_mem_mergeEntries named_iff_of_same

/-- Where mappings do not decode, a value decodes alike wherever it is laid. -/
theorem decode_over {α : Type} {decode : Value → Option α}
    (refuses : ∀ entries, decode (.mapping entries) = none) (present? : Option Value)
    (value : Value) : decode (laidOver present? value) = decode value := by
  cases present? with
  | none => rfl
  | some present =>
      rw [laidOver, Option.elim_some]
      cases value with
      | mapping entries =>
          cases present <;> simp only [Value.merge, refuses]
      | _ => rfl

theorem bind_map_over_or {α : Type} {decode : Value → Option α}
    (refuses : ∀ entries, decode (.mapping entries) = none)
    (present? value? otherwise? : Option Value) :
    ((value?.map (laidOver present?)).or otherwise?).bind decode =
      value?.elim (otherwise?.bind decode) decode := by
  cases value? with
  | none => rfl
  | some value => exact decode_over refuses present? value

end Merged

/-- The value that a layer has for the logger. -/
def loggerOf (layer? : Option Value) : Option Value :=
  layer?.bind (Value.field? "logger")

/-- A layer that can be laid over others: a file that is absent or empty, or a
mapping in which the logger, where it is present, is a mapping. -/
def IsLayer (layer? : Option Value) : Prop :=
  (∀ value, layer? = some value → ∃ entries, value = .mapping entries) ∧
    ∀ value, loggerOf layer? = some value → ∃ entries, value = .mapping entries

/-- A layer whose keys are texts, where those that name settings have no tag. -/
def WellKeyed (layer? : Option Value) : Prop :=
  (∀ entry ∈ entriesOf layer?, Named entryNames entry.1) ∧
    ∀ entry ∈ entriesOf (loggerOf layer?), Named ["level"] entry.1

/-- A layer in which no key is repeated, as those are that files give. -/
def Tidy (layer? : Option Value) : Prop :=
  Distinct (entriesOf layer?) ∧ Distinct (entriesOf (loggerOf layer?))

/-- The value that a layer has for a setting. -/
def rawOf (key : SettingKey) (layer? : Option Value) : Option Value :=
  layer?.bind (Value.descend key.path)

/-- The value for a setting that counts where one layer is over another. -/
def selected (root? context? : Option Value) (key : SettingKey) : Option Value :=
  (rawOf key context?).or (rawOf key root?)

/-- What a setting is if some value counts for it, or none does. -/
def chosen (key : SettingKey) (value? : Option Value) : Option key.Content :=
  match value? with
  | some value => key.decode value
  | none => some (key.content default)

section Layers

variable {root? context? layer? : Option Value} {settings : Settings}

theorem field?_eq_lookup (name : String) (layer? : Option Value) :
    layer?.bind (Value.field? name) = lookup (.string name) (entriesOf layer?) := by
  cases layer? with
  | none => rfl
  | some value => cases value <;> rfl

theorem rawOf_eq_lookup {key : SettingKey} (top : key ≠ .loggerLevel) (layer? : Option Value) :
    rawOf key layer? = lookup (.string key.entry) (entriesOf layer?) := by
  rw [← field?_eq_lookup, rawOf, ← Value.descend_singleton]
  cases key with
  | loggerLevel => exact absurd rfl top
  | _ => rfl

theorem rawOf_loggerLevel_eq_lookup (layer? : Option Value) :
    rawOf .loggerLevel layer? = lookup (.string "level") (entriesOf (loggerOf layer?)) := by
  rw [← field?_eq_lookup, loggerOf, rawOf, Option.bind_assoc, ← Value.descend_singleton "level"]
  rfl

/-- The entries of the lowest layer. -/
def defaultEntries : List (Value × Value) :=
  entriesOf (some default.toValue)

/-- The entries that remain of all layers. -/
def mergedEntries (root? context? : Option Value) : List (Value × Value) :=
  mergeEntries (mergeEntries defaultEntries (entriesOf root?)) (entriesOf context?)

theorem IsLayer.eq_none_or (isLayer : IsLayer layer?) :
    layer? = none ∨ ∃ entries, layer? = some (.mapping entries) := by
  cases layer? with
  | none => exact .inl rfl
  | some value =>
      obtain ⟨entries, rfl⟩ := isLayer.1 value rfl
      exact .inr ⟨entries, rfl⟩

/-- An absent layer is laid over others like one without entries. -/
theorem ofLayers_eq (isRoot : IsLayer root?) (isContext : IsLayer context?) :
    ofLayers [root?, context?] =
      match ofValue (.mapping (mergedEntries root? context?)) with
      | some settings => .ok settings
      | none => .error .undecodable := by
  rcases isRoot.eq_none_or with rfl | ⟨root, rfl⟩ <;>
    rcases isContext.eq_none_or with rfl | ⟨context, rfl⟩ <;> rfl

theorem ofLayers_eq_ok_iff_ofValue (isRoot : IsLayer root?) (isContext : IsLayer context?) :
    ofLayers [root?, context?] = .ok settings ↔
      ofValue (.mapping (mergedEntries root? context?)) = some settings := by
  rw [ofLayers_eq isRoot isContext]
  cases ofValue (.mapping (mergedEntries root? context?)) <;> simp

theorem complete_defaultEntries : Complete entryNames defaultEntries := by
  intro name listed
  obtain ⟨key, _, rfl⟩ := List.mem_map.mp listed
  cases key <;> exact ⟨_, rfl⟩

theorem named_defaultEntries : ∀ entry ∈ defaultEntries, Named entryNames entry.1 := by
  intro entry member
  have text : ∃ name, entry.1 = .string name := by
    simp only [defaultEntries, entriesOf, toValue, List.mem_cons, List.not_mem_nil, or_false]
      at member
    rcases member with rfl | rfl | rfl | rfl | rfl <;> exact ⟨_, rfl⟩
  obtain ⟨name, same⟩ := text
  rw [same]
  exact ⟨name, rfl, fun _ => rfl⟩

/-- What remains for a setting of its own decodes like the value that counts for it. -/
theorem bind_decode_merged {key : SettingKey} (top : key ≠ .loggerLevel) (rootTidy : Tidy root?)
    (contextTidy : Tidy context?) :
    (lookup (.string key.entry) (mergedEntries root? context?)).bind key.decode =
      chosen key (selected root? context? key) := by
  have initially : (lookup (.string key.entry) defaultEntries).bind key.decode =
      some (key.content default) := by
    cases key with
    | loggerLevel => exact absurd rfl top
    | _ => rfl
  rw [mergedEntries, Value.lookup_mergeEntries contextTidy.1, Value.lookup_mergeEntries rootTidy.1,
    selected, rawOf_eq_lookup top, rawOf_eq_lookup top, bind_map_over_or key.decode_mapping,
    bind_map_over_or key.decode_mapping, initially]
  cases lookup (.string key.entry) (entriesOf context?) with
  | some value => rfl
  | none => cases lookup (.string key.entry) (entriesOf root?) <;> rfl

/-- The entries for the logger in the lowest layer. -/
def defaultLogger : List (Value × Value) :=
  entriesOf (loggerOf (some default.toValue))

theorem complete_defaultLogger : Complete ["level"] defaultLogger := by
  intro name listed
  cases List.mem_singleton.mp listed
  exact ⟨_, rfl⟩

theorem named_defaultLogger : ∀ entry ∈ defaultLogger, Named ["level"] entry.1 := by
  intro entry member
  cases List.mem_singleton.mp member
  exact ⟨"level", rfl, fun _ => rfl⟩

/-- The entries for the logger that remain of all layers. -/
def mergedLogger (root? context? : Option Value) : List (Value × Value) :=
  mergeEntries (mergeEntries defaultLogger (entriesOf (loggerOf root?)))
    (entriesOf (loggerOf context?))

/-- A mapping over another, where either may be absent. -/
theorem or_over_mapping {value? : Option Value} {entries : List (Value × Value)}
    (isMapping : ∀ value, value? = some value → ∃ entries, value = .mapping entries) :
    (value?.map (laidOver (some (.mapping entries)))).or (some (.mapping entries)) =
      some (.mapping (mergeEntries entries (entriesOf value?))) := by
  cases value? with
  | none => rfl
  | some value =>
      obtain ⟨others, rfl⟩ := isMapping value rfl
      rfl

theorem lookup_logger_merged (isRoot : IsLayer root?) (isContext : IsLayer context?)
    (rootTidy : Tidy root?) (contextTidy : Tidy context?) :
    lookup (.string "logger") (mergedEntries root? context?) =
      some (.mapping (mergedLogger root? context?)) := by
  have initially : lookup (.string "logger") defaultEntries =
      some (.mapping defaultLogger) := rfl
  rw [mergedEntries, Value.lookup_mergeEntries contextTidy.1, Value.lookup_mergeEntries rootTidy.1,
    ← field?_eq_lookup, ← field?_eq_lookup, initially]
  rw [show root?.bind (Value.field? "logger") = loggerOf root? from rfl,
    show context?.bind (Value.field? "logger") = loggerOf context? from rfl,
    or_over_mapping isRoot.2, or_over_mapping isContext.2]
  rfl

/-- The level of logging that remains of all layers. -/
theorem levelOfValue_mergedLogger {level : String} (rootTidy : Tidy root?)
    (contextTidy : Tidy context?) :
    levelOfValue (.mapping (mergedLogger root? context?)) = some level ↔
      ((∀ entry ∈ entriesOf (loggerOf root?), Named ["level"] entry.1) ∧
        ∀ entry ∈ entriesOf (loggerOf context?), Named ["level"] entry.1) ∧
      chosen .loggerLevel (selected root? context? .loggerLevel) = some level := by
  have initially : (lookup (.string "level") defaultLogger).bind textOfValue =
      some default.loggerLevel := rfl
  have refuses : ∀ entries, textOfValue (.mapping entries) = none := fun _ => rfl
  rw [mergedLogger, levelOfValue_mapping_eq_some_iff
    ((complete_defaultLogger.mergeEntries rootTidy.2).mergeEntries contextTidy.2),
    forall_mem_mergeEntries_named, forall_mem_mergeEntries_named, and_iff_right named_defaultLogger,
    Value.lookup_mergeEntries contextTidy.2, Value.lookup_mergeEntries rootTidy.2, selected,
    rawOf_loggerLevel_eq_lookup, rawOf_loggerLevel_eq_lookup, bind_map_over_or refuses,
    bind_map_over_or refuses, initially]
  refine and_congr_right fun _ => Eq.congr_left ?_
  cases lookup (.string "level") (entriesOf (loggerOf context?)) with
  | some value => rfl
  | none => cases lookup (.string "level") (entriesOf (loggerOf root?)) <;> rfl

/-- Layers give settings exactly if their keys are texts and what counts for each
setting decodes, and then they give what it decodes to. -/
theorem ofLayers_eq_ok_iff (isRoot : IsLayer root?) (isContext : IsLayer context?)
    (rootTidy : Tidy root?) (contextTidy : Tidy context?) :
    ofLayers [root?, context?] = .ok settings ↔
      WellKeyed root? ∧ WellKeyed context? ∧
        ∀ key, chosen key (selected root? context? key) = some (key.content settings) := by
  have complete : Complete entryNames (mergedEntries root? context?) :=
    (complete_defaultEntries.mergeEntries rootTidy.1).mergeEntries contextTidy.1
  rw [ofLayers_eq_ok_iff_ofValue isRoot isContext, ofValue_mapping_eq_some_iff complete,
    mergedEntries, forall_mem_mergeEntries_named, forall_mem_mergeEntries_named,
    and_iff_right named_defaultEntries, ← mergedEntries]
  have level := lookup_logger_merged isRoot isContext rootTidy contextTidy
  constructor
  · rintro ⟨⟨rootKeys, contextKeys⟩, fields⟩
    have logger := fields .loggerLevel
    rw [show SettingKey.loggerLevel.entry = "logger" from rfl, level] at logger
    obtain ⟨⟨rootInner, contextInner⟩, found⟩ :=
      (levelOfValue_mergedLogger rootTidy contextTidy).mp logger
    refine ⟨⟨rootKeys, rootInner⟩, ⟨contextKeys, contextInner⟩, fun key => ?_⟩
    by_cases top : key = .loggerLevel
    · subst top
      exact found
    · rw [← bind_decode_merged top rootTidy contextTidy, ← fields key,
        SettingKey.decodeEntry_eq_decode top]
  · rintro ⟨⟨rootKeys, rootInner⟩, ⟨contextKeys, contextInner⟩, fields⟩
    refine ⟨⟨rootKeys, contextKeys⟩, fun key => ?_⟩
    by_cases top : key = .loggerLevel
    · subst top
      rw [show SettingKey.loggerLevel.entry = "logger" from rfl, level]
      exact (levelOfValue_mergedLogger rootTidy contextTidy).mpr
        ⟨⟨rootInner, contextInner⟩, fields .loggerLevel⟩
    · rw [← fields key, ← bind_decode_merged top rootTidy contextTidy,
        SettingKey.decodeEntry_eq_decode top]

end Layers

end Settings

end Lineage
