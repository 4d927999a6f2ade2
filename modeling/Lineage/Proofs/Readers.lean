import Lineage.Proofs.Reading

/-!
# The readers of the file for all contexts

Laid over the lowest layer a value is read like alone, if its keys allow it.  So
what a command reads from the file for all contexts, by what each setting is,
and what is loaded from it as a layer can be compared setting by setting.
-/

namespace Lineage

namespace Settings

open Yaml (Value Node Document)
open Yaml.Value (Distinct Named entriesOf lookup mergeEntries laidOver)

variable {document : Document} {value : Value}

section Merge

variable {settings : Settings}

theorem levelOfValue_eq_elim {inner : List (Value × Value)} (distinct : Distinct inner)
    (keys : ∀ entry ∈ inner, Named ["level"] entry.1) :
    levelOfValue (.mapping inner) =
      (lookup (.string "level") inner).elim (some default.loggerLevel) textOfValue := by
  obtain ⟨⟨named, read⟩, plain⟩ := forall_named_iff.mp keys
  rw [levelOfValue, read]
  exact fieldOr_eq_elim distinct read (plain "level" (by simp))

theorem levelOfValue_merge {inner : List (Value × Value)} {level : String}
    (distinct : Distinct inner) :
    levelOfValue (.mapping (mergeEntries defaultLogger inner)) = some level ↔
      (∀ entry ∈ inner, Named ["level"] entry.1) ∧ levelOfValue (.mapping inner) = some level := by
  have initially : (lookup (.string "level") defaultLogger).bind textOfValue =
      some default.loggerLevel := rfl
  have refuses : ∀ entries, textOfValue (.mapping entries) = none := fun _ => rfl
  rw [levelOfValue_mapping_eq_some_iff (complete_defaultLogger.mergeEntries distinct),
    forall_mem_mergeEntries_named, and_iff_right named_defaultLogger,
    Value.lookup_mergeEntries distinct, bind_map_over_or refuses, initially]
  refine and_congr_right fun keys => ?_
  rw [levelOfValue_eq_elim distinct keys]

/-- The value of an entry gives the same to a setting where it is laid over the value
that holds otherwise, unless it is a mapping for the logger in which a tagged key
names the level. -/
theorem decodeEntry_over {key : SettingKey} {content : key.Content}
    (distinct : key = .loggerLevel → ∀ inner, value = .mapping inner → Distinct inner) :
    key.decodeEntry (laidOver (lookup (.string key.entry) defaultEntries) value) = some content ↔
      (key = .loggerLevel → ∀ inner, value = .mapping inner →
        ∀ entry ∈ inner, Named ["level"] entry.1) ∧ key.decodeEntry value = some content := by
  by_cases logger : key = .loggerLevel
  · subst logger
    cases value with
    | mapping inner =>
        refine (levelOfValue_merge (distinct rfl inner rfl)).trans (and_congr_left fun _ => ?_)
        simp
    | _ => exact (and_iff_right nofun).symm
  · rw [SettingKey.decodeEntry_eq_decode logger, decode_over key.decode_mapping]
    exact (and_iff_right fun same => absurd same logger).symm

theorem decodeEntry_default (key : SettingKey) :
    (lookup (.string key.entry) defaultEntries).bind key.decodeEntry =
      some (key.content default) := by
  cases key <;> rfl

/-- A mapping whose keys allow it is read entry by entry. -/
theorem ofValue_mapping_of_named {entries : List (Value × Value)} (distinct : Distinct entries)
    (keys : ∀ entry ∈ entries, Named entryNames entry.1) :
    ofValue (.mapping entries) = some settings ↔
      ∀ key : SettingKey, (lookup (.string key.entry) entries).elim
        (some (key.content default)) key.decodeEntry = some (key.content settings) := by
  obtain ⟨⟨named, read⟩, plain⟩ := forall_named_iff.mp keys
  rw [ofValue_eq_some_iff, read]
  simp only [Option.some.injEq, exists_eq_left']
  refine forall_congr' fun key => Eq.congr_left ?_
  exact fieldOr_eq_elim distinct read (plain key.entry (entry_mem_entryNames key))

theorem bind_decodeEntry_merge_iff {entries : List (Value × Value)} {key : SettingKey}
    {content : key.Content} (distinct : Distinct entries)
    (innerDistinct : Distinct (entriesOf (lookup (.string "logger") entries))) :
    (lookup (.string key.entry) (mergeEntries defaultEntries entries)).bind key.decodeEntry =
        some content ↔
      (key = .loggerLevel → ∀ inner, lookup (.string key.entry) entries = some (.mapping inner) →
        ∀ entry ∈ inner, Named ["level"] entry.1) ∧
      (lookup (.string key.entry) entries).elim (some (key.content default)) key.decodeEntry =
        some content := by
  rw [Value.lookup_mergeEntries distinct]
  cases found : lookup (.string key.entry) entries with
  | none =>
      rw [Option.map_none, Option.none_or, decodeEntry_default, Option.elim_none]
      exact (and_iff_right fun _ _ => nofun).symm
  | some value =>
      refine (decodeEntry_over ?_).trans (and_congr_left fun _ => ?_)
      · rintro rfl inner rfl
        change lookup (.string "logger") entries = _ at found
        rw [found] at innerDistinct
        exact innerDistinct
      · simp only [Option.some.injEq]

theorem forall_mem_entriesOf_iff {value? : Option Value} {holds : Value × Value → Prop} :
    (∀ entry ∈ entriesOf value?, holds entry) ↔
      ∀ inner, value? = some (.mapping inner) → ∀ entry ∈ inner, holds entry := by
  cases value? with
  | none => simp [entriesOf]
  | some value => cases value <;> simp [entriesOf]

/-- A value is read alike where it is laid over the lowest layer, if its keys allow it. -/
theorem ofValue_merge_iff (tidy : Tidy (some value)) :
    ofValue (default.toValue.merge value) = some settings ↔
      WellKeyed (some value) ∧ ofValue value = some settings := by
  cases value with
  | mapping entries =>
      obtain ⟨distinct, innerDistinct⟩ := tidy
      change Distinct entries at distinct
      change Distinct (entriesOf (lookup (.string "logger") entries)) at innerDistinct
      change ofValue (.mapping (mergeEntries defaultEntries entries)) = some settings ↔
        ((∀ entry ∈ entries, Named entryNames entry.1) ∧
          ∀ entry ∈ entriesOf (lookup (.string "logger") entries), Named ["level"] entry.1) ∧
            ofValue (.mapping entries) = some settings
      rw [ofValue_mapping_eq_some_iff (complete_defaultEntries.mergeEntries distinct),
        forall_mem_mergeEntries_named, and_iff_right named_defaultEntries, and_assoc]
      refine and_congr_right fun keys => ?_
      rw [ofValue_mapping_of_named distinct keys, forall_mem_entriesOf_iff]
      simp only [bind_decodeEntry_merge_iff distinct innerDistinct, forall_and]
      refine and_congr_left fun _ => ⟨fun level => level .loggerLevel rfl, ?_⟩
      rintro level key rfl
      exact level
  | _ =>
      refine (and_iff_right ⟨?_, ?_⟩).symm
      · exact List.forall_mem_nil _
      · exact List.forall_mem_nil _

end Merge

section Settings

variable {settings one other : Settings}

/-- What a name has in a mapping of a document. -/
def Under (document : Document) (name : String) (node child : Node) : Prop :=
  ∃ ns, namedNodes document node = some ns ∧ (name, child) ∈ ns

def decodeNode (document : Document) (key : SettingKey) (node : Node) : Option key.Content :=
  match key with
  | .watchNamespace => textOfNode document node
  | .wellKnownKinds => kindsOfNode document node
  | .discoveryRefreshSeconds => wordOfNode document node
  | .cacheSyncTimeoutSeconds => wordOfNode document node
  | .loggerLevel => levelOfNode document node

theorem ofDocument_eq_some_iff :
    ofDocument document = some settings ↔
      ∃ named, namedNodes document document.root = some named ∧
        ∀ key : SettingKey,
          fieldOr named key.entry (key.content default) (decodeNode document key) =
            some (key.content settings) := by
  rw [ofDocument]
  simp only [Option.bind_eq_bind, Option.bind_eq_some_iff, Option.some.injEq]
  refine exists_congr fun named => and_congr_right fun _ => ?_
  constructor
  · rintro ⟨ns, nsRead, kinds, kindsRead, refresh, refreshRead, sync, syncRead, level, levelRead,
      rfl⟩
    rintro (_ | _ | _ | _ | _)
    exacts [nsRead, kindsRead, refreshRead, syncRead, levelRead]
  · intro all
    exact ⟨_, all .watchNamespace, _, all .wellKnownKinds, _, all .discoveryRefreshSeconds, _,
      all .cacheSyncTimeoutSeconds, _, all .loggerLevel, rfl⟩

theorem eq_of_content (same : ∀ key : SettingKey, key.content one = key.content other) :
    one = other := by
  obtain ⟨_, _, _, _, _⟩ := one
  have ns := same .watchNamespace
  have kinds := same .wellKnownKinds
  have refresh := same .discoveryRefreshSeconds
  have sync := same .cacheSyncTimeoutSeconds
  have level := same .loggerLevel
  simp only [SettingKey.content] at ns kinds refresh sync level
  subst ns kinds refresh sync level
  rfl

theorem exists_settings {holds : (key : SettingKey) → key.Content → Prop}
    (each : ∀ key, ∃ content, holds key content) :
    ∃ settings : Settings, ∀ key, holds key (key.content settings) := by
  choose contents satisfied using each
  refine ⟨⟨contents .watchNamespace, contents .wellKnownKinds, contents .discoveryRefreshSeconds,
    contents .cacheSyncTimeoutSeconds, contents .loggerLevel⟩, fun key => ?_⟩
  cases key <;> exact satisfied _

theorem entry_coincide (document : Document) (key : SettingKey) :
    Coincide document key.decodeEntry (decodeNode document key) := by
  cases key with
  | watchNamespace => exact text_coincide document
  | wellKnownKinds => exact kinds_coincide document
  | discoveryRefreshSeconds => exact word_coincide document
  | cacheSyncTimeoutSeconds => exact word_coincide document
  | loggerLevel => exact level_coincide document

/-- Both ways to read a document never read different settings. -/
theorem settings_coincide (means : document.Means document.root value)
    (valueRead : ofValue value = some one) (nodeRead : ofDocument document = some other) :
    one = other := by
  obtain ⟨vs, valueNames, valueFields⟩ := ofValue_eq_some_iff.mp valueRead
  obtain ⟨ns, nodeNames, nodeFields⟩ := ofDocument_eq_some_iff.mp nodeRead
  refine eq_of_content fun key => ?_
  exact fieldOr_coincide (entry_coincide document key) (paired_of_named means valueNames nodeNames)
    (valueFields key) (nodeFields key)

/-- How the node of an entry is spelled where its value counts. -/
def SpelledFor (document : Document) (key : SettingKey) (node : Node) : Prop :=
  match key with
  | .watchNamespace => True
  | .wellKnownKinds => Written document node
  | .discoveryRefreshSeconds => Counted document node
  | .cacheSyncTimeoutSeconds => Counted document node
  | .loggerLevel => Written document node

/-- A document in which null is spelled for no section, and numbers are spelled
without minus signs and, under the tag of integers, in the plain or literal style. -/
def Spelled (document : Document) : Prop :=
  Written document document.root ∧
    ∀ (key : SettingKey) node, Under document key.entry document.root node →
      SpelledFor document key node

def scalarOf (document : Document) (node : Node) :
    Option (Option String × Yaml.ScalarStyle × String) :=
  match settled document node with
  | some (.scalar tag style text) => some (tag, style, text)
  | _ => none

theorem forall_mem_scalarOf {document : Document} {node : Node}
    {holds : Option String → Yaml.ScalarStyle → String → Prop} :
    (∀ scalar ∈ scalarOf document node, holds scalar.1 scalar.2.1 scalar.2.2) ↔
      ∀ tag style text, settled document node = some (.scalar tag style text) →
        holds tag style text := by
  rw [scalarOf]
  rcases settled document node with _ | _ | _ | _ | _ | _ <;> simp

instance (document : Document) (node : Node) : Decidable (Written document node) :=
  decidable_of_iff _
    (@forall_mem_scalarOf document node fun _ _ text => Yaml.Scalar.isNull text = false)

instance (document : Document) (node : Node) : Decidable (Counted document node) :=
  decidable_of_iff _
    (@forall_mem_scalarOf document node fun tag style text => text.toList.head? ≠ some '-' ∧
      (tag = some "tag:yaml.org,2002:int" → style = .plain ∨ style = .literal))

instance (document : Document) (key : SettingKey) (node : Node) :
    Decidable (SpelledFor document key node) :=
  match key with
  | .watchNamespace => .isTrue trivial
  | .wellKnownKinds => inferInstanceAs (Decidable (Written document node))
  | .discoveryRefreshSeconds => inferInstanceAs (Decidable (Counted document node))
  | .cacheSyncTimeoutSeconds => inferInstanceAs (Decidable (Counted document node))
  | .loggerLevel => inferInstanceAs (Decidable (Written document node))

theorem forall_under_iff {holds : SettingKey → Node → Prop} :
    (∀ ns ∈ namedNodes document document.root, ∀ pair ∈ ns, ∀ key ∈ SettingKey.all,
        key.entry = pair.1 → holds key pair.2) ↔
      ∀ (key : SettingKey) node, Under document key.entry document.root node → holds key node := by
  constructor
  · rintro all key node ⟨ns, read, member⟩
    exact all ns read (key.entry, node) member key key.mem_all rfl
  · rintro all ns read ⟨name, node⟩ member key _ rfl
    exact all key node ⟨ns, read, member⟩

instance (document : Document) : Decidable (Spelled document) :=
  have : Decidable (∀ (key : SettingKey) node, Under document key.entry document.root node →
      SpelledFor document key node) :=
    decidable_of_iff _ forall_under_iff
  inferInstanceAs (Decidable (_ ∧ _))

theorem exists_fieldOr {α : Type} {vs : List (String × Value)} {ns : List (String × Node)}
    {name : String} {otherwise content : α} {fromValue : Value → Option α}
    {fromNode : Node → Option α} (paired : Paired document vs ns)
    (read : fieldOr vs name otherwise fromValue = some content)
    (forth : ∀ value node, (name, node) ∈ ns → document.Means node value →
      fromValue value = some content → ∃ content, fromNode node = some content) :
    ∃ content, fieldOr ns name otherwise fromNode = some content := by
  rcases fieldOr_paired paired name otherwise fromValue fromNode with
    ⟨_, second⟩ | ⟨value, node, member, means, first, second⟩ | ⟨first, _⟩
  · exact ⟨otherwise, second⟩
  · rw [second]
    exact forth value node member means (first ▸ read)
  · rw [first] at read
    cases read

theorem exists_levelOfNode {level : String} {node : Node} (means : document.Means node value)
    (read : levelOfValue value = some level) (written : Written document node) :
    ∃ level, levelOfNode document node = some level := by
  obtain ⟨vs, valueNames, field⟩ := Option.bind_eq_some_iff.mp read
  obtain ⟨ns, nodeNames⟩ := exists_namedNodes means valueNames written
  have spelled : ∀ value node, ("level", node) ∈ ns → document.Means node value →
      textOfValue value = some level → ∃ text, textOfNode document node = some text :=
    fun value node _ means text =>
      ⟨level, textOfNode_of_untagged means (textOfValue_eq_some_iff.mp text)⟩
  obtain ⟨found, nodeField⟩ :=
    exists_fieldOr (paired_of_named means valueNames nodeNames) field spelled
  refine ⟨found, ?_⟩
  rw [levelOfNode, nodeNames]
  exact nodeField

theorem exists_decodeNode {key : SettingKey} {content : key.Content} {node : Node}
    (means : document.Means node value) (read : key.decodeEntry value = some content)
    (spelled : SpelledFor document key node) :
    ∃ content, decodeNode document key node = some content := by
  cases key with
  | watchNamespace =>
      exact ⟨_, textOfNode_of_untagged means (textOfValue_eq_some_iff.mp read)⟩
  | wellKnownKinds => exact exists_kindsOfNode means read spelled
  | discoveryRefreshSeconds => exact exists_wordOfNode means read spelled
  | cacheSyncTimeoutSeconds => exact exists_wordOfNode means read spelled
  | loggerLevel => exact exists_levelOfNode means read spelled

theorem exists_ofDocument (means : document.Means document.root value)
    (read : ofValue value = some settings) (spelled : Spelled document) :
    ∃ settings, ofDocument document = some settings := by
  obtain ⟨vs, valueNames, valueFields⟩ := ofValue_eq_some_iff.mp read
  obtain ⟨ns, nodeNames⟩ := exists_namedNodes means valueNames spelled.1
  have each : ∀ key : SettingKey, ∃ content,
      fieldOr ns key.entry (key.content default) (decodeNode document key) = some content := by
    intro key
    refine exists_fieldOr (paired_of_named means valueNames nodeNames) (valueFields key) ?_
    intro value node member means found
    exact exists_decodeNode means found (spelled.2 key node ⟨ns, nodeNames, member⟩)
  obtain ⟨settings, fields⟩ := exists_settings each
  exact ⟨settings, ofDocument_eq_some_iff.mpr ⟨ns, nodeNames, fields⟩⟩

/-- How the node of an entry is typed where its spelling is read. -/
def TypedFor (document : Document) (key : SettingKey) (node : Node) : Prop :=
  match key with
  | .watchNamespace => IsText document node
  | .wellKnownKinds => Untagged document node
  | .discoveryRefreshSeconds => Untagged document node
  | .cacheSyncTimeoutSeconds => Untagged document node
  | .loggerLevel => Untagged document node ∧ TextKeys document ["level"] node ∧
      ∀ child, Under document "level" node child → IsText document child

/-- A document in which keys and texts are texts by their values, keys that name
settings have no tags, and no number or section that is left out has a common tag
that says something else. -/
def Typed (document : Document) : Prop :=
  Untagged document document.root ∧ TextKeys document entryNames document.root ∧
    ∀ (key : SettingKey) node, Under document key.entry document.root node →
      TypedFor document key node

theorem exists_fieldOr_value {α : Type} {vs : List (String × Value)} {ns : List (String × Node)}
    {name : String} {otherwise content : α} {fromValue : Value → Option α}
    {fromNode : Node → Option α} (paired : Paired document vs ns)
    (read : fieldOr ns name otherwise fromNode = some content)
    (back : ∀ value node, (name, node) ∈ ns → document.Means node value →
      fromNode node = some content → ∃ content, fromValue value = some content) :
    ∃ content, fieldOr vs name otherwise fromValue = some content := by
  rcases fieldOr_paired paired name otherwise fromValue fromNode with
    ⟨first, _⟩ | ⟨value, node, member, means, first, second⟩ | ⟨_, second⟩
  · exact ⟨otherwise, first⟩
  · rw [first]
    exact back value node member means (second ▸ read)
  · rw [second] at read
    cases read

theorem exists_textOfValue {node : Node} (means : document.Means node value)
    (isText : IsText document node) : ∃ text, textOfValue value = some text := by
  obtain ⟨text, same⟩ := isText value means
  exact ⟨text, textOfValue_eq_some_iff.mpr same⟩

theorem exists_levelOfValue {level : String} {node : Node} (means : document.Means node value)
    (read : levelOfNode document node = some level) (untagged : Untagged document node)
    (keys : TextKeys document ["level"] node)
    (texts : ∀ child, Under document "level" node child → IsText document child) :
    ∃ level, levelOfValue value = some level := by
  obtain ⟨ns, nodeNames, field⟩ := Option.bind_eq_some_iff.mp read
  obtain ⟨vs, valueNames⟩ := exists_namedEntries means nodeNames untagged keys
  have typed : ∀ value node, ("level", node) ∈ ns → document.Means node value →
      textOfNode document node = some level → ∃ text, textOfValue value = some text :=
    fun value node member means _ => exists_textOfValue means (texts node ⟨ns, nodeNames, member⟩)
  obtain ⟨found, valueField⟩ :=
    exists_fieldOr_value (paired_of_named means valueNames nodeNames) field typed
  refine ⟨found, ?_⟩
  rw [levelOfValue, valueNames]
  exact valueField

theorem exists_decodeEntry {key : SettingKey} {content : key.Content} {node : Node}
    (means : document.Means node value) (read : decodeNode document key node = some content)
    (typed : TypedFor document key node) : ∃ content, key.decodeEntry value = some content := by
  cases key with
  | watchNamespace => exact exists_textOfValue means typed
  | wellKnownKinds => exact exists_kindsOfValue means read typed
  | discoveryRefreshSeconds => exact exists_wordOfValue means read typed
  | cacheSyncTimeoutSeconds => exact exists_wordOfValue means read typed
  | loggerLevel => exact exists_levelOfValue means read typed.1 typed.2.1 typed.2.2

theorem exists_ofValue (means : document.Means document.root value)
    (read : ofDocument document = some settings) (typed : Typed document) :
    ∃ settings, ofValue value = some settings := by
  obtain ⟨untagged, keys, parts⟩ := typed
  obtain ⟨ns, nodeNames, nodeFields⟩ := ofDocument_eq_some_iff.mp read
  obtain ⟨vs, valueNames⟩ := exists_namedEntries means nodeNames untagged keys
  have each : ∀ key : SettingKey, ∃ content,
      fieldOr vs key.entry (key.content default) key.decodeEntry = some content := by
    intro key
    refine exists_fieldOr_value (paired_of_named means valueNames nodeNames) (nodeFields key) ?_
    intro value node member means found
    exact exists_decodeEntry means found (parts key node ⟨ns, nodeNames, member⟩)
  obtain ⟨settings, fields⟩ := exists_settings each
  exact ⟨settings, ofValue_eq_some_iff.mpr ⟨vs, valueNames, fields⟩⟩

/-- The keys of a value are those of the node that means it. -/
theorem TextKeys.forall_mem_entriesOf {names : List String} {node : Node}
    (means : document.Means node value) (keys : TextKeys document names node) :
    ∀ entry ∈ entriesOf (some value), Named names entry.1 := by
  cases value with
  | mapping entries =>
      obtain ⟨actual, settled, holds⟩ := means.holds
      cases holds with
      | scalar atom => cases atom
      | mapping parts => exact keys.forall_mem settled parts
  | _ => exact List.forall_mem_nil _

/-- What a key has in the value of a mapping is meant by what it has there. -/
theorem exists_under_of_lookup {name : String} {node : Node} {entries : List (Value × Value)}
    {ns : List (String × Node)} (means : document.Means node (.mapping entries))
    (read : namedNodes document node = some ns)
    (found : lookup (.string name) entries = some value) :
    ∃ child, Under document name node child ∧ document.Means child value := by
  obtain ⟨actual, settled, holds⟩ := means.holds
  cases holds with
  | scalar atom => cases atom
  | mapping parts =>
      have names := (namedNodes_mapping_eq_some_iff settled).mp read
      obtain ⟨index, bound, here⟩ := List.mem_iff_getElem.mp (Value.mem_of_lookup_string found)
      have inNodes : index < _ := parts.length_eq.symm ▸ bound
      have inNames : index < ns.length := names.length_eq ▸ inNodes
      have both := parts.get inNodes bound
      obtain ⟨spelled, same⟩ := names.get inNodes inNames
      simp only [List.get_eq_getElem, here] at both spelled same
      rw [textOfNode_of_untagged both.1 rfl] at spelled
      have pair : ns[index] = (name, ns[index].2) := Prod.ext (Option.some.inj spelled).symm rfl
      exact ⟨ns[index].2, ⟨ns, read, pair ▸ List.getElem_mem inNames⟩, same ▸ both.2⟩

theorem wellKeyed_of_typed (means : document.Means document.root value)
    (read : ofDocument document = some settings) (typed : Typed document) :
    WellKeyed (some value) := by
  obtain ⟨_, keys, parts⟩ := typed
  obtain ⟨ns, nodeNames, _⟩ := ofDocument_eq_some_iff.mp read
  refine ⟨keys.forall_mem_entriesOf means, ?_⟩
  rw [loggerOf, field?_eq_lookup]
  cases found : lookup (.string "logger") (entriesOf (some value)) with
  | none => exact List.forall_mem_nil _
  | some logger =>
      cases value with
      | mapping entries =>
          obtain ⟨child, under, childMeans⟩ := exists_under_of_lookup means nodeNames found
          exact (parts .loggerLevel child under).2.1.forall_mem_entriesOf childMeans
      | _ => cases found

end Settings

section Files

variable {tree : FileTree} {path text : String} {settings : Settings}

theorem find_of_read (contents : tree.read path = .ok text) :
    tree.find path = .ok (.file (some text)) := by
  rw [FileTree.read] at contents
  rcases found : tree.find path with fault | _ | _ | other <;> rw [found] at contents
  · cases contents
  · cases contents
  · cases contents
  · cases contents
    rfl

theorem loadFile_eq (contents : tree.read path = .ok text) :
    loadFile tree path =
      match parse text with
      | some settings => .ok settings
      | none => .error (.malformedFile path) := by
  rw [loadFile, FileTree.exists?, find_of_read contents, readFile, contents]
  rfl

theorem loadFile_eq_ok_iff (contents : tree.read path = .ok text) :
    loadFile tree path = .ok settings ↔ parse text = some settings := by
  rw [loadFile_eq contents]
  cases parse text <;> simp

theorem loadLayers_none_eq (contents : tree.read path = .ok text) :
    loadLayers tree path none =
      match Yaml.parse text with
      | some value =>
        match ofValue (default.toValue.merge value) with
        | some settings => .ok settings
        | none => .error .undecodable
      | none => .error (.malformedFile path) := by
  rw [loadLayers, loadLayer_eq, find_of_read contents]
  simp only [layerOfText]
  cases Yaml.parse text with
  | none => rfl
  | some value => cases value <;> rfl

/-- What a text gives as the only layer. -/
theorem loadLayers_none_eq_ok_iff (contents : tree.read path = .ok text) :
    loadLayers tree path none = .ok settings ↔
      ∃ value, Yaml.parse text = some value ∧ WellKeyed (some value) ∧
        ofValue value = some settings := by
  rw [loadLayers_none_eq contents]
  cases parsed : Yaml.parse text with
  | none => simp
  | some value =>
      simp only [Option.some.injEq, exists_eq_left']
      rw [← ofValue_merge_iff (tidy_of_parse parsed)]
      cases ofValue (default.toValue.merge value) <;> simp

end Files

/-- The two readers of the file for all contexts.

Whatever both of them read is the same, and a text that holds no single document
is read by neither.  What counts as a layer is read by what each setting is
unless null is spelled for a section or a number is spelled in a way that only
its value has; what is read by what each setting is counts as a layer if the
document has a value in which the keys and texts are texts. -/
theorem readers_agree {tree : FileTree} {path text : String}
    (contents : tree.read path = .ok text) :
    (∀ one other, loadFile tree path = .ok one → loadLayers tree path none = .ok other →
      one = other) ∧
    (Yaml.soleDocument text = none →
      loadFile tree path = .error (.malformedFile path) ∧
        loadLayers tree path none = .error (.malformedFile path)) ∧
    (∀ document settings, Yaml.soleDocument text = some document → Spelled document →
      loadLayers tree path none = .ok settings → loadFile tree path = .ok settings) ∧
    (∀ document settings, Yaml.soleDocument text = some document → document.value?.isSome →
      Typed document → loadFile tree path = .ok settings →
        loadLayers tree path none = .ok settings) := by
  simp only [loadFile_eq_ok_iff contents, loadLayers_none_eq_ok_iff contents, parse, Yaml.parse]
  refine ⟨?_, ?_, ?_, ?_⟩
  · rintro one other spelled ⟨value, converted, _, decoded⟩
    obtain ⟨document, single, read⟩ := Option.bind_eq_some_iff.mp spelled
    rw [single, Option.bind_some] at converted
    exact (settings_coincide (Document.means_root converted) decoded read).symm
  · intro none
    rw [loadFile_eq contents, loadLayers_none_eq contents, parse, Yaml.parse, none]
    exact ⟨rfl, rfl⟩
  · rintro document settings single spelled ⟨value, converted, _, decoded⟩
    rw [single, Option.bind_some] at converted ⊢
    have means := Document.means_root converted
    obtain ⟨found, read⟩ := exists_ofDocument means decoded spelled
    rw [read, settings_coincide means decoded read]
  · intro document settings single hasValue typed read
    obtain ⟨value, converted⟩ := Option.isSome_iff_exists.mp hasValue
    rw [single, Option.bind_some] at read ⊢
    have means := Document.means_root converted
    obtain ⟨found, decoded⟩ := exists_ofValue means read typed
    refine ⟨value, converted, wellKeyed_of_typed means read typed, ?_⟩
    rw [decoded, settings_coincide means decoded read]

theorem readers_agree_refreshed :
    loadFile (treeOf "discoveryRefreshSeconds: 7\n" "") "cfg/config.yaml" =
      .ok { default with discoveryRefreshSeconds := 7 } := by
  have contents : (treeOf "discoveryRefreshSeconds: 7\n" "").read "cfg/config.yaml" =
      .ok "discoveryRefreshSeconds: 7\n" := by
    decide +kernel
  have loaded : loadLayers (treeOf "discoveryRefreshSeconds: 7\n" "") "cfg/config.yaml" none =
      .ok { default with discoveryRefreshSeconds := 7 } := by
    decide +kernel
  have single : (Yaml.soleDocument "discoveryRefreshSeconds: 7\n").isSome := by
    decide +kernel
  have spelled : ∀ document ∈ Yaml.soleDocument "discoveryRefreshSeconds: 7\n",
      Spelled document := by
    decide +kernel
  obtain ⟨document, same⟩ := Option.isSome_iff_exists.mp single
  exact (readers_agree contents).2.2.1 document _ same (spelled document same) loaded

/-- What is spelled like a number is the text of a setting for one reader only. -/
theorem readers_differ_number :
    (treeOf "watchNamespace: 123\n" "").read "cfg/config.yaml" = .ok "watchNamespace: 123\n" ∧
    loadFile (treeOf "watchNamespace: 123\n" "") "cfg/config.yaml" =
      .ok { default with watchNamespace := "123" } ∧
    loadLayers (treeOf "watchNamespace: 123\n" "") "cfg/config.yaml" none =
      .error .undecodable := by
  decide +kernel

end Settings

end Lineage
