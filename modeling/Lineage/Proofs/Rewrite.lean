import Lineage.Program
import Lineage.Proofs.Files
import Lineage.Proofs.Readers

/-!
# Rewriting the file for all contexts

Setting one setting rewrites the file for all contexts as a whole, with every
setting written out as that file says it by itself.  What is loaded afterwards
still differs from what was loaded before in that setting at most.
-/

namespace Lineage

namespace SettingKey

/-- Settings with another content for one of them. -/
def replace (key : SettingKey) (content : key.Content) (settings : Settings) : Settings :=
  match key with
  | watchNamespace => { settings with watchNamespace := content }
  | wellKnownKinds => { settings with wellKnownKinds := content }
  | discoveryRefreshSeconds => { settings with discoveryRefreshSeconds := content }
  | cacheSyncTimeoutSeconds => { settings with cacheSyncTimeoutSeconds := content }
  | loggerLevel => { settings with loggerLevel := content }

end SettingKey

namespace Settings

open Yaml (Value Document)
open Yaml.Value (Distinct Named entriesOf lookup)

section Places

variable {environment : Environment} {tree other : FileTree} {context path : String}
  {settings : Settings}

theorem names_rootFile (environment : Environment) :
    Path.names (rootFile environment) = Path.names (directory environment) ++ ["config.yaml"] := by
  rw [rootFile, Path.names_join (by decide)]
  congr 1

theorem origin_rootFile (tree : FileTree) (environment : Environment) :
    tree.origin (rootFile environment) = tree.origin (directory environment) := by
  rw [FileTree.origin, rootFile, Path.isAbsolute_join (by decide), FileTree.origin]

theorem isAbsolute_append (text : String) :
    Path.isAbsolute (text ++ ".yaml") = Path.isAbsolute text := by
  by_cases void : text = ""
  · subst void
    rfl
  · have filled : text.toList ≠ [] := by simpa using void
    simp [Path.isAbsolute, List.head?_append, List.head?_eq_some_head filled]

theorem names_contextFile (relative : Path.isAbsolute context = false) :
    Path.names (contextFile environment context) =
      Path.names (directory environment) ++ ["contexts"] ++ Path.names (context ++ ".yaml") := by
  rw [contextFile, Path.names_join (by rwa [isAbsolute_append]), Path.names_join (by decide)]
  congr 1

theorem origin_contextFile (relative : Path.isAbsolute context = false) :
    tree.origin (contextFile environment context) = tree.origin (directory environment) := by
  rw [FileTree.origin, contextFile, Path.isAbsolute_join (by rwa [isAbsolute_append]),
    Path.isAbsolute_join (by decide), FileTree.origin]

def Reached (tree : FileTree) (path : String) : Prop :=
  ∃ place, tree.walk (tree.origin path) (Path.names path) = .ok place ∧ (tree.at? place).isSome

/-- The file for a context is another one than that for all contexts, also when the
directory of the settings has to be made first. -/
def Apart (environment : Environment) (tree : FileTree) (context : String) : Prop :=
  (∀ place, tree.walk (tree.origin (rootFile environment)) (Path.names (rootFile environment)) =
      .ok place →
    tree.walk (tree.origin (contextFile environment context))
      (Path.names (contextFile environment context)) ≠ .ok place) ∧
  (Reached tree (directory environment) ∨
    ".." ∉ Path.names (directory environment) ∧ Path.isAbsolute context = false)

theorem save_eq_ok_iff :
    save tree settings path = .ok other ↔
      ∃ made, tree.makeParent path = .ok made ∧
        made.write path (some settings.render) = .ok other := by
  rw [save]
  cases tree.makeParent path with
  | error fault => simp [Except.mapError, bind, Except.bind]
  | ok made =>
      simp only [Except.ok.injEq, exists_eq_left']
      dsimp only [bind, Except.bind, Except.mapError]
      cases made.write path (some settings.render) <;> simp

theorem read_of_save (saved : save tree settings path = .ok other) :
    other.read path = .ok settings.render := by
  obtain ⟨made, _, written⟩ := save_eq_ok_iff.mp saved
  exact FileTree.read_of_write written

/-- The directory of the settings is there or is made, name by name. -/
theorem makeParent_rootFile {made : FileTree}
    (parent : tree.makeParent (rootFile environment) = .ok made) :
    Reached tree (directory environment) ∧ made = tree ∨
      ¬Reached tree (directory environment) ∧
        tree.makeWay false (tree.origin (directory environment))
          (Path.names (directory environment)) = .ok made := by
  rw [FileTree.makeParent, names_rootFile, origin_rootFile, List.dropLast_concat] at parent
  rw [Reached]
  split at parent
  · rename_i place walked
    rw [walked]
    simp only [Except.ok.injEq, exists_eq_left']
    split at parent
    · rename_i present
      cases parent
      exact .inl ⟨present, rfl⟩
    · rename_i missing
      exact .inr ⟨missing, parent⟩
  · rename_i fault walked
    rw [walked]
    refine .inr ⟨?_, parent⟩
    rintro ⟨_, ⟨⟩, _⟩

/-- The file for a context is untouched when the one for all contexts is saved. -/
theorem find_contextFile_of_save (rooted : tree.Rooted) (apart : Apart environment tree context)
    (saved : save tree settings (rootFile environment) = .ok other) (item : FileEntry) :
    other.find (contextFile environment context) = .ok item ↔
      tree.find (contextFile environment context) = .ok item := by
  obtain ⟨made, parent, written⟩ := save_eq_ok_iff.mp saved
  rcases makeParent_rootFile parent with ⟨reached, rfl⟩ | ⟨unreached, way⟩
  · exact FileTree.find_write_eq_ok_iff written apart.1
  · obtain ⟨straight, relative⟩ := apart.2.resolve_left unreached
    have onward : ".." ∉ Path.names (directory environment) ++ ["contexts"] := by
      simpa using straight
    -- No file for a context is there before the directory of the settings is.
    have before : tree.at? (tree.origin (directory environment) ++
        (Path.names (directory environment) ++ ["contexts"])) = none := by
      by_contra present
      rw [← ne_eq, ← Option.isSome_iff_ne_none, ← List.append_assoc] at present
      have around := rooted.directory (by simp) present
      exact unreached ⟨_, rooted.walk straight (by rw [around]; rfl), by rw [around]; rfl⟩
    have after : other.at? (other.origin (directory environment) ++
        (Path.names (directory environment) ++ ["contexts"])) = none := by
      obtain ⟨_, _, place, walked, _, rfl⟩ := FileTree.write_eq_ok_iff.mp written
      have origin : made.origin (directory environment) = tree.origin (directory environment) := by
        rw [FileTree.origin, FileTree.origin, FileTree.working_makeWay way]
      rw [names_rootFile, origin_rootFile] at walked
      have there := FileTree.eq_append_of_walk (by simpa using straight) walked
      rw [FileTree.origin_put, there, FileTree.at?_put_of_ne (by simp), origin,
        FileTree.at?_makeWay straight way, before]
      intro inside
      have longer := inside.length_le
      simp only [List.length_append, List.length_singleton] at longer
      omega
    refine iff_of_false ?_ ?_
    · refine FileTree.find_ne_ok_of_missing (names_contextFile relative) onward ?_
      rw [origin_contextFile relative]
      exact after
    · refine FileTree.find_ne_ok_of_missing (names_contextFile relative) onward ?_
      rw [origin_contextFile relative]
      exact before

end Places

section Changes

variable {key : SettingKey} {text : String} {settings changed : Settings}

theorem content_replace_self (key : SettingKey) (content : key.Content) (settings : Settings) :
    key.content (key.replace content settings) = content := by
  cases key <;> rfl

theorem content_replace_of_ne {other : SettingKey} (different : other ≠ key) (content : key.Content)
    (settings : Settings) :
    other.content (key.replace content settings) = other.content settings := by
  cases key <;> cases other <;> first | rfl | exact absurd rfl different

theorem map_readNumber_eq_ok_iff (key : SettingKey) (update : UInt64 → Settings) :
    (key.readNumber text).map update = .ok changed ↔
      ∃ word : UInt64, Natural.Decimal text word.toNat ∧ update word = changed := by
  simp only [← Natural.readWord_eq_ok_iff]
  rw [SettingKey.readNumber]
  cases Natural.readWord text <;> simp [Except.mapError, Except.map]

/-- A setting is written as what its text stands for. -/
theorem write_eq_ok_iff :
    key.write text settings = .ok changed ↔
      ∃ content, key.Spells text content ∧ key.replace content settings = changed := by
  cases key with
  | watchNamespace => simp [SettingKey.write, SettingKey.Spells, SettingKey.replace]
  | loggerLevel => simp [SettingKey.write, SettingKey.Spells, SettingKey.replace]
  | wellKnownKinds =>
      simp only [SettingKey.write, SettingKey.Spells]
      cases WorkloadKind.readList text <;> simp [SettingKey.replace]
  | discoveryRefreshSeconds => exact map_readNumber_eq_ok_iff .discoveryRefreshSeconds _
  | cacheSyncTimeoutSeconds => exact map_readNumber_eq_ok_iff .cacheSyncTimeoutSeconds _

/-- The key of a name is the one that is changed. -/
theorem set_eq_ok_iff {name : String} :
    settings.set name text = .ok changed ↔
      ∃ key content, SettingKey.ofName? name = some key ∧ key.Spells text content ∧
        key.replace content settings = changed := by
  rw [set]
  cases SettingKey.ofName? name with
  | none => simp
  | some key => simp [write_eq_ok_iff]

end Changes

section Whole

variable {settings : Settings}

theorem wordOfValue_toNat (word : UInt64) : wordOfValue (.integer word.toNat) = some word :=
  wordOfValue_eq_some_iff.mpr ⟨word.toNat, rfl, Int.natCast_nonneg _, by simp⟩

theorem kindsOfValue_names (kinds : List WorkloadKind) :
    kindsOfValue (.sequence (kinds.map fun kind => .string kind.name)) = some kinds := by
  change (kinds.map fun kind => Value.string kind.name).mapM kindOfValue = some kinds
  rw [mapM_eq_some_iff_forall₂, List.forall₂_map_left_iff, List.forall₂_same]
  intro kind _
  exact kindOfValue_eq_some_iff.mpr (.inl rfl)

/-- Settings that are written out as a layer decode to themselves. -/
theorem chosen_toValue (key : SettingKey) (settings : Settings) :
    chosen key (rawOf key (some settings.toValue)) = some (key.content settings) := by
  cases key with
  | watchNamespace => rfl
  | wellKnownKinds => exact kindsOfValue_names settings.wellKnownKinds
  | discoveryRefreshSeconds => exact wordOfValue_toNat settings.discoveryRefreshSeconds
  | cacheSyncTimeoutSeconds => exact wordOfValue_toNat settings.cacheSyncTimeoutSeconds
  | loggerLevel => rfl

theorem isLayer_toValue (settings : Settings) : IsLayer (some settings.toValue) := by
  refine ⟨?_, ?_⟩
  · rintro _ ⟨⟩
    exact ⟨_, rfl⟩
  · rintro _ ⟨⟩
    exact ⟨_, rfl⟩

theorem wellKeyed_toValue (settings : Settings) : WellKeyed (some settings.toValue) := by
  refine ⟨?_, ?_⟩ <;> intro entry member
  · have text : entry.1 ∈ entryNames.map Value.string := List.mem_map_of_mem (f := Prod.fst) member
    obtain ⟨name, _, same⟩ := List.mem_map.mp text
    rw [← same]
    exact ⟨name, rfl, fun _ => rfl⟩
  · cases List.mem_singleton.mp member
    exact ⟨"level", rfl, fun _ => rfl⟩

end Whole

section Alone

variable {document : Document} {layer? : Option Value} {settings : Settings}

/-- In a layer by itself a setting is read from the value that the layer has for it. -/
theorem fieldOr_eq_chosen {entries : List (Value × Value)} {named : List (String × Value)}
    (isLayer : IsLayer (some (.mapping entries))) (tidy : Tidy (some (.mapping entries)))
    (keys : WellKeyed (some (.mapping entries)))
    (read : namedEntries (.mapping entries) = some named)
    (key : SettingKey) :
    fieldOr named key.entry (key.content default) key.decodeEntry =
      chosen key (rawOf key (some (.mapping entries))) := by
  obtain ⟨_, plain⟩ := forall_named_iff.mp keys.1
  rw [fieldOr_eq_elim tidy.1 read (plain key.entry (entry_mem_entryNames key))]
  by_cases logger : key = .loggerLevel
  · subst logger
    have inside : ∀ entry ∈ entriesOf (lookup (.string "logger") entries),
        Named ["level"] entry.1 :=
      keys.2
    have distinct : Distinct (entriesOf (lookup (.string "logger") entries)) := tidy.2
    have shape : ∀ value, lookup (.string "logger") entries = some value →
        ∃ inner, value = .mapping inner := isLayer.2
    rw [rawOf_loggerLevel_eq_lookup, loggerOf, field?_eq_lookup]
    change (lookup (.string "logger") entries).elim _ _ =
      chosen .loggerLevel (lookup (.string "level") (entriesOf (lookup (.string "logger") entries)))
    cases found : lookup (.string "logger") entries with
    | none => rfl
    | some value =>
        obtain ⟨inner, rfl⟩ := shape value found
        rw [found] at inside distinct
        refine (levelOfValue_eq_elim distinct inside).trans ?_
        change (lookup (.string "level") inner).elim _ _ =
          chosen .loggerLevel (lookup (.string "level") inner)
        cases lookup (.string "level") inner <;> rfl
  · rw [rawOf_eq_lookup logger, SettingKey.decodeEntry_eq_decode logger]
    change (lookup (.string key.entry) entries).elim _ _ =
      chosen key (lookup (.string key.entry) entries)
    cases lookup (.string key.entry) entries <;> rfl

/-- What counts in a document as the only layer is read from it by what each setting is. -/
theorem content_of_ofDocument {value : Value} (isLayer : IsLayer (some value))
    (tidy : Tidy (some value)) (keys : WellKeyed (some value))
    (means : document.Means document.root value) (read : ofDocument document = some settings)
    {key : SettingKey} {content : key.Content}
    (counts : chosen key (rawOf key (some value)) = some content) :
    key.content settings = content := by
  obtain ⟨entries, rfl⟩ := isLayer.1 value rfl
  obtain ⟨ns, nodeNames, nodeFields⟩ := ofDocument_eq_some_iff.mp read
  obtain ⟨⟨vs, valueNames⟩, _⟩ := forall_named_iff.mp keys.1
  rw [← fieldOr_eq_chosen isLayer tidy keys valueNames key] at counts
  exact (fieldOr_coincide (entry_coincide document key)
    (paired_of_named means valueNames nodeNames) counts (nodeFields key)).symm

end Alone

section Root

variable {environment : Environment} {tree : FileTree} {root? : Option Value} {settings : Settings}

theorem rootSettings_eq (environment : Environment) (tree : FileTree) :
    SettingsCommand.rootSettings environment tree =
      if tree.exists? (rootFile environment) then loadFile tree (rootFile environment)
      else .ok default := rfl

/-- What a command starts from says of each setting what the file for all contexts says
of it as a layer, where that decodes. -/
theorem content_of_rootSettings
    (started : SettingsCommand.rootSettings environment tree = .ok settings)
    (read : loadLayer tree (rootFile environment) = .ok root?) (isRoot : IsLayer root?)
    (keys : WellKeyed root?) {key : SettingKey} {content : key.Content}
    (counts : chosen key (rawOf key root?) = some content) : key.content settings = content := by
  have tidy := tidy_of_loadLayer read
  rw [loadLayer_eq] at read
  rw [rootSettings_eq, FileTree.exists?] at started
  rcases found : tree.find (rootFile environment) with fault | _ | _ | text <;>
    rw [found] at read started
  · cases read
    cases started
    exact Option.some.inj counts
  · cases read
  · cases read
  · have contents : tree.read (rootFile environment) = .ok text := by
      rw [FileTree.read, found]
      rfl
    have parsed := (loadFile_eq_ok_iff contents).mp started
    obtain ⟨document, single, decoded⟩ := Option.bind_eq_some_iff.mp parsed
    simp only [layerOfText, Yaml.parse, single, Option.bind_some] at read
    split at read
    · rename_i converted
      cases read
      have same : default = settings :=
        settings_coincide (Document.means_root converted) rfl decoded
      rw [← same]
      exact Option.some.inj counts
    · rename_i value _ converted
      cases read
      exact content_of_ofDocument isRoot tidy keys (Document.means_root converted) decoded counts
    · cases read

end Root

section Law

variable {environment : Environment} {root? upper? : Option Value} {key : SettingKey}
  {filed started written settings : Settings} {content : key.Content}

/-- A setting for which a context or a variable has a value of its own. -/
def Supplied (environment : Environment) (upper? : Option Value) (key : SettingKey) : Prop :=
  (rawOf key upper?).isSome ∨ (replacement? environment key).isSome

/-- What counts when the file for all contexts is replaced by settings that differ from
it in one setting. -/
theorem chosen_rewritten
    (filedRead : ∀ key, chosen key (selected root? upper? key) = some (key.content filed))
    (agree : ∀ (key : SettingKey) content, chosen key (rawOf key root?) = some content →
      key.content started = content) (other : SettingKey) :
    chosen other (selected (some (key.replace content started).toValue) upper? other) =
      some (other.content
        (if (rawOf key upper?).isSome then filed else key.replace content filed)) := by
  have counts := filedRead other
  rw [selected] at counts ⊢
  by_cases same : other = key
  · subst same
    cases upper : rawOf other upper? with
    | some value => rwa [upper] at counts
    | none =>
        rw [Option.none_or, chosen_toValue, content_replace_self, Option.isSome_none,
          if_neg Bool.false_ne_true, content_replace_self]
  · have kept : other.content (if (rawOf key upper?).isSome then filed
        else key.replace content filed) = other.content filed := by
      split
      · rfl
      · exact content_replace_of_ne same content filed
    rw [kept]
    cases upper : rawOf other upper? with
    | some value => rwa [upper] at counts
    | none =>
        rw [upper, Option.none_or] at counts
        rw [Option.none_or, chosen_toValue, content_replace_of_ne same, agree other _ counts]

theorem Overrides.replace_filed (overrides : Overrides environment filed settings)
    (replaced : (replacement? environment key).isSome) :
    Overrides environment (key.replace content filed) settings := by
  intro other
  by_cases same : other = key
  · subst same
    obtain ⟨text, set⟩ := Option.isSome_iff_exists.mp replaced
    have now := overrides other
    rw [set] at now ⊢
    exact now
  · rw [content_replace_of_ne same]
    exact overrides other

theorem Overrides.replace (overrides : Overrides environment filed settings)
    (kept : replacement? environment key = none) :
    Overrides environment (key.replace content filed) (key.replace content settings) := by
  intro other
  by_cases same : other = key
  · subst same
    rw [kept]
    exact (content_replace_self ..).trans (content_replace_self ..).symm
  · rw [content_replace_of_ne same, content_replace_of_ne same]
    exact overrides other

/-- What may stand in settings that are accepted may stand in others. -/
theorem check_replace (accepted : settings.check = .ok ())
    (possible : (key.replace content started).check = .ok ()) :
    (key.replace content settings).check = .ok () := by
  rw [check_eq_ok_iff] at accepted possible ⊢
  cases key with
  | wellKnownKinds => exact ⟨possible.1, accepted.2⟩
  | discoveryRefreshSeconds => exact ⟨accepted.1, possible.2⟩
  | _ => exact accepted

variable {tree other : FileTree} {context? : Option String}

/-- What is loaded when the file for all contexts has been rewritten with one setting
changed: the same as before if the setting is supplied elsewhere, else what was
loaded before with this setting changed. -/
theorem load_rewritten (rootRead : loadLayer tree (rootFile environment) = .ok root?)
    (contextRead : contextLayer environment tree context? = .ok upper?)
    (isRoot : IsLayer root?) (isContext : IsLayer upper?)
    (base : SettingsCommand.rootSettings environment tree = .ok started)
    (rewritten : loadLayer other (rootFile environment) =
      .ok (some (key.replace content started).toValue))
    (kept : contextLayer environment other context? = .ok upper?)
    (accepted : (key.replace content started).check = .ok ())
    (loaded : load environment tree context? = .ok settings) :
    (Supplied environment upper? key → load environment other context? = .ok settings) ∧
      (¬Supplied environment upper? key →
        load environment other context? = .ok (key.replace content settings)) := by
  have passed := check_of_load loaded
  obtain ⟨rootKeys, contextKeys, filed, filedRead, overrides, _⟩ :=
    (load_eq_ok_iff rootRead contextRead isRoot isContext).mp loaded
  have counts := fun other => @chosen_rewritten root? upper? key filed started content filedRead
    (fun _ _ counts => content_of_rootSettings base rootRead isRoot rootKeys counts) other
  have reload : ∀ final, Overrides environment
      (if (rawOf key upper?).isSome then filed else key.replace content filed) final →
      final.check = .ok () → load environment other context? = .ok final := by
    intro final replaced finalPassed
    rw [load_eq_ok_iff rewritten kept (isLayer_toValue _) isContext]
    exact ⟨wellKeyed_toValue _, contextKeys, _, counts, replaced, check_eq_ok_iff.mp finalPassed⟩
  constructor
  · intro supplied
    refine reload settings ?_ passed
    split
    · exact overrides
    · rename_i absent
      exact overrides.replace_filed (supplied.resolve_left absent)
  · intro unsupplied
    obtain ⟨absent, unset⟩ := not_or.mp unsupplied
    refine reload _ ?_ (check_replace passed accepted)
    rw [if_neg absent]
    exact overrides.replace (Option.not_isSome_iff_eq_none.mp unset)

end Law

section Command

variable {environment : Environment} {tree other : FileTree} {context? : Option String}
  {name text output : String} {written : Settings}

/-- What setting a setting is going to write, if it gets that far. -/
def Drafts (environment : Environment) (tree : FileTree) (name text : String) (written : Settings) :
    Prop :=
  ∃ started, SettingsCommand.rootSettings environment tree = .ok started ∧
    started.set name text = .ok written ∧ written.check = .ok ()

/-- Settings whose text both readers take for what was written. -/
def ReadsBack (settings : Settings) : Prop :=
  Yaml.parse settings.render = some settings.toValue ∧ parse settings.render = some settings

theorem setRoot_eq_ok_iff :
    SettingsCommand.setRoot environment tree name text = .ok other ↔
      ∃ written, Drafts environment tree name text written ∧
        save tree written (rootFile environment) = .ok other := by
  rw [SettingsCommand.setRoot]
  simp only [Drafts]
  cases SettingsCommand.rootSettings environment tree with
  | error fault => simp [Except.mapError, bind, Except.bind]
  | ok started =>
      simp only [Except.ok.injEq, exists_eq_left']
      dsimp only [bind, Except.bind, Except.mapError]
      cases started.set name text with
      | error fault => simp
      | ok changed =>
          simp only [Except.ok.injEq, and_assoc, exists_eq_left']
          cases changed.check with
          | error fault => simp
          | ok passed =>
              simp only [true_and]
              cases save tree changed (rootFile environment) <;> simp

theorem runSettings_set_of_ok
    (done : SettingsCommand.setRoot environment tree name text = .ok other) :
    Program.runSettings environment tree context? (.set name text) =
      (.success ("Configuration saved to " ++ rootFile environment ++ "\n"), other) := by
  rw [Program.runSettings, SettingsCommand.run, done]
  rfl

theorem runSettings_set_of_error {chain : Chain}
    (failed : SettingsCommand.setRoot environment tree name text = .error chain) :
    Program.runSettings environment tree context? (.set name text) = (.failure chain, tree) := by
  rw [Program.runSettings, SettingsCommand.run, failed]
  rfl

theorem runSettings_set_eq_success_iff :
    (∃ output, Program.runSettings environment tree context? (.set name text) =
      (.success output, other)) ↔
      ∃ written, Drafts environment tree name text written ∧
        save tree written (rootFile environment) = .ok other := by
  rw [← setRoot_eq_ok_iff]
  cases answer : SettingsCommand.setRoot environment tree name text with
  | error chain => simp [runSettings_set_of_error answer, Outcome.success, Outcome.failure]
  | ok changed => simp [runSettings_set_of_ok answer, Outcome.success]

/-- Where nothing is drafted nothing is written. -/
theorem runSettings_set_of_undrafted
    (refused : ∀ written, ¬Drafts environment tree name text written) :
    ∃ chain, Program.runSettings environment tree context? (.set name text) =
      (.failure chain, tree) := by
  cases answer : SettingsCommand.setRoot environment tree name text with
  | error chain => exact ⟨chain, runSettings_set_of_error answer⟩
  | ok changed =>
      obtain ⟨written, drafted, _⟩ := setRoot_eq_ok_iff.mp answer
      exact absurd drafted (refused written)

theorem loadLayer_of_save (readsBack : ReadsBack written)
    (saved : save tree written (rootFile environment) = .ok other) :
    loadLayer other (rootFile environment) = .ok (some written.toValue) := by
  rw [loadLayer_eq, find_of_read (read_of_save saved)]
  simp only [layerOfText, readsBack.1]
  rfl

/-- The layer of a context is the one before wherever the same is found. -/
theorem loadLayer_congr {path : String}
    (same : ∀ item, other.find path = .ok item ↔ tree.find path = .ok item) :
    loadLayer other path = loadLayer tree path := by
  rw [loadLayer_eq, loadLayer_eq]
  cases before : tree.find path with
  | ok item => rw [(same item).mpr before]
  | error fault =>
      cases after : other.find path with
      | error fault => rfl
      | ok item =>
          rw [(same item).mp after] at before
          cases before

theorem contextLayer_of_save (rooted : tree.Rooted)
    (apart : ∀ context, context? = some context → Apart environment tree context)
    (saved : save tree written (rootFile environment) = .ok other) :
    contextLayer environment other context? = contextLayer environment tree context? := by
  cases context? with
  | none => rfl
  | some context =>
      exact loadLayer_congr (find_contextFile_of_save rooted (apart context rfl) saved)

end Command

/-- The file for all contexts can be written without touching the one for a context. -/
structure Separate (environment : Environment) (tree : FileTree) (context? : Option String) :
    Prop where
  rooted : tree.Rooted
  apart : ∀ context, context? = some context → Apart environment tree context

/-- What setting a setting does.

If nothing comes of it, because the file for all contexts cannot be read, the name
or the text is refused or the settings are not accepted, no file is changed.
It succeeds exactly if what comes of it can be saved.

If it succeeds, then what is found as the file for a context is untouched, and the
file for all contexts, read by itself, holds accepted settings.  Where settings
were loaded before, the same settings are loaded afterwards if the file for the
context or a variable supplies the one that was set, and otherwise they are loaded
with that one replaced by what the text stands for. -/
theorem set_frame {environment : Environment} {tree : FileTree} {context? : Option String}
    {name text : String} :
    ((∀ written, ¬Drafts environment tree name text written) →
      ∃ chain, Program.runSettings environment tree context? (.set name text) =
        (.failure chain, tree)) ∧
    (∀ other, (∃ output, Program.runSettings environment tree context? (.set name text) =
        (.success output, other)) ↔
      ∃ written, Drafts environment tree name text written ∧
        save tree written (rootFile environment) = .ok other) ∧
    ∀ output other, Program.runSettings environment tree context? (.set name text) =
        (.success output, other) →
      ∃ written, Drafts environment tree name text written ∧
        (Separate environment tree context? → ∀ context, context? = some context → ∀ item,
          other.find (contextFile environment context) = .ok item ↔
            tree.find (contextFile environment context) = .ok item) ∧
        (ReadsBack written →
          loadFile other (rootFile environment) = .ok written ∧ written.check = .ok ()) ∧
        (Separate environment tree context? → ReadsBack written →
          ∀ root? upper? settings, loadLayer tree (rootFile environment) = .ok root? →
            contextLayer environment tree context? = .ok upper? → IsLayer root? → IsLayer upper? →
            load environment tree context? = .ok settings →
            ∃ key, SettingKey.ofName? name = some key ∧
              (Supplied environment upper? key → load environment other context? = .ok settings) ∧
              (¬Supplied environment upper? key → ∃ content, key.Spells text content ∧
                settings.set name text = .ok (key.replace content settings) ∧
                  load environment other context? = .ok (key.replace content settings))) := by
  refine ⟨runSettings_set_of_undrafted, fun other => runSettings_set_eq_success_iff,
    fun output other done => ?_⟩
  obtain ⟨written, drafted, saved⟩ := runSettings_set_eq_success_iff.mp ⟨output, done⟩
  refine ⟨written, drafted, ?_, ?_, ?_⟩
  · intro separate context same
    exact find_contextFile_of_save separate.rooted (separate.apart context same) saved
  · intro readsBack
    obtain ⟨_, _, _, accepted⟩ := drafted
    exact ⟨(loadFile_eq_ok_iff (read_of_save saved)).mpr readsBack.2, accepted⟩
  · intro separate readsBack root? upper? settings rootRead contextRead isRoot isContext loaded
    obtain ⟨started, base, changed, accepted⟩ := drafted
    obtain ⟨key, content, named, spelled, rfl⟩ := set_eq_ok_iff.mp changed
    have kept := (contextLayer_of_save separate.rooted separate.apart saved).trans contextRead
    obtain ⟨same, differing⟩ := load_rewritten rootRead contextRead isRoot isContext base
      (loadLayer_of_save readsBack saved) kept accepted loaded
    refine ⟨key, named, same, fun unsupplied => ⟨content, spelled, ?_, differing unsupplied⟩⟩
    exact set_eq_ok_iff.mpr ⟨key, content, named, spelled, rfl⟩

section Runs

/-- The file for all contexts and the one for a context have settings of their own. -/
def plainTree : FileTree :=
  treeOf "wellKnownKinds: []\ndiscoveryRefreshSeconds: 7\n" "logger: {level: debug}\n"

theorem separate_plainTree : Separate nearby plainTree (some "dev") := by
  refine ⟨FileTree.rooted_of_forall (by decide), ?_⟩
  rintro _ ⟨⟩
  refine ⟨fun place root context => ?_, .inl ⟨["work", "cfg"], by decide, by decide⟩⟩
  have rootPlace : plainTree.walk (plainTree.origin (rootFile nearby))
      (Path.names (rootFile nearby)) = .ok ["work", "cfg", "config.yaml"] := by
    decide
  have contextPlace : plainTree.walk (plainTree.origin (contextFile nearby "dev"))
      (Path.names (contextFile nearby "dev")) = .ok ["work", "cfg", "contexts", "dev.yaml"] := by
    decide
  have same := (contextPlace.symm.trans context).trans (root.symm.trans rootPlace)
  exact absurd same (by decide)

theorem set_frame_plain :
    load nearby (Program.runSettings nearby plainTree (some "dev")
        (.set "cacheSyncTimeoutSeconds" "9")).2 (some "dev") =
      .ok ⟨"", [], 7, 9, "debug"⟩ := by
  have success : Program.runSettings nearby plainTree (some "dev")
        (.set "cacheSyncTimeoutSeconds" "9") =
      (.success "Configuration saved to cfg/config.yaml\n", (Program.runSettings nearby plainTree
        (some "dev") (.set "cacheSyncTimeoutSeconds" "9")).2) := by
    refine Prod.ext ?_ rfl
    decide +kernel
  obtain ⟨written, ⟨started, base, changed, _⟩, _, _, frame⟩ := set_frame.2.2 _ _ success
  have start : SettingsCommand.rootSettings nearby plainTree = .ok ⟨"", [], 7, 60, "info"⟩ := by
    decide +kernel
  cases start.symm.trans base
  have write : Settings.set ⟨"", [], 7, 60, "info"⟩ "cacheSyncTimeoutSeconds" "9" =
      .ok ⟨"", [], 7, 9, "info"⟩ := by
    decide +kernel
  cases write.symm.trans changed
  have readsBack : ReadsBack ⟨"", [], 7, 9, "info"⟩ := by
    unfold ReadsBack
    decide +kernel
  have rootRead : loadLayer plainTree (rootFile nearby) = .ok (some (.mapping
      [(.string "wellKnownKinds", .sequence []),
        (.string "discoveryRefreshSeconds", .integer 7)])) := by
    decide +kernel
  have contextRead : contextLayer nearby plainTree (some "dev") = .ok (some (.mapping
      [(.string "logger", .mapping [(.string "level", .string "debug")])])) := by
    decide +kernel
  have loaded : load nearby plainTree (some "dev") = .ok ⟨"", [], 7, 60, "debug"⟩ := by
    decide +kernel
  obtain ⟨key, named, _, differing⟩ := frame separate_plainTree readsBack _ _ _ rootRead contextRead
    ⟨by rintro _ ⟨⟩; exact ⟨_, rfl⟩, nofun⟩
    ⟨by rintro _ ⟨⟩; exact ⟨_, rfl⟩, by rintro _ ⟨⟩; exact ⟨_, rfl⟩⟩ loaded
  have keyed : key = .cacheSyncTimeoutSeconds := by
    have known : SettingKey.ofName? "cacheSyncTimeoutSeconds" = some .cacheSyncTimeoutSeconds := by
      decide
    exact Option.some.inj (named.symm.trans known)
  subst keyed
  have unsupplied : ¬Supplied nearby (some (.mapping
      [(.string "logger", .mapping [(.string "level", .string "debug")])]))
      .cacheSyncTimeoutSeconds := by
    unfold Supplied
    decide
  obtain ⟨content, _, set, reloaded⟩ := differing unsupplied
  have expected : Settings.set ⟨"", [], 7, 60, "debug"⟩ "cacheSyncTimeoutSeconds" "9" =
      .ok ⟨"", [], 7, 9, "debug"⟩ := by
    decide +kernel
  rw [reloaded, ← set, expected]

/-- The file for all contexts where that for a context is the same. -/
def sharedTree : FileTree :=
  treeOf "watchNamespace: a\nwellKnownKinds: []\n" ""

/-- A context can lead to the file for all contexts, the directory that is made for
that file can bring the one for a context to light, and it can take its place. -/
theorem set_frame_entangled :
    (load nearby sharedTree (some "../config") = .ok { default with
        watchNamespace := "a", wellKnownKinds := [] } ∧
      contextLayer nearby sharedTree (some "../config") = .ok (some (.mapping
        [(.string "watchNamespace", .string "a"), (.string "wellKnownKinds", .sequence [])])) ∧
      (Program.runSettings nearby sharedTree (some "../config") (.set "watchNamespace" "b")).1 =
        .success "Configuration saved to cfg/config.yaml\n" ∧
      load nearby (Program.runSettings nearby sharedTree (some "../config")
          (.set "watchNamespace" "b")).2 (some "../config") =
        .ok { default with watchNamespace := "b", wellKnownKinds := [] }) ∧
    (load (keptIn "x/../cfg") (treeOf "" "watchNamespace: team\n") (some "dev") = .ok default ∧
      (Program.runSettings (keptIn "x/../cfg") (treeOf "" "watchNamespace: team\n") (some "dev")
          (.set "wellKnownKinds" "")).1 =
        .success "Configuration saved to x/../cfg/config.yaml\n" ∧
      load (keptIn "x/../cfg") (Program.runSettings (keptIn "x/../cfg")
          (treeOf "" "watchNamespace: team\n") (some "dev") (.set "wellKnownKinds" "")).2
          (some "dev") =
        .ok { default with watchNamespace := "team", wellKnownKinds := [] }) ∧
    load (keptIn "/work/d.yaml") .empty (some "/work/d") = .ok default ∧
      (Program.runSettings (keptIn "/work/d.yaml") .empty (some "/work/d")
          (.set "wellKnownKinds" "")).1 =
        .success "Configuration saved to /work/d.yaml/config.yaml\n" ∧
      load (keptIn "/work/d.yaml") (Program.runSettings (keptIn "/work/d.yaml") .empty
          (some "/work/d") (.set "wellKnownKinds" "")).2 (some "/work/d") =
        .error (.unreadableFile "/work/d.yaml" .isDirectory) := by
  decide +kernel

end Runs

end Settings

end Lineage
