import Lineage.Proofs.Decimal
import Lineage.Proofs.Layers
import Mathlib.Data.List.Nodup

/-!
# Which layer counts

Settings are loaded from two files and the environment.  For each setting the
file for the context counts if it has a value for it, else the file for all
contexts, else what holds where nothing is said.  Only when this has decoded
does a variable replace it, and only the final settings are accepted or not.
-/

namespace Lineage

namespace SettingKey

def variableOf : SettingKey → Option String
  | watchNamespace => some "OWNERCHAIN_WATCH_NAMESPACE"
  | discoveryRefreshSeconds => some "OWNERCHAIN_DISCOVERY_REFRESH_SECONDS"
  | loggerLevel => some "OWNERCHAIN_LOG_LEVEL"
  | wellKnownKinds => none
  | cacheSyncTimeoutSeconds => none

/-- A text that stands for the content of a setting. -/
def Spells (key : SettingKey) (text : String) (content : key.Content) : Prop :=
  match key with
  | watchNamespace => content = text
  | wellKnownKinds => WorkloadKind.readList text = .ok content
  | discoveryRefreshSeconds => Natural.Decimal text content.toNat
  | cacheSyncTimeoutSeconds => Natural.Decimal text content.toNat
  | loggerLevel => content = text

end SettingKey

namespace Settings

open Yaml (Value)
open Yaml.Value (Distinct Named entriesOf)

/-- Settings that differ from others in what some texts replace. -/
def Replaced (texts : SettingKey → Option String) (filed settings : Settings) : Prop :=
  ∀ key : SettingKey,
    match texts key with
    | some text => key.Spells text (key.content settings)
    | none => key.content settings = key.content filed

/-- The text that replaces a setting. -/
def replacement? (environment : Environment) (key : SettingKey) : Option String :=
  key.variableOf.bind environment.text?

/-- Settings that differ from others in what the variables replace. -/
def Overrides (environment : Environment) : Settings → Settings → Prop :=
  Replaced (replacement? environment)

/-- The value of the variable that replaces a setting, if it is set. -/
def valueOf? (environment : Environment) (key : SettingKey) : Option Variable :=
  key.variableOf.bind environment.value?

/-- The variables that replace settings are texts where they are set. -/
def Legible (environment : Environment) : Prop :=
  ∀ key value, valueOf? environment key = some value → value.isText = true

/-- What the variable for a setting says, if it is set. -/
def said? (environment : Environment) (key : SettingKey) : Option String :=
  (valueOf? environment key).map Variable.shown

theorem Legible.said?_eq {environment : Environment} (legible : Legible environment) :
    said? environment = replacement? environment := by
  funext key
  cases named : key.variableOf with
  | none => rw [said?, valueOf?, replacement?, named, Option.bind_none, Option.bind_none,
      Option.map_none]
  | some name =>
      have value : valueOf? environment key = environment.value? name := by
        rw [valueOf?, named, Option.bind_some]
      rw [said?, replacement?, named, Option.bind_some, Environment.text?, value]
      cases set : environment.value? name with
      | none => rfl
      | some other => rw [Option.filter_some_pos (legible key other (value.trans set))]

/-- The layer of the file for a context. -/
def contextLayer (environment : Environment) (tree : FileTree) (context? : Option String) :
    Except SettingsFault (Option Value) :=
  match context? with
  | some context => loadLayer tree (contextFile environment context)
  | none => .ok none

section Check

variable {settings : Settings}

theorem firstRepeated_eq_none_iff {seen kinds : List WorkloadKind} :
    firstRepeated seen kinds = none ↔ kinds.Nodup ∧ ∀ kind ∈ kinds, kind ∉ seen := by
  induction kinds generalizing seen with
  | nil => simp [firstRepeated]
  | cons kind rest ih =>
      rw [firstRepeated, List.nodup_cons, List.forall_mem_cons]
      by_cases known : kind ∈ seen
      · simp [known]
      · rw [if_neg known, ih]
        constructor
        · rintro ⟨distinct, fresh⟩
          have absent : kind ∉ rest := fun member => fresh kind member List.mem_cons_self
          refine ⟨⟨absent, distinct⟩, known, fun other member => ?_⟩
          exact fun earlier => fresh other member (List.mem_cons_of_mem _ earlier)
        · rintro ⟨⟨absent, distinct⟩, _, fresh⟩
          refine ⟨distinct, fun other member earlier => ?_⟩
          rcases List.mem_cons.mp earlier with rfl | before
          · exact absent member
          · exact fresh other member before

/-- Settings are accepted that list no kind twice and give discovery a period. -/
theorem check_eq_ok_iff :
    settings.check = .ok () ↔
      settings.wellKnownKinds.Nodup ∧ settings.discoveryRefreshSeconds ≠ 0 := by
  have distinct : settings.wellKnownKinds.Nodup ↔
      firstRepeated [] settings.wellKnownKinds = none := by
    simp [firstRepeated_eq_none_iff]
  rw [check, distinct]
  cases firstRepeated [] settings.wellKnownKinds with
  | some kind => simp
  | none =>
      by_cases zero : settings.discoveryRefreshSeconds = 0 <;> simp [zero]

end Check

section Variables

variable {environment : Environment} {filed settings : Settings}

/-- Settings in which the variables that are texts as they stand replace settings. -/
def withTexts (environment : Environment) (settings : Settings) : Settings :=
  { settings with
    watchNamespace :=
      (environment.text? "OWNERCHAIN_WATCH_NAMESPACE").getD settings.watchNamespace
    loggerLevel := (environment.text? "OWNERCHAIN_LOG_LEVEL").getD settings.loggerLevel }

theorem override_eq (environment : Environment) (settings : Settings) :
    override environment settings =
      match environment.text? "OWNERCHAIN_DISCOVERY_REFRESH_SECONDS" with
      | some text =>
        match Natural.readWord text with
        | .ok seconds =>
          .ok { withTexts environment settings with discoveryRefreshSeconds := seconds }
        | .error cause => .error (.badRefreshVariable text cause)
      | none => .ok (withTexts environment settings) := by
  rw [override, withTexts]
  cases environment.text? "OWNERCHAIN_WATCH_NAMESPACE" <;>
    cases environment.text? "OWNERCHAIN_LOG_LEVEL" <;> rfl

/-- A text replaces what is a text itself, and the period of discovery is replaced by
the number that is spelled. -/
theorem overrides_iff :
    Overrides environment filed settings ↔
      settings.watchNamespace = (withTexts environment filed).watchNamespace ∧
      settings.wellKnownKinds = filed.wellKnownKinds ∧
      (match environment.text? "OWNERCHAIN_DISCOVERY_REFRESH_SECONDS" with
        | some text => Natural.Decimal text settings.discoveryRefreshSeconds.toNat
        | none => settings.discoveryRefreshSeconds = filed.discoveryRefreshSeconds) ∧
      settings.cacheSyncTimeoutSeconds = filed.cacheSyncTimeoutSeconds ∧
      settings.loggerLevel = (withTexts environment filed).loggerLevel := by
  have replaced : ∀ (text? : Option String) (earlier later : String),
      (match text? with | some text => later = text | none => later = earlier) ↔
        later = text?.getD earlier := by
    intro text? earlier later
    cases text? <;> rfl
  simp only [withTexts, ← replaced]
  constructor
  · intro overrides
    exact ⟨overrides .watchNamespace, overrides .wellKnownKinds,
      overrides .discoveryRefreshSeconds, overrides .cacheSyncTimeoutSeconds,
      overrides .loggerLevel⟩
  · rintro ⟨ns, kinds, refresh, sync, level⟩ key
    cases key with
    | watchNamespace => exact ns
    | wellKnownKinds => exact kinds
    | discoveryRefreshSeconds => exact refresh
    | cacheSyncTimeoutSeconds => exact sync
    | loggerLevel => exact level

theorem override_eq_ok_iff :
    override environment filed = .ok settings ↔ Overrides environment filed settings := by
  rw [override_eq, overrides_iff]
  obtain ⟨ns, kinds, refresh, sync, level⟩ := settings
  cases environment.text? "OWNERCHAIN_DISCOVERY_REFRESH_SECONDS" with
  | none =>
      simp only [Except.ok.injEq, withTexts, Settings.mk.injEq, eq_comm]
  | some text =>
      simp only [← Natural.readWord_eq_ok_iff]
      cases Natural.readWord text with
      | error cause => simp
      | ok seconds =>
          simp only [Except.ok.injEq, withTexts, Settings.mk.injEq, eq_comm]

end Variables

section Files

variable {environment : Environment} {tree : FileTree} {context? : Option String} {path : String}
  {layer? : Option Value} {settings : Settings}

def layerOfText (path text : String) : Except SettingsFault (Option Value) :=
  match Yaml.parse text with
  | some .null => .ok none
  | some value => .ok (some value)
  | none => .error (.malformedFile path)

theorem loadLayer_eq (tree : FileTree) (path : String) :
    loadLayer tree path =
      match tree.find path with
      | .error _ => .ok none
      | .ok .directory => .error (.unreadableFile path .isDirectory)
      | .ok (.file none) => .error (.unreadableFile path .notText)
      | .ok (.file (some text)) => layerOfText path text := by
  rw [loadLayer, readFile, FileTree.exists?, FileTree.read]
  rcases tree.find path with fault | _ | _ | text
  · rfl
  · rfl
  · rfl
  · rfl

theorem exists_parse_of_loadLayer {value : Value} (read : loadLayer tree path = .ok (some value)) :
    ∃ text, Yaml.parse text = some value := by
  rw [loadLayer_eq] at read
  rcases found : tree.find path with fault | _ | _ | text <;> rw [found] at read
  · cases read
  · cases read
  · cases read
  · refine ⟨text, ?_⟩
    simp only [layerOfText] at read
    split at read
    · cases read
    · rename_i parsed
      cases read
      exact parsed
    · cases read

theorem distinct_entriesOf {document : Yaml.Document} {node : Yaml.Node} {value : Value}
    (means : document.Means node value) : Distinct (entriesOf (some value)) := by
  cases value with
  | mapping entries => exact means.distinct.1
  | _ => exact .nil

/-- No key is repeated in what a text means. -/
theorem tidy_of_parse {text : String} {value : Value} (parsed : Yaml.parse text = some value) :
    Tidy (some value) := by
  obtain ⟨document, _, converted⟩ := Option.bind_eq_some_iff.mp parsed
  have means := Yaml.Document.means_root converted
  refine ⟨distinct_entriesOf means, ?_⟩
  rw [loggerOf, Option.bind_some]
  cases value with
  | mapping entries =>
      rw [Value.field?]
      cases found : Value.lookup (.string "logger") entries with
      | none => exact .nil
      | some logger =>
          obtain ⟨entry, member, rfl⟩ := Value.exists_mem_of_lookup found
          obtain ⟨node, inner⟩ := means.distinct.2 entry member
          exact distinct_entriesOf inner
  | _ => exact .nil

theorem tidy_of_loadLayer (read : loadLayer tree path = .ok layer?) : Tidy layer? := by
  cases layer? with
  | none => exact ⟨.nil, .nil⟩
  | some value =>
      obtain ⟨text, parsed⟩ := exists_parse_of_loadLayer read
      exact tidy_of_parse parsed

theorem tidy_of_contextLayer (read : contextLayer environment tree context? = .ok layer?) :
    Tidy layer? := by
  cases context? with
  | none =>
      cases read
      exact ⟨.nil, .nil⟩
  | some context => exact tidy_of_loadLayer read

theorem loadLayers_eq {root? upper? : Option Value}
    (rootRead : loadLayer tree (rootFile environment) = .ok root?)
    (contextRead : contextLayer environment tree context? = .ok upper?) :
    loadLayers tree (rootFile environment) (context?.map (contextFile environment)) =
      ofLayers [root?, upper?] := by
  rw [loadLayers, rootRead]
  cases context? with
  | none =>
      cases contextRead
      rfl
  | some context =>
      change loadLayer tree (contextFile environment context) = _ at contextRead
      simp only [Option.map_some, contextRead]
      rfl

/-- Settings are loaded in three steps. -/
theorem load_eq_ok_iff_exists :
    load environment tree context? = .ok settings ↔
      ∃ filed, loadLayers tree (rootFile environment) (context?.map (contextFile environment)) =
          .ok filed ∧
        Overrides environment filed settings ∧ settings.check = .ok () := by
  rw [load]
  cases loadLayers tree (rootFile environment) (context?.map (contextFile environment)) with
  | error fault =>
      refine iff_of_false nofun ?_
      rintro ⟨_, ⟨⟩, _⟩
  | ok filed =>
      simp only [Except.ok.injEq, exists_eq_left', ← override_eq_ok_iff]
      change (override environment filed >>= fun settings => settings.check >>= fun _ =>
        pure settings) = .ok settings ↔ _
      cases override environment filed with
      | error fault => exact iff_of_false nofun fun both => nomatch both.1
      | ok final =>
          change (final.check >>= fun _ => pure final) = .ok settings ↔ _
          cases accepted : final.check with
          | error fault =>
              refine iff_of_false nofun ?_
              rintro ⟨⟨⟩, passed⟩
              rw [accepted] at passed
              cases passed
          | ok passed =>
              constructor
              · rintro ⟨⟩
                exact ⟨rfl, accepted⟩
              · rintro ⟨same, _⟩
                exact same

/-- Settings that are loaded are accepted. -/
theorem check_of_load (loaded : load environment tree context? = .ok settings) :
    settings.check = .ok () := by
  obtain ⟨_, _, _, accepted⟩ := load_eq_ok_iff_exists.mp loaded
  exact accepted

/-- What is loaded from files that are layers. -/
theorem load_eq_ok_iff {root? upper? : Option Value}
    (rootRead : loadLayer tree (rootFile environment) = .ok root?)
    (contextRead : contextLayer environment tree context? = .ok upper?)
    (isRoot : IsLayer root?) (isContext : IsLayer upper?) :
    load environment tree context? = .ok settings ↔
      WellKeyed root? ∧ WellKeyed upper? ∧
        ∃ filed, (∀ key, chosen key (selected root? upper? key) = some (key.content filed)) ∧
          Overrides environment filed settings ∧ settings.wellKnownKinds.Nodup ∧
            settings.discoveryRefreshSeconds ≠ 0 := by
  rw [load_eq_ok_iff_exists, loadLayers_eq rootRead contextRead, check_eq_ok_iff]
  simp only [ofLayers_eq_ok_iff isRoot isContext (tidy_of_loadLayer rootRead)
    (tidy_of_contextLayer contextRead), and_assoc, exists_and_left]

end Files

/-- How the layers of settings take precedence, where both files are absent, empty or
mappings in which the logger, where it is present, is a mapping.

Loading succeeds exactly if all keys are texts, without tags where they name
settings, the value that counts for each setting decodes, the variable for the
period of discovery spells a number if it is set, and the final settings are
accepted.  Files in which the same values count are loaded alike.  Where a value
that counts does not decode, no variable helps.  Whatever is loaded is accepted.
Nothing is said about variables that are set to bytes which are no text. -/
theorem load_precedence {environment : Environment} {tree : FileTree} {context? : Option String}
    {root? upper? : Option Value} (legible : Legible environment)
    (rootRead : loadLayer tree (rootFile environment) = .ok root?)
    (contextRead : contextLayer environment tree context? = .ok upper?)
    (isRoot : IsLayer root?) (isContext : IsLayer upper?) :
    (∀ settings, load environment tree context? = .ok settings ↔
      WellKeyed root? ∧ WellKeyed upper? ∧
        ∃ filed, (∀ key, chosen key (selected root? upper? key) = some (key.content filed)) ∧
          Replaced (said? environment) filed settings ∧ settings.wellKnownKinds.Nodup ∧
            settings.discoveryRefreshSeconds ≠ 0) ∧
    (∀ otherTree otherContext? otherRoot? otherUpper?,
      loadLayer otherTree (rootFile environment) = .ok otherRoot? →
      contextLayer environment otherTree otherContext? = .ok otherUpper? →
      IsLayer otherRoot? → IsLayer otherUpper? →
      (WellKeyed root? ∧ WellKeyed upper? ↔ WellKeyed otherRoot? ∧ WellKeyed otherUpper?) →
      (∀ key, selected otherRoot? otherUpper? key = selected root? upper? key) →
      ∀ settings, load environment otherTree otherContext? = .ok settings ↔
        load environment tree context? = .ok settings) ∧
    (∀ key value, selected root? upper? key = some value → key.decode value = none →
      ∀ settings, load environment tree context? ≠ .ok settings) ∧
    (∀ settings, load environment tree context? = .ok settings → settings.check = .ok ()) := by
  have law (settings : Settings) :=
    @load_eq_ok_iff environment tree context? settings _ _ rootRead contextRead isRoot isContext
  rw [legible.said?_eq]
  refine ⟨law, ?_, ?_, fun settings => check_of_load⟩
  · intro otherTree otherContext? otherRoot? otherUpper? otherRead otherContextRead isOther
      isOtherContext keys same settings
    rw [law, load_eq_ok_iff otherRead otherContextRead isOther isOtherContext, ← and_assoc,
      ← and_assoc, keys]
    simp only [same]
  · intro key value counts undecodable settings loaded
    obtain ⟨_, _, filed, decoded, _⟩ := (law settings).mp loaded
    have failing := decoded key
    rw [counts, chosen, undecodable] at failing
    cases failing

section Trees

/-- Settings are kept in some directory. -/
def keptIn (path : String) : Environment :=
  Environment.empty.set "OWNERCHAIN_CONFIG_DIR" (some (.ofText path))

/-- Settings are kept in a directory of the working directory. -/
def nearby : Environment :=
  keptIn "cfg"

/-- The same, and logging is set to nothing. -/
def silenced : Environment :=
  nearby.set "OWNERCHAIN_LOG_LEVEL" (some (.ofText ""))

/-- A tree with a file for all contexts and one for a context. -/
def treeOf (root context : String) : FileTree :=
  { entries :=
      [(["work", "cfg"], .directory), (["work", "cfg", "contexts"], .directory),
        (["work", "cfg", "config.yaml"], .file (some root)),
        (["work", "cfg", "contexts", "dev.yaml"], .file (some context))]
    working := ["work"] }

/-- The file for all contexts has a wrong value, which the one for a context masks,
and an entry of another name. -/
def maskedTree : FileTree :=
  treeOf "watchNamespace: 5\nlogger: {level: debug}\ncolour: red\n" "watchNamespace: team\n"

theorem load_precedence_masked :
    load silenced maskedTree (some "dev") =
      .ok { default with watchNamespace := "team", loggerLevel := "" } := by
  have rootRead : loadLayer maskedTree (rootFile silenced) = .ok (some (.mapping
      [(.string "watchNamespace", .integer 5),
        (.string "logger", .mapping [(.string "level", .string "debug")]),
        (.string "colour", .string "red")])) := by
    decide +kernel
  have contextRead : contextLayer silenced maskedTree (some "dev") =
      .ok (some (.mapping [(.string "watchNamespace", .string "team")])) := by
    decide +kernel
  have texts : ∀ (texts : List String) {names : List String} {entries : List (Value × Value)},
      entries.map Prod.fst = texts.map Value.string → ∀ entry ∈ entries, Named names entry.1 := by
    intro texts names entries same entry member
    have key := List.mem_map_of_mem (f := Prod.fst) member
    rw [same] at key
    obtain ⟨text, _, text_eq⟩ := List.mem_map.mp key
    exact ⟨text, by rw [← text_eq]; rfl, fun _ => text_eq.symm⟩
  have legible : Legible silenced := by
    intro key value set
    cases key <;> cases set
    rfl
  refine ((load_precedence legible rootRead contextRead ?_ ?_).1 _).mpr
    ⟨⟨?_, ?_⟩, ⟨?_, ?_⟩, { default with watchNamespace := "team", loggerLevel := "debug" }, ?_, ?_,
      by decide, by decide⟩
  · exact ⟨by rintro _ ⟨⟩; exact ⟨_, rfl⟩, by rintro _ ⟨⟩; exact ⟨_, rfl⟩⟩
  · exact ⟨by rintro _ ⟨⟩; exact ⟨_, rfl⟩, nofun⟩
  · exact texts ["watchNamespace", "logger", "colour"] rfl
  · exact texts ["level"] rfl
  · exact texts ["watchNamespace"] rfl
  · exact texts [] rfl
  · intro key
    cases key <;> rfl
  · intro key
    cases key <;> rfl

/-- A key that is not a text counts, although no setting has its name. -/
theorem load_numbered_key :
    loadLayer (treeOf "1: 2\n" "") (rootFile nearby) =
      .ok (some (.mapping [(.integer 1, .integer 2)])) ∧
    IsLayer (some (.mapping [(.integer 1, .integer 2)])) ∧
    (∀ key, chosen key (selected (some (.mapping [(.integer 1, .integer 2)])) none key) =
      some (key.content default)) ∧
    Legible nearby ∧ Replaced (said? nearby) default default ∧ default.check = .ok () ∧
    load nearby (treeOf "1: 2\n" "") none = .error .undecodable := by
  refine ⟨by decide +kernel, ⟨?_, nofun⟩, ?_, ?_, ?_, by decide, by decide +kernel⟩
  · rintro _ ⟨⟩
    exact ⟨_, rfl⟩
  · intro key
    cases key <;> rfl
  · intro key value set
    cases key <;> cases set
  · intro key
    cases key <;> rfl

end Trees

end Settings

end Lineage
