import Lineage.Proofs.Rendering
import Lineage.Proofs.Rewrite

/-!
# Settings that are read back

Whatever settings are saved, both ways of reading the file give them back.  The
same holds of the text that lists the settings of a context.
-/

namespace Lineage

namespace Yaml

namespace Value

theorem lookup_eq_none {key : Value} {entries : List (Value × Value)}
    (apart : ∀ entry ∈ entries, same key entry.1 = false) : lookup key entries = none := by
  induction entries with
  | nil => rfl
  | cons first entries ih =>
      obtain ⟨here, later⟩ := List.forall_mem_cons.mp apart
      rw [lookup, here]
      exact ih later

end Value

namespace Document

section Values

variable {document : Document} {depth : Nat}

/-- A node has a value up to some depth, and no alias is followed for it. -/
def Converts (document : Document) (depth : Nat) (node : Node) (value : Value) : Prop :=
  ∀ left, (document.convert depth node).run left = some (value, left)

theorem converts_scalar {style : ScalarStyle} {text : String} {value : Value}
    (spelled : bareValue? style text = some value) :
    Converts document depth (.scalar none style text) value := by
  intro left
  have bare : (untaggedScalar style text).run left = some (value, left) := by
    cases style with
    | plain =>
        have spelled : Scalar.plain text = some value := spelled
        simp [untaggedScalar, spelled]
    | _ =>
        obtain rfl := Option.some.inj spelled
        rfl
  cases depth <;> simpa [convert, resolve, scalar, ownTag?] using bare

theorem converts_sequence {items : List Node} {values : List Value}
    (parts : List.Forall₂ (Converts document depth) items values) :
    Converts document (depth + 1) (.sequence none items) (.sequence values) := by
  intro left
  have run : (items.mapM (document.convert depth)).run left = some (values, left) := by
    induction parts with
    | nil => rfl
    | cons part parts ih => simp [List.mapM_cons, part left, ih]
  simp [convert, resolve, withTag, ownTag?, run]

theorem run_distinctEntries {nodes : List (Node × Node)} {known values : List (Value × Value)}
    (parts : List.Forall₂ (fun node value => Converts document depth node.1 value.1 ∧
      Converts document depth node.2 value.2) nodes values)
    (distinct : Value.Distinct (known ++ values)) (left : Nat) :
    (distinctEntries (document.convert depth) known nodes).run left =
      some (known ++ values, left) := by
  induction parts generalizing known with
  | nil => simp [distinctEntries]
  | cons part parts ih =>
      rename_i node value nodes values
      have fresh : Value.lookup value.1 known = none := by
        refine Value.lookup_eq_none fun earlier member => ?_
        exact (List.pairwise_append.mp distinct).2.2 earlier member value List.mem_cons_self
      have regrouped : known ++ value :: values = known ++ [value] ++ values := by simp
      rw [regrouped] at distinct ⊢
      have later := ih distinct
      simpa [distinctEntries, part.1 left, part.2 left, fresh] using later

theorem converts_mapping {entries : List (Node × Node)} {values : List (Value × Value)}
    (parts : List.Forall₂ (fun node value => Converts document depth node.1 value.1 ∧
      Converts document depth node.2 value.2) entries values)
    (distinct : Value.Distinct values) :
    Converts document (depth + 1) (.mapping none entries) (.mapping values) := by
  intro left
  have apart : Value.Distinct ([] ++ values) := distinct
  have run := run_distinctEntries parts apart left
  simp [convert, resolve, withTag, ownTag?, run]

end Values

end Document

/-- A text that is not taken for anything else means itself. -/
theorem plain_of_readsAsText {text : String} (reads : Spelling.readsAsText text = true) :
    Scalar.plain text = some (.string text) := by
  rw [Spelling.readsAsText] at reads
  split at reads
  · rename_i other spelled
    cases Document.atom_of_plain spelled with
    | string => exact spelled
  · cases reads

theorem bareValue?_styleOf (text : String) :
    Document.bareValue? (Layout.styleOf text) text = some (.string text) := by
  cases style : Layout.styleOf text with
  | plain => exact plain_of_readsAsText (Layout.readsAsText_of_styleOf style)
  | _ => rfl

end Yaml

namespace Settings

open Yaml (Value Document Node)
open Yaml.Document (Converts converts_scalar converts_sequence converts_mapping)

section Numbers

theorem natural?_render {number : Nat} (small : number < Nat.pow 2 64) :
    Yaml.Scalar.natural? (Nat.pow 2 64) (Natural.render number) = some number := by
  obtain ⟨ranges, _, first, rest, begins, leading⟩ := Natural.digits_spec number
  have text : (Natural.render number).toList = first :: rest := by
    rw [Natural.render, String.toList_ofList, begins]
  have range := ranges first (by simp [begins])
  have unsigned : first ≠ '+' ∧ first ≠ '-' := by
    constructor
    · rintro rfl
      exact absurd range.1 (by decide)
    · rintro rfl
      exact absurd range.1 (by decide)
  have unmarked : Yaml.Scalar.marked? (first :: rest) = none := by
    unfold Yaml.Scalar.marked?
    split
    all_goals first | rfl | (rename_i same; cases same; simp at leading)
  have unpadded : Yaml.Scalar.isPadded (first :: rest) = false := by
    by_cases zero : first = '0'
    · obtain rfl := leading zero
      subst zero
      rfl
    · simp [Yaml.Scalar.isPadded, unsigned, zero]
  have positive : 0 < Nat.pow 2 64 := by decide
  have read : Natural.readBase 10 (Nat.pow 2 64) (first :: rest) = .ok number := by
    rw [← text]
    exact (Natural.readBase_eq_ok_iff positive).mpr ⟨Natural.decimal_render number, small⟩
  have digits : Yaml.Scalar.digits? 10 (Nat.pow 2 64) (first :: rest) = some number := by
    simp [Yaml.Scalar.digits?, unsigned, read, Except.toOption]
  simp [Yaml.Scalar.natural?, text, unsigned, unmarked, unpadded, digits]

end Numbers

section Document

variable {settings : Settings} {size : Nat}

theorem converts_word {document : Document} {depth : Nat} {text : String} {value : Value}
    (spelled : Yaml.Scalar.plain text = some value) : Converts document depth (word text) value :=
  converts_scalar spelled

theorem converts_key {document : Document} {depth : Nat} {name : String}
    (named : name ∈ "level" :: entryNames) :
    Converts document depth (word name) (.string name) := by
  have texts : ∀ name ∈ "level" :: entryNames,
      Yaml.Scalar.plain name = some (.string name) := by
    decide +kernel
  exact converts_word (texts name named)

theorem converts_number {document : Document} {depth : Nat} (number : UInt64) :
    Converts document depth (word (Natural.render number.toNat)) (.integer number.toNat) :=
  converts_word (plain_of_natural? (natural?_render number.toNat_lt))

theorem converts_text {document : Document} {depth : Nat} (text : String) :
    Converts document depth (.scalar none (Yaml.Layout.styleOf text) text) (.string text) :=
  converts_scalar (Yaml.bareValue?_styleOf text)

theorem converts_kinds {document : Document} {depth : Nat} (kinds : List WorkloadKind) :
    Converts document (depth + 1) (.sequence none (kinds.map fun kind => word kind.name))
      (.sequence (kinds.map fun kind => .string kind.name)) := by
  refine converts_sequence ?_
  rw [List.forall₂_map_left_iff, List.forall₂_map_right_iff, List.forall₂_same]
  exact fun kind _ => converts_word (plain_name kind)

theorem converts_logger {document : Document} {depth : Nat} (level : String) :
    Converts document (depth + 1)
      (.mapping none [(word "level", .scalar none (Yaml.Layout.styleOf level) level)])
      (.mapping [(.string "level", .string level)]) :=
  converts_mapping (.cons ⟨converts_key (by decide), converts_text level⟩ .nil)
    (List.pairwise_singleton _ _)

theorem distinct_of_names {entries : List (Value × Value)}
    (names : entries.map Prod.fst = entryNames.map Value.string) : Value.Distinct entries := by
  have apart : (entryNames.map Value.string).Pairwise fun first second =>
      Value.same second first = false := by
    decide
  rw [← names] at apart
  exact List.pairwise_map.mp apart

theorem converts_entryNodes (document : Document) (depth : Nat) (settings : Settings) :
    Converts document (depth + 2) (.mapping none (entryNodes settings)) settings.toValue := by
  refine converts_mapping ?_ (distinct_of_names rfl)
  exact .cons ⟨converts_key (by decide), converts_text _⟩
    (.cons ⟨converts_key (by decide), converts_kinds _⟩
    (.cons ⟨converts_key (by decide), converts_number _⟩
    (.cons ⟨converts_key (by decide), converts_number _⟩
    (.cons ⟨converts_key (by decide), converts_logger _⟩ .nil))))

theorem value?_entryNodes (settings : Settings) (size : Nat) :
    Document.value? ⟨.mapping none (entryNodes settings), [], size⟩ = some settings.toValue := by
  have run := converts_entryNodes ⟨.mapping none (entryNodes settings), [], size⟩ 126 settings
    (100 * size)
  exact congrArg (Option.map Prod.fst) run

theorem kindsOfNode_names (document : Document) (kinds : List WorkloadKind) :
    kindsOfNode document (.sequence none (kinds.map fun kind => word kind.name)) = some kinds := by
  change (kinds.map fun kind => word kind.name).mapM (kindOfNode document) = some kinds
  rw [mapM_eq_some_iff_forall₂, List.forall₂_map_left_iff, List.forall₂_same]
  intro kind _
  cases kind <;> rfl

theorem wordOfNode_number (document : Document) (number : UInt64) :
    wordOfNode document (word (Natural.render number.toNat)) = some number := by
  have spelled := natural?_render number.toNat_lt
  simp [wordOfNode, word, settled, spelled]

theorem ofDocument_entryNodes (settings : Settings) (size : Nat) :
    ofDocument ⟨.mapping none (entryNodes settings), [], size⟩ = some settings := by
  refine ofDocument_eq_some_iff.mpr ⟨_, rfl, fun key => ?_⟩
  cases key with
  | watchNamespace => rfl
  | wellKnownKinds => exact kindsOfNode_names _ _
  | discoveryRefreshSeconds => exact wordOfNode_number _ _
  | cacheSyncTimeoutSeconds => exact wordOfNode_number _ _
  | loggerLevel => rfl

end Document

/-- Both readers take the text of settings for what they are. -/
theorem readsBack (settings : Settings) : ReadsBack settings := by
  obtain ⟨size, document⟩ := soleDocument_render settings
  constructor
  · rw [Yaml.parse, document]
    exact value?_entryNodes settings size
  · rw [parse, document]
    exact ofDocument_entryNodes settings size

theorem ofValue_toValue (settings : Settings) : ofValue settings.toValue = some settings := by
  refine ofValue_eq_some_iff.mpr ⟨_, rfl, fun key => ?_⟩
  cases key with
  | watchNamespace => rfl
  | wellKnownKinds => exact kindsOfValue_names _
  | discoveryRefreshSeconds => exact wordOfValue_toNat _
  | cacheSyncTimeoutSeconds => exact wordOfValue_toNat _
  | loggerLevel => rfl

section Files

variable {environment : Environment} {tree other : FileTree} {context? : Option String}
  {path output : String} {settings : Settings}

theorem loadFile_of_save (saved : save tree settings path = .ok other) :
    loadFile other path = .ok settings :=
  (loadFile_eq_ok_iff (read_of_save saved)).mpr (readsBack settings).2

theorem loadLayers_of_save (saved : save tree settings path = .ok other) :
    loadLayers other path none = .ok settings :=
  (loadLayers_none_eq_ok_iff (read_of_save saved)).mpr
    ⟨_, (readsBack settings).1, wellKeyed_toValue settings, ofValue_toValue settings⟩

/-- A file can be written at a path, in a directory that is there or can be made. -/
def Receives (tree : FileTree) (path : String) : Prop :=
  path.isEmpty = false ∧ Path.endsInDirectory path = false ∧
    ∃ made place, tree.makeParent path = .ok made ∧
      made.walk (made.origin path) (Path.names path) = .ok place ∧
      made.at? place ≠ some .directory

theorem exists_save_iff : (∃ other, save tree settings path = .ok other) ↔ Receives tree path := by
  simp only [save_eq_ok_iff, FileTree.write_eq_ok_iff]
  constructor
  · rintro ⟨other, made, parent, filled, ends, place, walked, free, _⟩
    exact ⟨filled, ends, made, place, parent, walked, free⟩
  · rintro ⟨filled, ends, made, place, parent, walked, free⟩
    exact ⟨_, made, parent, filled, ends, place, walked, free, rfl⟩

theorem runSettings_list_eq_success_iff :
    Program.runSettings environment tree context? .list = (.success output, other) ↔
      ∃ settings, load environment tree context? = .ok settings ∧ settings.render = output ∧
        tree = other := by
  rw [Program.runSettings, SettingsCommand.run, SettingsCommand.loaded]
  cases load environment tree context? with
  | error fault => simp [Except.mapError, bind, Except.bind, Outcome.success, Outcome.failure]
  | ok settings =>
      simp [Except.mapError, bind, Except.bind, pure, Except.pure, Outcome.success]

end Files

/-- What becomes of settings that are written out, whatever they are.

They can be saved wherever a file can be written, and both ways of reading the file
then give just these settings.  Listing the settings of a context succeeds exactly if
they can be loaded, changes no file, and prints a text that both ways of reading take
for what was loaded. -/
theorem saved_reads_back :
    (∀ tree settings path,
      (∃ other, save tree settings path = .ok other) ↔ Receives tree path) ∧
    (∀ tree other settings path, save tree settings path = .ok other →
      loadFile other path = .ok settings ∧ loadLayers other path none = .ok settings) ∧
    (∀ environment tree context? settings, load environment tree context? = .ok settings →
      ∃ output, Program.runSettings environment tree context? .list = (.success output, tree)) ∧
    ∀ environment tree context? output other,
      Program.runSettings environment tree context? .list = (.success output, other) →
        other = tree ∧ ∃ settings, load environment tree context? = .ok settings ∧
          parse output = some settings ∧ (Yaml.parse output).bind ofValue = some settings := by
  refine ⟨fun tree settings path => exists_save_iff, fun tree other settings path saved => ?_,
    fun environment tree context? settings loaded => ?_,
    fun environment tree context? output other listed => ?_⟩
  · exact ⟨loadFile_of_save saved, loadLayers_of_save saved⟩
  · exact ⟨settings.render, runSettings_list_eq_success_iff.mpr ⟨settings, loaded, rfl, rfl⟩⟩
  · obtain ⟨settings, loaded, rfl, rfl⟩ := runSettings_list_eq_success_iff.mp listed
    obtain ⟨value, spelled⟩ := readsBack settings
    refine ⟨rfl, settings, loaded, spelled, ?_⟩
    rw [value, Option.bind_some, ofValue_toValue]

def awkward : Settings :=
  ⟨"no", [.job, .job], 0, 18446744073709551615, " yes: \n# \"\n"⟩

theorem saved_reads_back_awkward :
    (∃ other, save .empty awkward "cfg/config.yaml" = .ok other ∧
      loadFile other "cfg/config.yaml" = .ok awkward ∧
      loadLayers other "cfg/config.yaml" none = .ok awkward) ∧
    ∃ output,
      Program.runSettings nearby (treeOf "watchNamespace: \"07\"\n" "") none .list =
        (.success output, treeOf "watchNamespace: \"07\"\n" "") ∧
      parse output = some { default with watchNamespace := "07" } := by
  obtain ⟨receiving, reading, listing, listed⟩ := saved_reads_back
  have made : FileTree.empty.makeParent "cfg/config.yaml" =
      .ok (FileTree.empty.put ["work", "cfg"] .directory) := by
    decide +kernel
  have receives : Receives .empty "cfg/config.yaml" :=
    ⟨by decide, by decide, _, ["work", "cfg", "config.yaml"], made, by decide, by decide⟩
  have loaded : load nearby (treeOf "watchNamespace: \"07\"\n" "") none =
      .ok { default with watchNamespace := "07" } := by
    decide +kernel
  constructor
  · obtain ⟨other, saved⟩ := (receiving .empty awkward "cfg/config.yaml").mpr receives
    exact ⟨other, saved, reading _ _ _ _ saved⟩
  · obtain ⟨output, printed⟩ := listing _ _ _ _ loaded
    obtain ⟨_, settings, again, spelled, _⟩ := listed _ _ _ _ _ printed
    cases loaded.symm.trans again
    exact ⟨output, printed, spelled⟩

end Settings

end Lineage
