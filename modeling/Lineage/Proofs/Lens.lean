import Lineage.Proofs.Rewrite

/-!
# Settings as a lens

A setting is read as a text and written as a text.  What is written is read back in
its canonical form: the texts themselves, numbers without a sign and without leading
zeros, and kinds as their names with nothing but commas between them.  Texts in
canonical form are exactly those that are read, and writing one that has just been
read changes nothing.  Each key concerns its own setting only, so that settings of
different keys can be written in any order, and a text that is refused leaves all of
them as they are.
-/

namespace Lineage

namespace Text

theorem split_intercalate {pieces : List String} (filled : pieces ≠ [])
    (absent : ∀ piece ∈ pieces, ',' ∉ piece.toList) :
    split ',' (",".intercalate pieces) = pieces := by
  have commas : (",".intercalate pieces).toList = [','].intercalate (pieces.map String.toList) :=
    String.toList_intercalate
  rw [split, commas, List.splitOn_intercalate ',' (by simpa using absent) (by simpa using filled)]
  simp

end Text

namespace WorkloadKind

variable {text : String} {kinds : List WorkloadKind}

/-- What a text lists: whatever stands between commas, without the blanks around it. -/
def listed (text : String) : List String :=
  ((Text.split ',' text).map Text.trim).filter fun name => !name.isEmpty

/-- A list of kinds is read from a text that lists their names. -/
theorem readList_eq_ok_iff : readList text = .ok kinds ↔ listed text = kinds.map name := by
  rw [readList, listed]
  generalize ((Text.split ',' text).map Text.trim).filter (fun name => !name.isEmpty) = names
  induction names generalizing kinds with
  | nil => cases kinds <;> simp [pure, Except.pure]
  | cons first names ih =>
      rw [List.mapM_cons]
      cases found : ofName? first with
      | none =>
          have unknown : ∀ kind : WorkloadKind, first ≠ kind.name := by
            rintro kind rfl
            rw [ofName?_eq_some_iff.mpr rfl] at found
            cases found
          cases kinds <;> simp [bind, Except.bind, unknown]
      | some kind =>
          obtain rfl := ofName?_eq_some_iff.mp found
          dsimp only [bind, Except.bind]
          cases kinds with
          | nil => split <;> simp [pure, Except.pure]
          | cons other kinds =>
              have sameName : kind.name = other.name ↔ kind = other :=
                ⟨fun same => Option.some.inj
                  (found.symm.trans (ofName?_eq_some_iff.mpr same.symm)), fun same => same ▸ rfl⟩
              rw [List.map_cons, List.cons.injEq, sameName, ← ih]
              split <;> simp_all [pure, Except.pure]

theorem listed_intercalate (kinds : List WorkloadKind) :
    listed (",".intercalate (kinds.map name)) = kinds.map name := by
  have plain : ∀ kind : WorkloadKind, ',' ∉ kind.name.toList ∧ Text.trim kind.name = kind.name ∧
      kind.name.isEmpty = false := by
    intro kind
    cases kind <;> decide
  by_cases void : kinds = []
  · subst void
    rfl
  · have filled : kinds.map name ≠ [] := by simpa using void
    have absent : ∀ piece ∈ kinds.map name, ',' ∉ piece.toList :=
      List.forall_mem_map.mpr fun kind _ => (plain kind).1
    rw [listed, Text.split_intercalate filled absent, List.map_map, List.filter_eq_self.mpr]
    · exact List.map_congr_left fun kind _ => (plain kind).2.1
    · refine List.forall_mem_map.mpr fun kind _ => ?_
      rw [Function.comp_apply, (plain kind).2.1, (plain kind).2.2]
      rfl

theorem exists_readList_iff :
    (∃ kinds, readList text = .ok kinds) ↔
      ∀ item ∈ listed text, ∃ kind, WorkloadKind.name kind = item := by
  simp only [readList_eq_ok_iff]
  constructor
  · rintro ⟨kinds, same⟩ item member
    rw [same] at member
    obtain ⟨kind, _, rfl⟩ := List.mem_map.mp member
    exact ⟨kind, rfl⟩
  · intro known
    generalize listed text = items at known ⊢
    induction items with
    | nil => exact ⟨[], rfl⟩
    | cons item items ih =>
        rw [List.forall_mem_cons] at known
        obtain ⟨kind, rfl⟩ := known.1
        obtain ⟨kinds, rfl⟩ := ih known.2
        exact ⟨kind :: kinds, rfl⟩

end WorkloadKind

namespace SettingKey

variable {key : SettingKey} {text name : String} {content : key.Content} {settings : Settings}

theorem ofName?_eq_some_iff : ofName? name = some key ↔ key.name = name := by
  constructor
  · intro found
    simpa using List.find?_some found
  · rintro rfl
    cases key <;> decide

theorem name_injective {key other : SettingKey} (same : key.name = other.name) : key = other :=
  Option.some.inj ((ofName?_eq_some_iff.mpr same).symm.trans (ofName?_eq_some_iff.mpr rfl))

def print (key : SettingKey) (content : key.Content) : String :=
  match key with
  | watchNamespace => content
  | wellKnownKinds => ",".intercalate (content.map WorkloadKind.name)
  | discoveryRefreshSeconds => Natural.render content.toNat
  | cacheSyncTimeoutSeconds => Natural.render content.toNat
  | loggerLevel => content

/-- The texts that a setting takes. -/
def Takes (key : SettingKey) (text : String) : Prop :=
  match key with
  | watchNamespace => True
  | wellKnownKinds => ∀ item ∈ WorkloadKind.listed text, ∃ kind, WorkloadKind.name kind = item
  | discoveryRefreshSeconds => ∃ number, Natural.Decimal text number ∧ number < Nat.pow 2 64
  | cacheSyncTimeoutSeconds => ∃ number, Natural.Decimal text number ∧ number < Nat.pow 2 64
  | loggerLevel => True

/-- The canonical form of a text that a setting takes. -/
def canonical (key : SettingKey) (text : String) : String :=
  match key with
  | watchNamespace => text
  | wellKnownKinds => ",".intercalate (WorkloadKind.listed text)
  | discoveryRefreshSeconds => Natural.canonical text
  | cacheSyncTimeoutSeconds => Natural.canonical text
  | loggerLevel => text

theorem read_eq_print (key : SettingKey) (settings : Settings) :
    key.read settings = key.print (key.content settings) := by
  cases key <;> rfl

/-- What is read of a setting spells it. -/
theorem spells_print (key : SettingKey) (content : key.Content) :
    key.Spells (key.print content) content := by
  cases key with
  | watchNamespace => rfl
  | wellKnownKinds =>
      exact WorkloadKind.readList_eq_ok_iff.mpr (WorkloadKind.listed_intercalate content)
  | discoveryRefreshSeconds | cacheSyncTimeoutSeconds => exact Natural.decimal_render content.toNat
  | loggerLevel => rfl

/-- What a text spells is read in canonical form. -/
theorem print_eq_canonical (spelled : key.Spells text content) :
    key.print content = key.canonical text := by
  cases key with
  | watchNamespace => exact spelled
  | wellKnownKinds =>
      exact congrArg ",".intercalate (WorkloadKind.readList_eq_ok_iff.mp spelled).symm
  | discoveryRefreshSeconds | cacheSyncTimeoutSeconds => exact Natural.render_eq_canonical spelled
  | loggerLevel => exact spelled

theorem exists_word_iff :
    (∃ word : UInt64, Natural.Decimal text word.toNat) ↔
      ∃ number, Natural.Decimal text number ∧ number < Nat.pow 2 64 := by
  constructor
  · rintro ⟨word, decimal⟩
    exact ⟨word.toNat, decimal, word.toNat_lt⟩
  · rintro ⟨number, decimal, small⟩
    refine ⟨UInt64.ofNat number, ?_⟩
    rw [UInt64.toNat_ofNat_of_lt' small]
    exact decimal

theorem exists_spells_iff : (∃ content, key.Spells text content) ↔ key.Takes text := by
  cases key with
  | watchNamespace => exact iff_of_true ⟨text, rfl⟩ trivial
  | wellKnownKinds => exact WorkloadKind.exists_readList_iff
  | discoveryRefreshSeconds | cacheSyncTimeoutSeconds => exact exists_word_iff
  | loggerLevel => exact iff_of_true ⟨text, rfl⟩ trivial

theorem write_ne_unknownKey (key : SettingKey) (text name : String) (settings : Settings) :
    key.write text settings ≠ .error (.unknownKey name) := by
  cases key with
  | watchNamespace => simp [write]
  | wellKnownKinds =>
      simp only [write]
      cases WorkloadKind.readList text <;> simp
  | discoveryRefreshSeconds | cacheSyncTimeoutSeconds =>
      simp only [write, readNumber]
      cases Natural.readWord text <;> simp [Except.mapError, Except.map]
  | loggerLevel => simp [write]

section Replace

theorem replace_content (key : SettingKey) (settings : Settings) :
    key.replace (key.content settings) settings = settings := by
  cases key <;> rfl

theorem replace_comm {other : SettingKey} (different : key ≠ other) (content : key.Content)
    (otherContent : other.Content) (settings : Settings) :
    other.replace otherContent (key.replace content settings) =
      key.replace content (other.replace otherContent settings) := by
  cases key <;> cases other <;> first | rfl | exact absurd rfl different

/-- What a setting was does not matter to what is written in its place. -/
theorem write_replace (key : SettingKey) (text : String) (content : key.Content)
    (settings : Settings) :
    key.write text (key.replace content settings) = key.write text settings := by
  cases key with
  | watchNamespace => rfl
  | wellKnownKinds =>
      simp only [write]
      cases WorkloadKind.readList text <;> rfl
  | discoveryRefreshSeconds | cacheSyncTimeoutSeconds =>
      simp only [write]
      cases readNumber _ text <;> rfl
  | loggerLevel => rfl

end Replace

end SettingKey

namespace Settings

variable {settings changed : Settings} {name other text : String}

theorem get_eq_ok_iff :
    settings.get name = .ok text ↔
      ∃ key : SettingKey, key.name = name ∧ key.print (key.content settings) = text := by
  simp only [← SettingKey.ofName?_eq_some_iff, ← SettingKey.read_eq_print]
  rw [get]
  cases SettingKey.ofName? name <;> simp

theorem set_spells_iff :
    settings.set name text = .ok changed ↔
      ∃ key content, SettingKey.name key = name ∧ key.Spells text content ∧
        key.replace content settings = changed := by
  simp only [set_eq_ok_iff, SettingKey.ofName?_eq_some_iff]

/-- Changing settings in place comes to the same as making changed ones. -/
theorem change_eq (name text : String) (settings : Settings) :
    (change name text).run settings =
      match settings.set name text with
      | .ok changed => (.ok (), changed)
      | .error fault => (.error fault, settings) := by
  rw [change, set]
  cases SettingKey.ofName? name with
  | none => rfl
  | some key =>
      cases key with
      | watchNamespace => rfl
      | wellKnownKinds =>
          simp only [SettingKey.assign, SettingKey.write]
          cases WorkloadKind.readList text <;> rfl
      | discoveryRefreshSeconds | cacheSyncTimeoutSeconds =>
          simp only [SettingKey.assign, SettingKey.write]
          cases SettingKey.readNumber _ text <;> rfl
      | loggerLevel => rfl

section Laws

theorem exists_get_iff :
    (∃ read, settings.get name = .ok read) ↔ ∃ key : SettingKey, key.name = name := by
  constructor
  · rintro ⟨read, answer⟩
    obtain ⟨key, named, _⟩ := get_eq_ok_iff.mp answer
    exact ⟨key, named⟩
  · rintro ⟨key, named⟩
    exact ⟨_, get_eq_ok_iff.mpr ⟨key, named, rfl⟩⟩

/-- A name is refused as such by both or by neither. -/
theorem set_unknownKey_iff :
    settings.set name text = .error (.unknownKey name) ↔
      settings.get name = .error (.unknownKey name) := by
  rw [get, set]
  cases SettingKey.ofName? name with
  | none => exact iff_of_true rfl rfl
  | some key => exact iff_of_false (key.write_ne_unknownKey text name settings) (by simp)

theorem exists_set_iff {key : SettingKey} :
    (∃ changed, settings.set key.name text = .ok changed) ↔ key.Takes text := by
  rw [← SettingKey.exists_spells_iff]
  constructor
  · rintro ⟨changed, answer⟩
    obtain ⟨other, content, named, spelled, _⟩ := set_spells_iff.mp answer
    obtain rfl := SettingKey.name_injective named
    exact ⟨content, spelled⟩
  · rintro ⟨content, spelled⟩
    exact ⟨_, set_spells_iff.mpr ⟨key, content, rfl, spelled, rfl⟩⟩

/-- Writing what is read changes nothing. -/
theorem set_of_get (read : settings.get name = .ok text) :
    settings.set name text = .ok settings := by
  obtain ⟨key, named, rfl⟩ := get_eq_ok_iff.mp read
  exact set_spells_iff.mpr ⟨key, _, named, key.spells_print _, key.replace_content settings⟩

/-- What was written is read in canonical form. -/
theorem get_of_set {key : SettingKey} (answer : settings.set key.name text = .ok changed) :
    changed.get key.name = .ok (key.canonical text) := by
  obtain ⟨other, content, named, spelled, rfl⟩ := set_spells_iff.mp answer
  obtain rfl := SettingKey.name_injective named
  refine get_eq_ok_iff.mpr ⟨other, rfl, ?_⟩
  rw [content_replace_self, SettingKey.print_eq_canonical spelled]

/-- The second of two texts for one setting decides, as if there had been no first. -/
theorem set_of_set (answer : settings.set name text = .ok changed) (again : String) :
    changed.set name again = settings.set name again := by
  obtain ⟨key, content, named, _, rfl⟩ := set_spells_iff.mp answer
  rw [set, set, SettingKey.ofName?_eq_some_iff.mpr named]
  exact key.write_replace again content settings

theorem get_of_set_of_ne (answer : settings.set name text = .ok changed)
    (different : other ≠ name) : changed.get other = settings.get other := by
  obtain ⟨key, content, rfl, _, rfl⟩ := set_spells_iff.mp answer
  rw [get, get]
  cases found : SettingKey.ofName? other with
  | none => rfl
  | some elsewhere =>
      have apart : elsewhere ≠ key := by
        rintro rfl
        exact different (SettingKey.ofName?_eq_some_iff.mp found).symm
      simp only [SettingKey.read_eq_print, content_replace_of_ne apart]

/-- Settings of different keys are written in any order. -/
theorem set_comm {aside : Settings} {otherText : String} (different : other ≠ name)
    (answer : settings.set name text = .ok changed)
    (otherAnswer : settings.set other otherText = .ok aside) :
    ∃ final, changed.set other otherText = .ok final ∧ aside.set name text = .ok final := by
  obtain ⟨key, content, named, spelled, rfl⟩ := set_spells_iff.mp answer
  obtain ⟨otherKey, otherContent, otherNamed, otherSpelled, rfl⟩ := set_spells_iff.mp otherAnswer
  have apart : key ≠ otherKey := by
    rintro rfl
    exact different (otherNamed.symm.trans named)
  refine ⟨_, set_spells_iff.mpr ⟨otherKey, otherContent, otherNamed, otherSpelled, rfl⟩, ?_⟩
  rw [SettingKey.replace_comm apart]
  exact set_spells_iff.mpr ⟨key, content, named, spelled, rfl⟩

end Laws

/-- Reading and writing settings as texts are a lens.  Both take the same names, the
keys of the settings, and each key takes the texts of its setting: any text, or a
number of sixty-four bits in decimal with an optional plus sign, or a list of names
of kinds.

Writing what is read changes nothing.  What was written is read in canonical form,
whichever other texts were written for the setting before.  Writing it once more, as
it was or in canonical form, changes nothing.  Other settings are read as before, and
two settings are written in any order.  A text or a name that is refused leaves the
settings as they are. -/
theorem get_set_lawful (settings : Settings) (name : String) :
    ((∃ read, settings.get name = .ok read) ↔ ∃ key : SettingKey, key.name = name) ∧
    (∀ text, settings.set name text = .error (.unknownKey name) ↔
      settings.get name = .error (.unknownKey name)) ∧
    (∀ key : SettingKey, key.name = name → ∀ text,
      (∃ changed, settings.set name text = .ok changed) ↔ key.Takes text) ∧
    (∀ read, settings.get name = .ok read → settings.set name read = .ok settings) ∧
    (∀ text changed, settings.set name text = .ok changed →
      (change name text).run settings = (.ok (), changed) ∧
      (∃ key : SettingKey, key.name = name ∧ changed.get name = .ok (key.canonical text) ∧
        changed.set name (key.canonical text) = .ok changed) ∧
      changed.set name text = .ok changed ∧
      (∀ again, changed.set name again = settings.set name again) ∧
      ∀ other, other ≠ name →
        changed.get other = settings.get other ∧
        ∀ otherText aside, settings.set other otherText = .ok aside →
          ∃ final, changed.set other otherText = .ok final ∧ aside.set name text = .ok final) ∧
    ∀ text fault, settings.set name text = .error fault →
      (change name text).run settings = (.error fault, settings) := by
  refine ⟨exists_get_iff, fun text => set_unknownKey_iff, ?_, fun read => set_of_get, ?_, ?_⟩
  · rintro key rfl text
    exact exists_set_iff
  · intro text changed answer
    obtain ⟨key, _, rfl, _⟩ := set_spells_iff.mp answer
    have canonical := get_of_set answer
    refine ⟨by rw [change_eq, answer], ⟨key, rfl, canonical, set_of_get canonical⟩,
      (set_of_set answer text).trans answer, set_of_set answer, ?_⟩
    intro other different
    exact ⟨get_of_set_of_ne answer different, fun _ _ => set_comm different answer⟩
  · intro text fault refused
    rw [change_eq, refused]

/-- Blanks, void items and leading zeros disappear, and repetitions remain. -/
example :
    ((default.set "wellKnownKinds" " Job,, DaemonSet ,Job").bind fun changed =>
      changed.get "wellKnownKinds") = .ok "Job,DaemonSet,Job" ∧
    ((default.set "discoveryRefreshSeconds" "+007").bind fun changed =>
      changed.get "discoveryRefreshSeconds") = .ok "7" := by
  decide +kernel

end Settings

end Lineage
