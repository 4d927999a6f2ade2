import Lineage.Proofs.Decimal
import Lineage.Proofs.Tokens
import Lineage.Proofs.Trees
import Lineage.Settings.Document

/-!
# The text of settings

The text that holds settings is cut into the tokens of a mapping with five
entries, whatever the settings are, and so it is a document with that mapping.
-/

namespace Lineage

namespace Yaml

namespace Spelling

section Characters

variable {column : Nat} {characters : List Char}

theorem all_isAllowed_of_isPrintable
    (printable : ∀ character ∈ characters, isPrintable character = true) :
    characters.all isAllowed = true := by
  rw [List.all_eq_true]
  intro character member
  exact isAllowed_of_isPrintable (printable character member)

theorem all_isAllowed_indentation (column : Nat) : (indentation column).all isAllowed = true := by
  rw [List.all_eq_true]
  intro blank member
  rw [List.eq_of_mem_replicate member]
  decide

theorem all_isAllowed_blockBody (column : Nat) (allowed : characters.all isAllowed = true)
    (beginsLine : Bool) :
    (blockBody column beginsLine characters).all isAllowed = true := by
  induction characters generalizing beginsLine with
  | nil => rfl
  | cons first others ih =>
      rw [List.all_cons, Bool.and_eq_true] at allowed
      have blanks := all_isAllowed_indentation column
      rw [blockBody]
      split
      · simp [allowed.1, ih allowed.2]
      · cases beginsLine <;> simp [allowed.1, ih allowed.2, blanks]

theorem all_isAllowed_singleQuotedBody (allowed : characters.all isAllowed = true)
    (afterBreak : Bool) : (singleQuotedBody column afterBreak characters).all isAllowed = true := by
  have blanks := all_isAllowed_indentation column
  have feed : isAllowed '\n' = true := by decide
  have quote : isAllowed '\'' = true := by decide
  induction characters generalizing afterBreak with
  | nil => cases afterBreak <;> simp [singleQuotedBody, blanks]
  | cons first others ih =>
      rw [List.all_cons, Bool.and_eq_true] at allowed
      rw [singleQuotedBody]
      split
      · split <;> simp [allowed.1, ih allowed.2, feed]
      · split
        · simp [allowed.1, ih allowed.2]
        · have itself : (if first = '\'' then ['\'', '\''] else [first]).all isAllowed = true := by
            split <;> simp [allowed.1, quote]
          rw [List.all_append, List.all_append, itself, ih allowed.2]
          cases afterBreak <;> simp [blanks]

theorem isAllowed_digitChar_toUpper {digit : Nat} (small : digit < 16) :
    isAllowed digit.digitChar.toUpper = true := by
  have all : ∀ digit < 16, isAllowed digit.digitChar.toUpper = true := by
    decide
  exact all digit small

theorem all_isAllowed_toDigits (number : Nat) :
    ((Nat.toDigits 16 number).map Char.toUpper).all isAllowed = true := by
  induction number using Nat.strongRecOn with
  | ind number ih =>
      by_cases small : number < 16
      · rw [Nat.toDigits_of_lt_base small]
        simp [isAllowed_digitChar_toUpper small]
      · have last : number % 16 < 16 := Nat.mod_lt number (by decide)
        have front := ih (number / 16) (by omega)
        rw [Nat.toDigits_of_base_le (by decide) (by omega), List.map_append, List.all_append, front]
        simp [isAllowed_digitChar_toUpper last]

theorem all_isAllowed_hexadecimal (width number : Nat) :
    (hexadecimal width number).all isAllowed = true := by
  have zero : isAllowed '0' = true := by decide
  rw [hexadecimal, List.all_append, all_isAllowed_toDigits]
  simp [zero]

theorem all_isAllowed_escaped (character : Char) : (escaped character).all isAllowed = true := by
  have marks : isAllowed '\\' = true ∧ isAllowed 'x' = true ∧ isAllowed 'u' = true ∧
      isAllowed 'U' = true := by
    decide
  unfold escaped
  split
  · rename_i visible
    simp only [Bool.and_eq_true] at visible
    simp [isAllowed_of_isPrintable visible.1.1.1]
  · split
    · rename_i letter named
      unfold escapeLetter? at named
      split at named <;> cases named <;> decide
    · dsimp only
      split
      · simp only [List.all_append, all_isAllowed_hexadecimal]
        simp [marks]
      · split
        · simp only [List.all_append, all_isAllowed_hexadecimal]
          simp [marks]
        · simp only [List.all_append, all_isAllowed_hexadecimal]
          simp [marks]

theorem all_isAllowed_block (allows : allowsBlock characters = true) :
    (block column characters).all isAllowed = true := by
  have body := all_isAllowed_blockBody column
    (all_isAllowed_of_isPrintable (printable_of_allowsBlock allows)) true
  have header : (blockHeader characters).all isAllowed = true := by
    have hint : isAllowed '2' = true := by decide
    rw [blockHeader_eq, List.all_append, Bool.and_eq_true]
    constructor
    · split <;> simp [hint]
    · cases chompingOf characters <;> decide
  have marks : isAllowed '|' = true ∧ isAllowed '\n' = true := by decide
  simp [block, body, header, marks]

/-- A document may contain every character of a spelled text. -/
theorem all_isAllowed_spell (column : Nat) (text : String) :
    (spell column text).all isAllowed = true := by
  have double (characters : List Char) : (doubleQuoted characters).all isAllowed = true := by
    have quote : isAllowed '"' = true := by decide
    simp [doubleQuoted, quote, List.all_flatMap, all_isAllowed_escaped]
  have of_single {characters : List Char} (allows : allowsSingleQuotes characters = true) :
      characters.all isAllowed = true := by
    simp only [allowsSingleQuotes, needsEscapes, Bool.and_eq_true, Bool.not_eq_true',
      Bool.or_eq_false_iff, List.any_eq_false, Bool.not_eq_false] at allows
    exact all_isAllowed_of_isPrintable allows.1.1
  rw [spell]
  split
  · split
    · rename_i allows
      exact all_isAllowed_block allows
    · exact double _
  · split
    · rename_i plain
      simp only [allowsPlain, Bool.and_eq_true] at plain
      exact of_single plain.2.1.1.1.1
    · split
      · rename_i allows
        have quote : isAllowed '\'' = true := by decide
        simp [singleQuoted, quote, all_isAllowed_singleQuotedBody (of_single allows)]
      · exact double _

theorem all_isAllowed_endLine (allowed : characters.all isAllowed = true) :
    (endLine characters).all isAllowed = true := by
  have feed : isAllowed '\n' = true := by decide
  rw [endLine]
  split
  · exact allowed
  · rw [List.all_append, allowed]
    simp [feed]

end Characters

end Spelling

end Yaml

namespace Settings

open Yaml (Token ScalarStyle Node Solid isGapChar)
open Yaml.Layout (Yields IsName isName_of_check yields_key yields_item yields_brackets
  yields_break yields_plain styleOf yields_spelled yields_end)

theorem all_isWord_name (kind : WorkloadKind) :
    ∀ character ∈ kind.name.toList, Yaml.isWord character = true := by
  rw [← List.all_eq_true]
  cases kind <;> decide

/-- The lines from the beginning of an entry on are cut into some tokens. -/
structure Lines (text : List Char) (tokens : List Token) : Prop where
  solid : Solid text
  yields : Yields 0 [0, -1] true text tokens

section Lines

variable {name : String} {gap : Char} {more tail : List Char} {tokens : List Token}

/-- The name of an entry of the settings stands at the beginning of its line. -/
theorem lines_name (isName : IsName name.toList) (isGap : isGapChar gap = true)
    (later : Yields (name.toList.length + 1) [0, -1] false (gap :: more) tokens) :
    Lines (name.toList ++ ':' :: gap :: more)
      (.key :: .scalar .plain name :: .value :: tokens) := by
  have key : Yields 0 [0, -1] true
      (Yaml.Spelling.indentation 0 ++ (name.toList ++ ':' :: gap :: more))
      ([] ++ .key :: .scalar .plain (String.ofList name.toList) :: .value :: tokens) :=
    yields_key isName isGap .same (by simpa using later)
  constructor
  · obtain ⟨first, others, begins, _⟩ := isName.begins
    intro character found
    have same : character = first := by simpa [begins] using found.symm
    exact (isName.unbroken character (by simp [begins, same])).1
  · simpa [Yaml.Spelling.indentation] using key

/-- The first name opens the mapping. -/
theorem yields_firstName (isName : IsName name.toList) (isGap : isGapChar gap = true)
    (later : Yields (name.toList.length + 1) [0, -1] false (gap :: more) tokens) :
    Yields 0 [-1] true (name.toList ++ ':' :: gap :: more)
      (.blockMappingStart :: .key :: .scalar .plain name :: .value :: tokens) := by
  have key : Yields 0 [-1] true
      (Yaml.Spelling.indentation 0 ++ (name.toList ++ ':' :: gap :: more))
      ([.blockMappingStart] ++
        .key :: .scalar .plain (String.ofList name.toList) :: .value :: tokens) :=
    yields_key isName isGap (.deeper (by decide)) (by simpa using later)
  simpa [Yaml.Spelling.indentation] using key

/-- A word at the end of a line. -/
theorem yields_word {word : List Char} {column : Nat} {allowsKey : Bool}
    (words : ∀ character ∈ word, Yaml.isWord character = true) (begins : word.head? ≠ some '-')
    (nonempty : word ≠ []) (later : Lines tail tokens) :
    Yields column [0, -1] allowsKey (' ' :: (word ++ '\n' :: tail))
      (.scalar .plain (String.ofList word) :: tokens) :=
  yields_plain (Yaml.allowsPlain_of_words words begins) nonempty later.solid (Nat.zero_le column)
    later.yields

/-- The lines of an item for each kind. -/
def itemLines (kinds : List WorkloadKind) : List Char :=
  kinds.flatMap fun kind => "- ".toList ++ kind.name.toList ++ ['\n']

def itemTokens (kinds : List WorkloadKind) : List Token :=
  (kinds.map WorkloadKind.name).flatMap fun name => [.blockEntry, .scalar .plain name]

theorem lines_items (kinds : List WorkloadKind) (later : Lines tail tokens) :
    Lines (itemLines kinds ++ tail) (itemTokens kinds ++ tokens) := by
  induction kinds with
  | nil => exact later
  | cons kind kinds ih =>
      have mark : "- ".toList = ['-', ' '] := by decide
      have line : itemLines (kind :: kinds) ++ tail =
          '-' :: ' ' :: (kind.name.toList ++ '\n' :: (itemLines kinds ++ tail)) := by
        simp [itemLines, mark]
      have word : Yields 1 [0, -1] true
          (' ' :: (kind.name.toList ++ '\n' :: (itemLines kinds ++ tail)))
          (.scalar .plain (String.ofList kind.name.toList) :: (itemTokens kinds ++ tokens)) :=
        yields_word (all_isWord_name kind) (by cases kind <;> decide) (by cases kind <;> decide) ih
      rw [String.ofList_toList] at word
      rw [line]
      refine ⟨?_, yields_item word⟩
      intro character found
      cases found
      decide

def kindsTokens : List WorkloadKind → List Token
  | [] => [.flowSequenceStart, .flowSequenceEnd]
  | kinds => itemTokens kinds

theorem lines_kinds (kinds : List WorkloadKind) (later : Lines tail tokens) :
    Lines (renderKinds kinds ++ tail)
      (.key :: .scalar .plain "wellKnownKinds" :: .value :: (kindsTokens kinds ++ tokens)) := by
  have isName : IsName "wellKnownKinds".toList := isName_of_check (by decide +kernel)
  cases kinds with
  | nil =>
      have text : renderKinds [] = "wellKnownKinds".toList ++ [':', ' ', '[', ']', '\n'] := by
        decide +kernel
      rw [text, List.append_assoc]
      exact lines_name isName (by decide) (yields_brackets (Nat.zero_le _) later.yields)
  | cons kind kinds =>
      have begins : "wellKnownKinds:\n".toList = "wellKnownKinds".toList ++ [':', '\n'] := by
        decide +kernel
      have text : renderKinds (kind :: kinds) =
          "wellKnownKinds:\n".toList ++ itemLines (kind :: kinds) := rfl
      rw [text, begins, List.append_assoc, List.append_assoc]
      exact lines_name isName (by decide) (yields_break (lines_items _ later).yields)

/-- The entry for a number. -/
theorem lines_number (isName : IsName name.toList) (number : Nat) (later : Lines tail tokens) :
    Lines (name.toList ++ ':' :: ' ' :: (Natural.digits number ++ '\n' :: tail))
      (.key :: .scalar .plain name :: .value :: .scalar .plain (Natural.render number) ::
        tokens) := by
  obtain ⟨ranges, _, first, rest, begins, _⟩ := Natural.digits_spec number
  have words : ∀ character ∈ Natural.digits number, Yaml.isWord character = true := by
    intro character member
    have range := ranges character member
    simp [Yaml.isWord, range]
  have other : (Natural.digits number).head? ≠ some '-' := by
    have range := ranges first (by simp [begins])
    intro dash
    rw [begins] at dash
    cases dash
    exact absurd range.1 (by decide)
  exact lines_name isName (by decide) (yields_word words other (by simp [begins]) later)

/-- The entry for the logger, which is the last. -/
theorem lines_logger (level : String) :
    Lines ("logger:\n  level: ".toList ++ Yaml.Spelling.endLine (Yaml.Spelling.spell 4 level))
      [.key, .scalar .plain "logger", .value, .blockMappingStart, .key, .scalar .plain "level",
        .value, .scalar (styleOf level) level, .blockEnd, .blockEnd, .streamEnd] := by
  have ends : Yields 0 [2, 0, -1] true [] [.blockEnd, .blockEnd, .streamEnd] := yields_end [2, 0]
  have value : Yields 8 [2, 0, -1] false
      (' ' :: (Yaml.Spelling.endLine (Yaml.Spelling.spell 4 level) ++ []))
      [.scalar (styleOf level) level, .blockEnd, .blockEnd, .streamEnd] :=
    yields_spelled level nofun (by decide) ends
  have inner : Yields 0 [0, -1] true
      (Yaml.Spelling.indentation 2 ++ ("level".toList ++
        ':' :: ' ' :: (Yaml.Spelling.endLine (Yaml.Spelling.spell 4 level) ++ [])))
      ([.blockMappingStart] ++ .key :: .scalar .plain (String.ofList "level".toList) :: .value ::
        [.scalar (styleOf level) level, .blockEnd, .blockEnd, .streamEnd]) :=
    yields_key (isName_of_check (by decide +kernel)) (by decide) (.deeper (by decide)) value
  have isName : IsName "logger".toList := isName_of_check (by decide +kernel)
  have whole := lines_name isName (by decide) (yields_break inner)
  have begins : "logger:\n  level: ".toList = "logger".toList ++
      ':' :: '\n' :: (Yaml.Spelling.indentation 2 ++ ("level".toList ++ [':', ' '])) := by
    decide +kernel
  rw [begins]
  simpa using whole

end Lines

section Whole

/-- The tokens of the entries of settings, up to the end of the text. -/
def entryTokens (settings : Settings) : List Token :=
  .key :: .scalar .plain "watchNamespace" :: .value ::
    .scalar (styleOf settings.watchNamespace) settings.watchNamespace ::
  .key :: .scalar .plain "wellKnownKinds" :: .value :: (kindsTokens settings.wellKnownKinds ++
  .key :: .scalar .plain "discoveryRefreshSeconds" :: .value ::
    .scalar .plain (Natural.render settings.discoveryRefreshSeconds.toNat) ::
  .key :: .scalar .plain "cacheSyncTimeoutSeconds" :: .value ::
    .scalar .plain (Natural.render settings.cacheSyncTimeoutSeconds.toNat) ::
  [.key, .scalar .plain "logger", .value, .blockMappingStart, .key, .scalar .plain "level",
    .value, .scalar (styleOf settings.loggerLevel) settings.loggerLevel, .blockEnd, .blockEnd,
    .streamEnd])

theorem toList_render (settings : Settings) :
    settings.render.toList =
      "watchNamespace".toList ++
        ':' :: ' ' :: (Yaml.Spelling.endLine (Yaml.Spelling.spell 2 settings.watchNamespace) ++
      (renderKinds settings.wellKnownKinds ++
      ("discoveryRefreshSeconds".toList ++
        ':' :: ' ' :: (Natural.digits settings.discoveryRefreshSeconds.toNat ++ '\n' ::
      ("cacheSyncTimeoutSeconds".toList ++
        ':' :: ' ' :: (Natural.digits settings.cacheSyncTimeoutSeconds.toNat ++ '\n' ::
      ("logger:\n  level: ".toList ++
        Yaml.Spelling.endLine (Yaml.Spelling.spell 4 settings.loggerLevel)))))))) := by
  have namespaceText : "watchNamespace: ".toList = "watchNamespace".toList ++ [':', ' '] := by
    decide +kernel
  have refreshText :
      "discoveryRefreshSeconds: ".toList = "discoveryRefreshSeconds".toList ++ [':', ' '] := by
    decide +kernel
  have syncText :
      "cacheSyncTimeoutSeconds: ".toList = "cacheSyncTimeoutSeconds".toList ++ [':', ' '] := by
    decide +kernel
  refine String.toList_ofList.trans ?_
  rw [namespaceText, refreshText, syncText]
  simp only [List.append_assoc, List.cons_append, List.nil_append]

theorem yields_render (settings : Settings) :
    Yields 0 [-1] true settings.render.toList (.blockMappingStart :: entryTokens settings) := by
  have namespaceName : IsName "watchNamespace".toList := isName_of_check (by decide +kernel)
  have refreshName : IsName "discoveryRefreshSeconds".toList := isName_of_check (by decide +kernel)
  have syncName : IsName "cacheSyncTimeoutSeconds".toList := isName_of_check (by decide +kernel)
  have logger := lines_logger settings.loggerLevel
  have sync := lines_number syncName settings.cacheSyncTimeoutSeconds.toNat logger
  have refresh := lines_number refreshName settings.discoveryRefreshSeconds.toNat sync
  have kinds := lines_kinds settings.wellKnownKinds refresh
  rw [toList_render]
  exact yields_firstName namespaceName (by decide)
    (yields_spelled settings.watchNamespace kinds.solid (Nat.zero_le _) kinds.yields)

theorem all_isAllowed_digits (number : Nat) :
    (Natural.digits number).all Yaml.isAllowed = true := by
  refine Yaml.Spelling.all_isAllowed_of_isPrintable fun digit member => ?_
  have range := (Natural.digits_spec number).1 digit member
  exact Yaml.isPrintable_of_isWord (by simp [Yaml.isWord, range])

theorem all_isAllowed_renderKinds (kinds : List WorkloadKind) :
    (renderKinds kinds).all Yaml.isAllowed = true := by
  cases kinds with
  | nil => decide +kernel
  | cons kind kinds =>
      have begins : "wellKnownKinds:\n".toList.all Yaml.isAllowed = true := by decide +kernel
      have line (kind : WorkloadKind) :
          ("- ".toList ++ kind.name.toList ++ ['\n']).all Yaml.isAllowed = true := by
        cases kind <;> decide +kernel
      have items : (itemLines (kind :: kinds)).all Yaml.isAllowed = true := by
        rw [itemLines, List.all_flatMap, List.all_eq_true]
        exact fun kind _ => line kind
      have text : renderKinds (kind :: kinds) =
          "wellKnownKinds:\n".toList ++ itemLines (kind :: kinds) := rfl
      rw [text, List.all_append, begins, items, Bool.and_self]

theorem all_isAllowed_render (settings : Settings) :
    settings.render.toList.all Yaml.isAllowed = true := by
  have texts : ("watchNamespace".toList.all Yaml.isAllowed &&
      "discoveryRefreshSeconds".toList.all Yaml.isAllowed &&
      "cacheSyncTimeoutSeconds".toList.all Yaml.isAllowed &&
      "logger:\n  level: ".toList.all Yaml.isAllowed) = true := by
    decide +kernel
  have marks : Yaml.isAllowed ':' = true ∧ Yaml.isAllowed ' ' = true ∧
      Yaml.isAllowed '\n' = true := by
    decide
  simp only [Bool.and_eq_true] at texts
  obtain ⟨⟨⟨first, second⟩, third⟩, fourth⟩ := texts
  have spelled (column : Nat) (text : String) :=
    Yaml.Spelling.all_isAllowed_endLine (Yaml.Spelling.all_isAllowed_spell column text)
  rw [toList_render]
  simp only [List.all_append, List.all_cons, first, second, third, fourth, marks, spelled,
    all_isAllowed_renderKinds, all_isAllowed_digits, Bool.and_self]

/-- The text of settings is cut into the tokens of a mapping. -/
theorem tokens_render (settings : Settings) :
    Yaml.tokens settings.render = .blockMappingStart :: entryTokens settings := by
  have unmarked : settings.render.toList.head? ≠ some '\ufeff' := by
    have named : "watchNamespace".toList ≠ [] := by decide +kernel
    rw [toList_render, List.head?_append_of_ne_nil _ named]
    decide +kernel
  exact (yields_render settings).tokens_eq unmarked (all_isAllowed_render settings)

end Whole

section Tree

def word (text : String) : Node :=
  .scalar none .plain text

/-- The entries of the document that holds settings. -/
def entryNodes (settings : Settings) : List (Node × Node) :=
  [(word "watchNamespace",
      .scalar none (styleOf settings.watchNamespace) settings.watchNamespace),
    (word "wellKnownKinds",
      .sequence none (settings.wellKnownKinds.map fun kind => word kind.name)),
    (word "discoveryRefreshSeconds",
      word (Natural.render settings.discoveryRefreshSeconds.toNat)),
    (word "cacheSyncTimeoutSeconds",
      word (Natural.render settings.cacheSyncTimeoutSeconds.toNat)),
    (word "logger", .mapping none
      [(word "level", .scalar none (styleOf settings.loggerLevel) settings.loggerLevel)])]

open Yaml.Reading

variable {fuel : Nat} {rest : List Token}

theorem reads_kinds (kinds : List WorkloadKind) (long : kinds.length < fuel) :
    Reads (blockPart (fuel + 3)) (kindsTokens kinds ++ .key :: rest) (.key :: rest)
      (.sequence none (kinds.map fun kind => word kind.name)) := by
  cases kinds with
  | nil => exact (reads_brackets (.key :: rest)).part (by simp)
  | cons kind kinds =>
      have fuelled : ((kind :: kinds).map WorkloadKind.name).length < fuel + 1 := by
        rw [List.length_map]
        omega
      have items : Reads (bareItems (fuel + 1)) (itemTokens (kind :: kinds) ++ .key :: rest)
          (.key :: rest) (((kind :: kinds).map WorkloadKind.name).map (.scalar none .plain)) :=
        reads_items (by simp) _ fuelled
      rw [List.map_map] at items
      exact items.sequence.part (by simp)

theorem length_itemTokens (kinds : List WorkloadKind) :
    (itemTokens kinds).length = 2 * kinds.length := by
  induction kinds with
  | nil => rfl
  | cons kind kinds ih =>
      change (itemTokens kinds).length + 2 = 2 * (kinds.length + 1)
      omega

theorem length_le_kindsTokens (kinds : List WorkloadKind) :
    kinds.length ≤ (kindsTokens kinds).length := by
  cases kinds with
  | nil => exact Nat.zero_le _
  | cons kind kinds =>
      change (kind :: kinds).length ≤ (itemTokens (kind :: kinds)).length
      rw [length_itemTokens]
      omega

theorem reads_entries (settings : Settings) (long : (entryTokens settings).length < fuel) :
    Reads (blockEntries fuel) (entryTokens settings) [.streamEnd] (entryNodes settings) := by
  have many : settings.wellKnownKinds.length + 20 < fuel := by
    have kinds := length_le_kindsTokens settings.wellKnownKinds
    simp only [entryTokens, List.length_cons, List.length_append, List.length_nil] at long
    omega
  obtain ⟨fuel, rfl⟩ : ∃ less, fuel = less + 10 := ⟨fuel - 10, by omega⟩
  have scalar (fuel : Nat) (style : ScalarStyle) (text : String) (rest : List Token) :
      Reads (blockPart (fuel + 2)) (.scalar style text :: rest) rest (.scalar none style text) :=
    (reads_scalar style text rest).part (by simp)
  have logger : Reads (blockPart (fuel + 5)) _ _ _ :=
    ((scalar _ (styleOf settings.loggerLevel) settings.loggerLevel _).entry "level"
      (reads_blockEnd [.blockEnd, .streamEnd])).mapping.part (by simp)
  refine (scalar _ _ _ _).entry _ ((reads_kinds _ ?_).entry _ ((scalar _ _ _ _).entry _
    ((scalar _ _ _ _).entry _ (logger.entry _ (reads_blockEnd _)))))
  omega

/-- The text of settings is a document with their entries. -/
theorem soleDocument_render (settings : Settings) :
    ∃ size, Yaml.soleDocument settings.render =
      some ⟨.mapping none (entryNodes settings), [], size⟩ :=
  Yaml.soleDocument_of_reads (tokens_render settings) fun _ long => reads_entries settings long

end Tree

end Settings

end Lineage
