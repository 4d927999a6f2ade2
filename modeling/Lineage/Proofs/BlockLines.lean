import Lineage.Proofs.Quoting

/-!
# Blocks of lines

A text of several lines is written line by line, each line indented, with its
breaks as they are.  The header tells the indentation if the text begins with a
blank or a break, and says what becomes of the breaks at the end.  Such a text
is read back as it was.
-/

namespace Lineage

namespace Yaml

/-- A line of a block that is not empty, its break, and the breaks of the empty
lines after it. -/
structure BlockLine where
  line : List Char
  lineBreak : Char
  emptyLines : List Char

namespace BlockLine

def characters (block : BlockLine) : List Char :=
  block.line ++ block.lineBreak :: block.emptyLines

/-- The lines of a block as they are written in some column. -/
def written (column : Nat) (lines : List BlockLine) : List Char :=
  lines.flatMap fun block => Spelling.indentation column ++ block.characters

/-- A line without breaks that ends with breaks. -/
structure Sound (block : BlockLine) : Prop where
  nonempty : block.line ≠ []
  unbroken : ∀ character ∈ block.line, isBreak character = false
  ended : isBreak block.lineBreak = true ∧ Spelling.isPrintable block.lineBreak = true
  empty : ∀ character ∈ block.emptyLines,
    isBreak character = true ∧ Spelling.isPrintable character = true

end BlockLine

namespace Spelling

section Cut

variable {column : Nat}

theorem blockBody_break {character : Char} (breaks : isBreak character = true)
    (beginsLine : Bool) (others : List Char) :
    blockBody column beginsLine (character :: others) =
      character :: blockBody column true others := by
  simp [blockBody, breaks]

theorem blockBody_line {character : Char} (unbroken : isBreak character = false)
    (beginsLine : Bool) (others : List Char) :
    blockBody column beginsLine (character :: others) =
      (if beginsLine then indentation column else []) ++
        character :: blockBody column false others := by
  simp [blockBody, unbroken]

/-- A text is cut into breaks and lines, and so is the block that it is written as. -/
structure Cut (column : Nat) (characters empty : List Char) (lines : List BlockLine) : Prop where
  breaks : ∀ character ∈ empty, isBreak character = true ∧ isPrintable character = true
  sound : ∀ block ∈ lines, block.Sound
  same : characters = empty ++ lines.flatMap BlockLine.characters
  atBegin : blockBody column true characters = empty ++ BlockLine.written column lines
  inside : empty = [] → ∀ first rest, lines = first :: rest →
    blockBody column false characters = first.characters ++ BlockLine.written column rest

variable {character : Char} {others empty : List Char} {lines : List BlockLine}

theorem cut_nil : Cut column [] [] [] :=
  ⟨by simp, by simp, rfl, rfl, by simp⟩

theorem Cut.break (cut : Cut column others empty lines) (broken : isBreak character = true)
    (printable : isPrintable character = true) :
    Cut column (character :: others) (character :: empty) lines where
  breaks := List.forall_mem_cons.mpr ⟨⟨broken, printable⟩, cut.breaks⟩
  sound := cut.sound
  same := by rw [cut.same, List.cons_append]
  atBegin := by rw [blockBody_break broken, cut.atBegin, List.cons_append]
  inside := by simp

/-- The last character before some breaks begins a line. -/
theorem Cut.last {lineBreak : Char} (cut : Cut column others (lineBreak :: empty) lines)
    (unbroken : isBreak character = false) :
    Cut column (character :: others) [] (⟨[character], lineBreak, empty⟩ :: lines) := by
  obtain ⟨first, breaks⟩ := List.forall_mem_cons.mp cut.breaks
  have body (beginsLine : Bool) : blockBody column beginsLine others =
      lineBreak :: empty ++ BlockLine.written column lines := by
    have same := cut.same
    have begins := cut.atBegin
    rw [List.cons_append] at same begins
    rw [same, blockBody_break first.1] at begins ⊢
    exact begins
  refine ⟨by simp, List.forall_mem_cons.mpr ⟨?_, cut.sound⟩, ?_, ?_, ?_⟩
  · exact ⟨by simp, by simpa using unbroken, first, breaks⟩
  · rw [cut.same]
    rfl
  · rw [blockBody_line unbroken, body false]
    simp [BlockLine.written, BlockLine.characters]
  · rintro - line rest ⟨⟩
    rw [blockBody_line unbroken, body false]
    simp [BlockLine.characters]

/-- A character before a line belongs to it. -/
theorem Cut.longer {first : BlockLine} (cut : Cut column others [] (first :: lines))
    (unbroken : isBreak character = false) :
    Cut column (character :: others) []
      ({ first with line := character :: first.line } :: lines) := by
  obtain ⟨sound, soundRest⟩ := List.forall_mem_cons.mp cut.sound
  have body := cut.inside rfl first lines rfl
  refine ⟨by simp, List.forall_mem_cons.mpr ⟨?_, soundRest⟩, ?_, ?_, ?_⟩
  · exact ⟨by simp, List.forall_mem_cons.mpr ⟨unbroken, sound.unbroken⟩, sound.ended, sound.empty⟩
  · rw [cut.same]
    simp [BlockLine.characters]
  · rw [blockBody_line unbroken, body]
    simp [BlockLine.written, BlockLine.characters]
  · rintro - line rest ⟨⟩
    rw [blockBody_line unbroken, body]
    simp [BlockLine.characters]

/-- A text that ends with a break can be cut. -/
theorem exists_cut (column : Nat) {characters : List Char}
    (printable : ∀ character ∈ characters, isPrintable character = true)
    (ended : ∀ last ∈ characters.getLast?, isBreak last = true) :
    ∃ empty lines, Cut column characters empty lines := by
  induction characters with
  | nil => exact ⟨[], [], cut_nil⟩
  | cons character others ih =>
      obtain ⟨isPrinted, printable⟩ := List.forall_mem_cons.mp printable
      have endedLater : ∀ last ∈ others.getLast?, isBreak last = true := by
        intro last found
        cases others with
        | nil => cases found
        | cons other others => exact ended last (by simpa using found)
      obtain ⟨empty, lines, cut⟩ := ih printable endedLater
      by_cases broken : isBreak character = true
      · exact ⟨character :: empty, lines, cut.break broken isPrinted⟩
      · have unbroken : isBreak character = false := by simpa using broken
        cases empty with
        | cons lineBreak empty => exact ⟨[], _, cut.last unbroken⟩
        | nil =>
            cases lines with
            | cons first lines => exact ⟨[], _, cut.longer unbroken⟩
            | nil =>
                have alone : others = [] := cut.same
                subst alone
                exact absurd (ended character rfl) broken

end Cut

end Spelling

section Reading

open Spelling

variable {depth fuel : Nat} {tail : List Char}

theorem readBlockBreaks_break {character : Char} (broken : isBreak character = true)
    (printable : isPrintable character = true) (positive : 0 < depth) (collected : List Char)
    (deepest : Nat) (rest : List Char) (index line : Nat) :
    readBlockBreaks depth (fuel + 1) collected deepest ⟨character :: rest, index, line, 0⟩ =
      readBlockBreaks depth fuel (collected ++ [character]) deepest
        ⟨rest, index + 1, line + 1, 0⟩ := by
  have space : character ≠ ' ' := by
    rintro rfl
    exact absurd broken (by decide)
  have tab : character ≠ '\t' := ne_of_isPrintable printable (by decide)
  have deep : depth ≠ 0 := Nat.ne_of_gt positive
  have read := readBreak_of_isPrintable printable broken rest index line 0
  simp [readBlockBreaks, Cursor.skip, Cursor.isAt, Cursor.atBreak, Cursor.at?, space, tab, deep,
    broken, read]

/-- Empty lines are read up to the next line that is not empty. -/
theorem readBlockBreaks_breaks {breaks : List Char}
    (broken : ∀ character ∈ breaks, isBreak character = true ∧ isPrintable character = true)
    (positive : 0 < depth) (collected : List Char) (deepest : Nat) (rest : List Char)
    (index line : Nat) :
    readBlockBreaks depth (fuel + breaks.length) collected deepest
        ⟨breaks ++ rest, index, line, 0⟩ =
      readBlockBreaks depth fuel (collected ++ breaks) deepest
        ⟨rest, index + breaks.length, line + breaks.length, 0⟩ := by
  induction breaks generalizing collected index line with
  | nil => simp
  | cons character breaks ih =>
      obtain ⟨⟨isEnd, printable⟩, broken⟩ := List.forall_mem_cons.mp broken
      rw [List.length_cons, ← Nat.add_assoc, List.cons_append,
        readBlockBreaks_break isEnd printable positive, ih broken, List.append_assoc,
        List.singleton_append, Nat.add_right_comm index, Nat.add_right_comm line]
      rfl

theorem readBlockBreaks_solid (positive : 0 < depth) (solid : Solid tail) (collected : List Char)
    (deepest index line : Nat) :
    readBlockBreaks depth (fuel + 1) collected deepest ⟨tail, index, line, 0⟩ =
      some (collected, deepest, ⟨tail, index, line, 0⟩) := by
  have deep : depth ≠ 0 := Nat.ne_of_gt positive
  cases tail with
  | nil => simp [readBlockBreaks, Cursor.skip, Cursor.isAt, Cursor.atBreak, Cursor.at?, deep]
  | cons character rest =>
      have visible := solid character rfl
      simp only [isGapChar, isBlank, Bool.or_eq_false_iff, decide_eq_false_iff_not] at visible
      simp [readBlockBreaks, Cursor.skip, Cursor.isAt, Cursor.atBreak, Cursor.at?, deep, visible]

theorem takeWhile_indentation (rest : List Char) :
    (indentation depth ++ rest).takeWhile (· = ' ') =
      indentation depth ++ rest.takeWhile (· = ' ') := by
  rw [List.takeWhile_append_of_pos]
  intro blank member
  simpa using List.eq_of_mem_replicate member

variable {rest : List Char} {character : Char}

theorem readBlockBreaks_indented (positive : 0 < depth) (begins : rest.head? = some character)
    (unbroken : isBreak character = false) (collected : List Char) (deepest index line : Nat) :
    readBlockBreaks depth (fuel + 1) collected deepest
        ⟨indentation depth ++ rest, index, line, 0⟩ =
      some (collected, max deepest depth, ⟨rest, index + depth, line, depth⟩) := by
  obtain ⟨others, rfl⟩ := List.head?_eq_some_iff.mp begins
  have deep : depth ≠ 0 := Nat.ne_of_gt positive
  have count :
      min ((indentation depth ++ character :: others).takeWhile (· = ' ')).length depth =
        depth := by
    rw [takeWhile_indentation, List.length_append, indentation, List.length_replicate]
    omega
  have behind : (indentation depth ++ character :: others).drop depth = character :: others := by
    simp [indentation]
  simp [readBlockBreaks, Cursor.skip, Cursor.isAt, Cursor.atBreak, Cursor.at?, deep, unbroken,
    count, behind]

/-- The first line tells its indentation unless it begins with a blank. -/
theorem readBlockBreaks_unknown (begins : rest.head? = some character)
    (solid : isGapChar character = false) (collected : List Char) (index line : Nat) :
    readBlockBreaks 0 (fuel + 1) collected 0 ⟨indentation depth ++ rest, index, line, 0⟩ =
      some (collected, depth, ⟨rest, index + depth, line, depth⟩) := by
  obtain ⟨others, rfl⟩ := List.head?_eq_some_iff.mp begins
  simp only [isGapChar, isBlank, Bool.or_eq_false_iff, decide_eq_false_iff_not] at solid
  have count : ((indentation depth ++ character :: others).takeWhile (· = ' ')).length =
      depth := by
    rw [takeWhile_indentation, List.takeWhile_cons_of_neg (by simpa using solid.1.1)]
    simp [indentation]
  have behind : (indentation depth ++ character :: others).drop depth = character :: others := by
    simp [indentation]
  simp [readBlockBreaks, Cursor.skip, Cursor.isAt, Cursor.atBreak, Cursor.at?, solid, count, behind]

variable {block : BlockLine} {lines : List BlockLine}

/-- A line is read with its break and the empty lines after it. -/
theorem readBlockLines_line (fuel : Nat) (sound : block.Sound) (positive : 0 < depth)
    (state : BlockText) (more : List Char) (index line : Nat) :
    ∃ wasBlank, readBlockLines false depth (fuel + 1) state
        ⟨block.characters ++ more, index, line, depth⟩ =
      (readBlockBreaks depth (more.length + 1) block.emptyLines 0
        ⟨more, index + block.line.length + 1 + block.emptyLines.length,
          line + 1 + block.emptyLines.length, 0⟩).bind fun (emptyLines, _, rest) =>
            readBlockLines false depth fuel
              ⟨state.text ++ state.lineBreak ++ state.emptyLines ++ block.line,
                [block.lineBreak], emptyLines, wasBlank⟩ rest := by
  have whole : (block.characters ++ more).takeWhile (fun character => !isBreak character) =
      block.line := by
    rw [BlockLine.characters, List.append_assoc, List.takeWhile_append_of_pos
      fun character member => by simp [sound.unbroken character member]]
    simp [sound.ended.1]
  have behind : (block.characters ++ more).drop block.line.length =
      block.lineBreak :: (block.emptyLines ++ more) := by
    simp [BlockLine.characters]
  have some : (block.characters ++ more).isEmpty = false := by
    simp [BlockLine.characters]
  have read := readBreak_of_isPrintable sound.ended.2 sound.ended.1 (block.emptyLines ++ more)
    (index + block.line.length) line (depth + block.line.length)
  have length : block.emptyLines.length + more.length + 1 =
      more.length + 1 + block.emptyLines.length := by
    omega
  have step : readBlockLines false depth (fuel + 1) state
        ⟨block.characters ++ more, index, line, depth⟩ =
      (readBlockBreaks depth (block.emptyLines.length + more.length + 1) [] 0
        ⟨block.emptyLines ++ more, index + block.line.length + 1, line + 1, 0⟩).bind
          fun (emptyLines, _, rest) =>
            readBlockLines false depth fuel
              ⟨state.text ++ state.lineBreak ++ state.emptyLines ++ block.line,
                [block.lineBreak], emptyLines,
                Cursor.atBlank ⟨block.characters ++ more, index, line, depth⟩⟩ rest := by
    simp [readBlockLines, Cursor.atEnd, Cursor.readWhile, Cursor.skip, whole, behind, some, read]
  rw [length, readBlockBreaks_breaks sound.empty positive, List.nil_append] at step
  exact ⟨_, step⟩

/-- What has been read of a block, cut before the breaks at its end. -/
structure BlockText.Ends (state : BlockText) (whole : List Char) : Prop where
  whole_eq : state.text ++ (state.lineBreak ++ state.emptyLines) = whole
  solid : ∀ last ∈ state.text.getLast?, isBreak last = false
  breaks : ∀ character ∈ state.lineBreak ++ state.emptyLines, isBreak character = true
  single : state.text = [] ∧ state.lineBreak = [] ∨ state.lineBreak.length = 1

theorem readBlockLines_end (positive : 0 < depth) (state : BlockText) (index line : Nat) :
    readBlockLines false depth fuel state ⟨tail, index, line, 0⟩ =
      some (state, ⟨tail, index, line, 0⟩) := by
  have outside : (0 : Nat) ≠ depth := Nat.ne_of_lt positive
  cases fuel with
  | zero => rfl
  | succ fuel => simp [readBlockLines, outside]

theorem BlockLine.Sound.ends (sound : block.Sound) (before : List Char) (wasBlank : Bool) :
    BlockText.Ends ⟨before ++ block.line, [block.lineBreak], block.emptyLines, wasBlank⟩
      (before ++ block.characters) where
  whole_eq := by simp [BlockLine.characters]
  solid := by
    intro last found
    have inLine : last ∈ block.line.getLast? := by
      simpa [List.getLast?_append, List.getLast?_eq_some_getLast sound.nonempty] using found
    exact sound.unbroken last (List.mem_of_mem_getLast? inLine)
  breaks := by
    intro character member
    rcases List.mem_cons.mp member with rfl | inside
    · exact sound.ended.1
    · exact (sound.empty character inside).1
  single := .inr rfl

/-- The lines of a block are read up to a line that is not indented. -/
theorem readBlockLines_lines {first : BlockLine} (sound : ∀ block ∈ first :: lines, block.Sound)
    (positive : 0 < depth) (solid : Solid tail) (long : lines.length < fuel)
    (state : BlockText) (index line : Nat) :
    ∃ final index' line', readBlockLines false depth fuel state
        ⟨first.characters ++ (BlockLine.written depth lines ++ tail), index, line, depth⟩ =
          some (final, ⟨tail, index', line', 0⟩) ∧
      final.Ends (state.text ++ state.lineBreak ++ state.emptyLines ++
        (first :: lines).flatMap BlockLine.characters) := by
  induction lines generalizing first state fuel index line with
  | nil =>
      obtain ⟨sound, _⟩ := List.forall_mem_cons.mp sound
      obtain ⟨fuel, rfl⟩ := Nat.exists_eq_add_one_of_ne_zero (Nat.ne_zero_of_lt long)
      obtain ⟨wasBlank, read⟩ := readBlockLines_line fuel sound positive state tail
        index line
      rw [readBlockBreaks_solid positive solid] at read
      refine ⟨_, _, _, read.trans (readBlockLines_end positive _ _ _), ?_⟩
      simpa using sound.ends (state.text ++ state.lineBreak ++ state.emptyLines) wasBlank
  | cons second lines ih =>
      obtain ⟨soundFirst, soundRest⟩ := List.forall_mem_cons.mp sound
      obtain ⟨fuel, rfl⟩ := Nat.exists_eq_add_one_of_ne_zero (Nat.ne_zero_of_lt long)
      have soundSecond := soundRest second List.mem_cons_self
      obtain ⟨character, others, begins⟩ := List.exists_cons_of_ne_nil soundSecond.nonempty
      have unbroken : isBreak character = false :=
        soundSecond.unbroken character (begins ▸ List.mem_cons_self)
      have more : BlockLine.written depth (second :: lines) ++ tail =
          indentation depth ++
            (second.characters ++ (BlockLine.written depth lines ++ tail)) := by
        simp [BlockLine.written]
      have head : (second.characters ++ (BlockLine.written depth lines ++ tail)).head? =
          some character := by
        simp [BlockLine.characters, begins]
      obtain ⟨wasBlank, read⟩ := readBlockLines_line fuel soundFirst positive state
        (BlockLine.written depth (second :: lines) ++ tail) index line
      rw [more, readBlockBreaks_indented positive head unbroken] at read
      obtain ⟨final, index', line', further, ends⟩ := ih soundRest (Nat.lt_of_succ_lt_succ long)
        ⟨state.text ++ state.lineBreak ++ state.emptyLines ++ first.line, [first.lineBreak],
          first.emptyLines, wasBlank⟩
        (index + first.line.length + 1 + first.emptyLines.length + depth)
        (line + 1 + first.emptyLines.length)
      refine ⟨final, index', line', ?_, ?_⟩
      · rw [more]
        exact read.trans further
      · simpa [BlockLine.characters] using ends

end Reading

section Header

open Spelling

/-- What the header of a block says about the breaks at its end. -/
def chompingOf (characters : List Char) : Chomping :=
  match characters.reverse with
  | [] => .strip
  | last :: before =>
    if !isBreak last then .strip
    else
      match before with
      | [] => .keep
      | other :: _ => if isBreak other then .keep else .clip

/-- The indentation that the header of a block tells, if it does. -/
def hintOf (characters : List Char) : Option Nat :=
  if characters.head?.any fun first => first = ' ' || isBreak first then some 2 else none

def chompingMark : Chomping → List Char
  | .strip => ['-']
  | .clip => []
  | .keep => ['+']

theorem blockHeader_eq (characters : List Char) :
    blockHeader characters =
      (if (hintOf characters).isSome then ['2'] else []) ++
        chompingMark (chompingOf characters) := by
  unfold blockHeader hintOf chompingOf
  dsimp only
  congr 1
  · split <;> rfl
  · cases characters.reverse with
    | nil => rfl
    | cons last before =>
        cases broken : isBreak last with
        | false => simp [broken, chompingMark]
        | true =>
            cases before with
            | nil => simp [broken, chompingMark]
            | cons other others =>
                cases again : isBreak other <;> simp [broken, again, chompingMark]

theorem readBlockHeader_eq (characters rest : List Char) (index line column : Nat) :
    ∃ index', readBlockHeader ⟨blockHeader characters ++ '\n' :: rest, index, line, column⟩ =
      some (chompingOf characters, hintOf characters, ⟨rest, index', line + 1, 0⟩) := by
  rw [blockHeader_eq]
  have hint : hintOf characters = none ∨ hintOf characters = some 2 := by
    unfold hintOf
    split
    · exact .inr rfl
    · exact .inl rfl
  rcases hint with hint | hint
  · rw [hint]
    cases chompingOf characters with
    | strip => exact ⟨_, rfl⟩
    | clip => exact ⟨_, rfl⟩
    | keep => exact ⟨_, rfl⟩
  · rw [hint]
    cases chompingOf characters with
    | strip => exact ⟨_, rfl⟩
    | clip => exact ⟨_, rfl⟩
    | keep => exact ⟨_, rfl⟩

/-- The breaks at the end of a text are where they are. -/
theorem eq_of_append_break {text ending front : List Char} {last : Char}
    (same : text ++ ending = front ++ [last]) (broken : isBreak last = true)
    (solid : ∀ character ∈ text.getLast?, isBreak character = false)
    (breaks : ∀ character ∈ ending, isBreak character = true)
    (before : ∀ character ∈ front.getLast?, isBreak character = false) :
    text = front ∧ ending = [last] := by
  rcases List.eq_nil_or_concat ending with rfl | ⟨others, final, rfl⟩
  · rw [List.append_nil] at same
    have ended := solid last (by simp [same])
    rw [broken] at ended
    cases ended
  · rw [List.concat_eq_append] at same breaks ⊢
    rw [← List.append_assoc] at same
    obtain ⟨rfl, final_eq⟩ := List.append_inj' same rfl
    obtain rfl := List.singleton_inj.mp final_eq
    rcases List.eq_nil_or_concat others with rfl | ⟨more, other, rfl⟩
    · exact ⟨(List.append_nil text).symm, rfl⟩
    · have isEnd : isBreak other = true := breaks other (by simp)
      have ended := before other (by simp)
      rw [isEnd] at ended
      cases ended

/-- What is kept of the breaks at the end of a block. -/
def BlockText.ending (state : BlockText) : Chomping → List Char
  | .strip => []
  | .clip => state.lineBreak
  | .keep => state.lineBreak ++ state.emptyLines

/-- A block gives back the text that its header was made for. -/
theorem BlockText.Ends.chomped {state : BlockText} {characters extra : List Char}
    (ends : state.Ends (characters ++ extra)) (nonempty : characters ≠ [])
    (extra_eq : extra = if characters.getLast?.any isBreak then [] else ['\n']) :
    state.text ++ state.ending (chompingOf characters) = characters := by
  obtain ⟨front, last, rfl⟩ := (List.eq_nil_or_concat characters).resolve_left nonempty
  rw [List.concat_eq_append] at *
  by_cases broken : isBreak last = true
  · have plain : extra = [] := by simp [extra_eq, broken]
    have whole := ends.whole_eq
    rw [plain, List.append_nil] at whole
    rcases List.eq_nil_or_concat front with rfl | ⟨others, other, rfl⟩
    · simpa [chompingOf, broken, ending] using whole
    · rw [List.concat_eq_append] at *
      by_cases again : isBreak other = true
      · simpa [chompingOf, broken, again, ending] using whole
      · have unbroken : isBreak other = false := by simpa using again
        obtain ⟨text, ending⟩ := eq_of_append_break whole broken ends.solid ends.breaks
          (by simpa using unbroken)
        rcases ends.single with ⟨void, _⟩ | single
        · rw [void] at text
          simp at text
        · obtain ⟨character, alone⟩ := List.length_eq_one_iff.mp single
          rw [alone, List.singleton_append, List.cons.injEq] at ending
          simp [chompingOf, broken, unbroken, BlockText.ending, text, alone, ending.1]
  · have unbroken : isBreak last = false := by simpa using broken
    have feed : extra = ['\n'] := by simp [extra_eq, unbroken]
    have whole := ends.whole_eq
    rw [feed] at whole
    obtain ⟨text, _⟩ := eq_of_append_break whole (by decide) ends.solid ends.breaks
      (by simpa using unbroken)
    simp [chompingOf, unbroken, ending, text]

end Header

section Whole

open Spelling

variable {column : Nat}

theorem blockBody_append_feed (beginsLine : Bool) (characters : List Char) :
    blockBody column beginsLine (characters ++ ['\n']) =
      blockBody column beginsLine characters ++ ['\n'] := by
  induction characters generalizing beginsLine with
  | nil => simp [blockBody, show isBreak '\n' = true by decide]
  | cons character others ih =>
      by_cases broken : isBreak character = true
      · rw [List.cons_append, blockBody_break broken, blockBody_break broken, ih,
          List.cons_append]
      · have unbroken : isBreak character = false := by simpa using broken
        rw [List.cons_append, blockBody_line unbroken, blockBody_line unbroken, ih]
        simp

theorem getLast?_blockBody (beginsLine : Bool) (characters : List Char) :
    (blockBody column beginsLine characters).getLast? = characters.getLast? := by
  induction characters generalizing beginsLine with
  | nil => rfl
  | cons character others ih =>
      have later (beginsLine : Bool) : (character :: blockBody column beginsLine others).getLast? =
          (character :: others).getLast? := by
        rw [List.getLast?_cons, List.getLast?_cons, ih]
      by_cases broken : isBreak character = true
      · rw [blockBody_break broken, later]
      · have unbroken : isBreak character = false := by simpa using broken
        have after := later false
        rw [List.getLast?_cons] at after
        rw [blockBody_line unbroken, List.getLast?_append, List.getLast?_cons, after]
        rfl

def withBreak (characters : List Char) : List Char :=
  characters ++ if characters.getLast?.any isBreak then [] else ['\n']

theorem endLine_block {characters : List Char} (nonempty : characters ≠ []) :
    endLine (block column characters) =
      '|' :: (blockHeader characters ++ '\n' :: blockBody column true (withBreak characters)) := by
  have last : (block column characters).getLast? = characters.getLast? := by
    obtain ⟨final, ended⟩ :=
      Option.ne_none_iff_exists'.mp (mt List.getLast?_eq_none_iff.mp nonempty)
    simp [block, List.getLast?_append, List.getLast?_cons, getLast?_blockBody, ended]
  rw [endLine, last, withBreak]
  split
  · simp [block]
  · simp [block, blockBody_append_feed]

variable {depth : Nat} {characters tail empty : List Char} {first : BlockLine}
  {lines : List BlockLine}

def toldDepth (depth : Nat) (characters : List Char) : Nat :=
  if (hintOf characters).isSome then depth else 0

theorem toldDepth_cases (depth : Nat) (characters : List Char) :
    toldDepth depth characters = depth ∧ hintOf characters = some 2 ∨
      toldDepth depth characters = 0 ∧ hintOf characters = none ∧
        ∀ first ∈ characters.head?, first ≠ ' ' ∧ isBreak first = false := by
  unfold toldDepth hintOf
  split
  · exact .inl ⟨rfl, rfl⟩
  · rename_i unhinted
    refine .inr ⟨rfl, rfl, ?_⟩
    intro first found
    simpa [Option.mem_def.mp found] using unhinted

theorem head?_withBreak (nonempty : characters ≠ []) :
    (withBreak characters).head? = characters.head? := by
  obtain ⟨character, others, rfl⟩ := List.exists_cons_of_ne_nil nonempty
  rfl

theorem head?_written (sound : first.Sound) (rest : List Char) :
    ∃ character, (first.characters ++ rest).head? = some character ∧
      isBreak character = false := by
  obtain ⟨character, others, begins⟩ := List.exists_cons_of_ne_nil sound.nonempty
  refine ⟨character, by simp [BlockLine.characters, begins], ?_⟩
  exact sound.unbroken character (begins ▸ List.mem_cons_self)

/-- The empty lines before a block and the indentation of its first line are read. -/
theorem readBlockBreaks_begin (tail : List Char)
    (cut : Cut depth (withBreak characters) empty (first :: lines))
    (printable : ∀ character ∈ characters, isPrintable character = true)
    (nonempty : characters ≠ []) (positive : 0 < depth) (index line : Nat) :
    ∃ index' line', readBlockBreaks (toldDepth depth characters)
        ((empty ++ BlockLine.written depth (first :: lines) ++ tail).length + 1) [] 0
        ⟨empty ++ BlockLine.written depth (first :: lines) ++ tail, index, line, 0⟩ =
      some (empty, depth, ⟨first.characters ++ (BlockLine.written depth lines ++ tail),
        index', line', depth⟩) := by
  have sound := cut.sound first List.mem_cons_self
  have more : BlockLine.written depth (first :: lines) ++ tail =
      indentation depth ++ (first.characters ++ (BlockLine.written depth lines ++ tail)) := by
    simp [BlockLine.written]
  obtain ⟨character, begins, unbroken⟩ :=
    head?_written sound (BlockLine.written depth lines ++ tail)
  rw [List.append_assoc, List.length_append, Nat.add_comm empty.length, Nat.add_right_comm]
  rcases toldDepth_cases depth characters with ⟨told, _⟩ | ⟨told, _, solid⟩
  · rw [told, readBlockBreaks_breaks cut.breaks positive, more,
      readBlockBreaks_indented positive begins unbroken, Nat.zero_max]
    exact ⟨_, _, rfl⟩
  · have head : (empty ++ (first :: lines).flatMap BlockLine.characters).head? =
        characters.head? := by
      rw [← cut.same, head?_withBreak nonempty]
    have void : empty = [] := by
      cases empty with
      | nil => rfl
      | cons lineBreak breaks =>
          have broken := (cut.breaks lineBreak List.mem_cons_self).1
          rw [(solid lineBreak head.symm).2] at broken
          cases broken
    subst void
    have same : characters.head? = some character := by
      rw [← head, ← begins]
      obtain ⟨other, others, line⟩ := List.exists_cons_of_ne_nil sound.nonempty
      simp [BlockLine.characters, line]
    have member : character ∈ characters := List.mem_of_mem_head? same
    have unblank : isBlank character = false := by
      rw [Bool.eq_false_iff, ne_eq, isBlank_iff_eq_space (printable character member)]
      exact (solid character same).1
    have visible : isGapChar character = false := by
      rw [isGapChar, unblank, unbroken]
      rfl
    rw [told, List.nil_append, List.length_nil, Nat.add_zero, more,
      readBlockBreaks_unknown begins visible]
    exact ⟨_, _, rfl⟩

theorem length_le_written (depth : Nat) (lines : List BlockLine) :
    lines.length ≤ (BlockLine.written depth lines).length := by
  induction lines with
  | nil => exact Nat.le_refl 0
  | cons first lines ih =>
      simp only [BlockLine.written, List.flatMap_cons, List.length_append, List.length_cons,
        BlockLine.characters] at ih ⊢
      omega

/-- The lines of a block are read as the text, cut before the breaks at its end. -/
theorem readBlock_body (cut : Cut depth (withBreak characters) empty lines)
    (printable : ∀ character ∈ characters, isPrintable character = true)
    (nonempty : characters ≠ []) (positive : 0 < depth) (solid : Solid tail) {least : Nat}
    (shallow : least ≤ depth) (index line : Nat) {rest : List Char}
    (body : rest = blockBody depth true (withBreak characters) ++ tail) :
    ∃ deepest cursor final index' line',
      readBlockBreaks (toldDepth depth characters) (rest.length + 1) [] 0
          ⟨rest, index, line, 0⟩ = some (empty, deepest, cursor) ∧
        (toldDepth depth characters = 0 → max (max deepest least) 1 = depth) ∧
        readBlockLines false depth (rest.length + 1) ⟨[], [], empty, false⟩ cursor =
          some (final, ⟨tail, index', line', 0⟩) ∧
        final.Ends (withBreak characters) := by
  rw [cut.atBegin] at body
  cases lines with
  | nil =>
      have whole : withBreak characters = empty := by simpa using cut.same
      have told : toldDepth depth characters = depth := by
        rcases toldDepth_cases depth characters with ⟨told, _⟩ | ⟨_, _, unbroken⟩
        · exact told
        · obtain ⟨character, others, rfl⟩ := List.exists_cons_of_ne_nil nonempty
          have member : character ∈ empty := by simp [← whole, withBreak]
          have broken := (cut.breaks character member).1
          rw [(unbroken character rfl).2] at broken
          cases broken
      subst body
      rw [told]
      simp only [BlockLine.written, List.flatMap_nil, List.append_nil]
      rw [List.length_append, Nat.add_comm empty.length, Nat.add_right_comm,
        readBlockBreaks_breaks cut.breaks positive, readBlockBreaks_solid positive solid]
      refine ⟨_, _, _, _, _, rfl, fun void => absurd void (Nat.ne_of_gt positive),
        readBlockLines_end positive _ _ _, ?_⟩
      exact ⟨whole.symm, by simp, fun character member => (cut.breaks character member).1,
        .inl ⟨rfl, rfl⟩⟩
  | cons first lines =>
      obtain ⟨index', line', begun⟩ :=
        readBlockBreaks_begin tail cut printable nonempty positive index line
      have long : lines.length < rest.length + 1 := by
        have short := length_le_written depth (first :: lines)
        rw [body, List.length_append, List.length_append]
        rw [List.length_cons] at short
        omega
      obtain ⟨final, index'', line'', read, ends⟩ := readBlockLines_lines cut.sound positive solid
        long ⟨[], [], empty, false⟩ index' line'
      rw [← body] at begun
      refine ⟨_, _, final, index'', line'', begun, fun _ => by omega, read, ?_⟩
      rw [cut.same]
      exact ends

theorem printable_of_allowsBlock (allows : allowsBlock characters = true) :
    ∀ character ∈ characters, isPrintable character = true := by
  simp only [allowsBlock, needsEscapes, Bool.and_eq_true, Bool.not_eq_true', Bool.or_eq_false_iff,
    List.any_eq_false] at allows
  simpa using allows.1.1

theorem printable_withBreak (printable : ∀ character ∈ characters, isPrintable character = true) :
    ∀ character ∈ withBreak characters, isPrintable character = true := by
  intro character member
  rcases List.mem_append.mp member with inside | added
  · exact printable character inside
  · have feed : character = '\n' := by
      split at added
      · cases added
      · simpa using added
    rw [feed]
    decide

theorem isBreak_getLast?_withBreak (characters : List Char) :
    ∀ last ∈ (withBreak characters).getLast?, isBreak last = true := by
  intro last found
  rw [withBreak] at found
  split at found
  · rename_i ended
    rw [List.append_nil] at found
    simpa [Option.mem_def.mp found] using ended
  · have feed : last = '\n' := by simpa using found.symm
    rw [feed]
    decide

/-- A block of lines is read back up to the next line. -/
theorem readBlock_endLine (allows : allowsBlock characters = true) (nonempty : characters ≠ [])
    (solid : Solid tail) (indent index line column : Nat) :
    ∃ index' line', readBlock false indent
        ⟨endLine (block (indent + 2) characters) ++ tail, index, line, column⟩ =
      some (.scalar .literal (String.ofList characters), ⟨tail, index', line', 0⟩) := by
  have printable := printable_of_allowsBlock allows
  obtain ⟨empty, lines, cut⟩ := exists_cut (indent + 2) (printable_withBreak printable)
    (isBreak_getLast?_withBreak characters)
  obtain ⟨headed, header⟩ := readBlockHeader_eq characters
    (blockBody (indent + 2) true (withBreak characters) ++ tail) (index + 1) line (column + 1)
  obtain ⟨deepest, cursor, final, index', line', begun, deep, read, ends⟩ :=
    readBlock_body cut printable nonempty (Nat.succ_pos _) solid (Nat.le_succ (indent + 1)) headed
      (line + 1) rfl
  have begin : (⟨endLine (block (indent + 2) characters) ++ tail, index, line, column⟩ :
      Cursor).skip 1 = ⟨blockHeader characters ++
        '\n' :: (blockBody (indent + 2) true (withBreak characters) ++ tail), index + 1, line,
        column + 1⟩ := by
    simp [endLine_block nonempty, Cursor.skip]
  have whole : readBlock false indent
        ⟨endLine (block (indent + 2) characters) ++ tail, index, line, column⟩ =
      some (.scalar .literal (String.ofList (final.text ++
        final.ending (chompingOf characters))), ⟨tail, index', line', 0⟩) := by
    rw [readBlock, begin, header]
    dsimp only [bind, Option.bind]
    rw [List.length_append] at begun read
    rcases toldDepth_cases (indent + 2) characters with ⟨told, hint⟩ | ⟨told, hint, _⟩
    · rw [told] at begun
      cases chompingOf characters <;> simp [hint, begun, read, BlockText.ending]
    · -- Without a hint the depth is found from the first line.
      have deepest_eq : max deepest (indent + 1) = indent + 2 := by
        have reached := deep told
        omega
      rw [told] at begun
      cases chompingOf characters <;> simp [hint, begun, deepest_eq, read, BlockText.ending]
  exact ⟨index', line', by rw [whole, ends.chomped nonempty rfl]⟩

end Whole

end Yaml

end Lineage
