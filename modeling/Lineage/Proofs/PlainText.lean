import Lineage.Proofs.Quoting

/-!
# Plain scalars

A text of one line may be written without quotes if no mark stands in it where
it would end the text.  Such a text is read back up to the end of its line, and
the name of an entry up to the colon after it.
-/

namespace Lineage

namespace Yaml

namespace Spelling

/-- A text of one line in which nothing ends a plain scalar; the second argument
says whether a blank comes before it. -/
structure Plain (afterGap : Bool) (characters : List Char) : Prop where
  printable : ∀ character ∈ characters, isPrintable character = true
  unbroken : ∀ character ∈ characters, isBreak character = false
  unmarked : hasInnerMark afterGap characters = false
  unspaced : characters.getLast? ≠ some ' '

section Plain

variable {character : Char} {others : List Char} {afterGap : Bool}

theorem Plain.tail (plain : Plain afterGap (character :: others)) :
    Plain (decide (character = ' ')) others where
  printable := fun other member => plain.printable other (List.mem_cons_of_mem character member)
  unbroken := fun other member => plain.unbroken other (List.mem_cons_of_mem character member)
  unmarked := by
    have printable := plain.printable character List.mem_cons_self
    have unbroken := plain.unbroken character List.mem_cons_self
    have visible : character ≠ '\x00' := ne_of_isPrintable printable (by decide)
    have blank : isBlank character = decide (character = ' ') := by
      rw [Bool.eq_iff_iff, isBlank_iff_eq_space printable, decide_eq_true_iff]
    have unmarked := plain.unmarked
    simp only [hasInnerMark, Bool.or_eq_false_iff] at unmarked
    simpa [unbroken, visible, blank] using unmarked.2
  unspaced := by
    have unspaced := plain.unspaced
    cases others with
    | nil => simp
    | cons other others => simpa using unspaced

theorem Plain.solid (plain : Plain afterGap (character :: others)) (other : character ≠ ' ') :
    isGapChar character = false := by
  have blank : isBlank character = false := by
    rw [Bool.eq_false_iff, ne_eq,
      isBlank_iff_eq_space (plain.printable character List.mem_cons_self)]
    exact other
  rw [isGapChar, blank, plain.unbroken character List.mem_cons_self]
  rfl

/-- A blank is not the last character. -/
theorem Plain.more (plain : Plain afterGap (' ' :: others)) : others ≠ [] := by
  rintro rfl
  exact plain.unspaced rfl

theorem Plain.within (plain : Plain afterGap (character :: others)) :
    Plain false (character :: others) where
  printable := plain.printable
  unbroken := plain.unbroken
  unmarked := by
    have unmarked := plain.unmarked
    simp only [hasInnerMark, Bool.or_eq_false_iff, Bool.and_false] at unmarked ⊢
    exact ⟨⟨unmarked.1.1, trivial⟩, unmarked.2⟩
  unspaced := plain.unspaced

theorem Plain.ne_hash (plain : Plain true (character :: others)) : character ≠ '#' := by
  have unmarked := plain.unmarked
  simp only [hasInnerMark, Bool.or_eq_false_iff, Bool.and_true, decide_eq_false_iff_not]
    at unmarked
  exact unmarked.1.2

/-- What follows a colon is neither a gap nor the end. -/
theorem Plain.solid_of_colon (plain : Plain afterGap (':' :: others)) :
    ∃ next rest, others = next :: rest ∧ isGapChar next = false := by
  have unmarked := plain.unmarked
  simp only [hasInnerMark, Bool.or_eq_false_iff] at unmarked
  cases others with
  | nil => simp [beginsWithGap] at unmarked
  | cons next rest =>
      have solid := unmarked.1.1
      simp only [beginsWithGap, decide_true, Bool.true_and, Bool.or_eq_false_iff] at solid
      exact ⟨next, rest, rfl, by simp [isGapChar, solid.1]⟩

end Plain

end Spelling

section Reading

open Spelling

variable {least : Nat} {tail : List Char}

def afterPlainGap (least fuel : Nat) (text : List Char) :
    Gap × Cursor → Option (List Char × Bool × Cursor)
  | (gap, cursor) =>
    if cursor.column < least then some (text, gap.hasBreak, cursor)
    else readPlain false least fuel text gap cursor

/-- What follows the reading of a piece of a plain scalar. -/
def afterPlainPiece (least fuel : Nat) (text : List Char) (gap : Gap) :
    List Char × Cursor → Option (List Char × Bool × Cursor)
  | (piece, cursor) =>
    let (text, gap) := if piece.isEmpty then (text, gap) else (text ++ gap.text ++ piece, Gap.none)
    if !(cursor.atBlank || cursor.atBreak) then some (text, gap.hasBreak, cursor)
    else
      (readGap least (cursor.rest.length + 1) gap cursor).bind (afterPlainGap least fuel text)

theorem readPlain_succ {cursor : Cursor} (fuel : Nat) (text : List Char) (gap : Gap)
    (unmarked : cursor.atDocumentMarker = false) (uncommented : cursor.isAt 0 '#' = false) :
    readPlain false least (fuel + 1) text gap cursor =
      (readPlainPiece false (cursor.rest.length + 1) [] cursor).bind
        (afterPlainPiece least fuel text gap) := by
  simp only [readPlain, unmarked, uncommented, Bool.or_self, Bool.false_eq_true, if_false,
    Bool.not_false, Bool.true_and, decide_eq_true_eq]
  rfl

/-- A piece goes on with a character that does not end it. -/
theorem readPlainPiece_solid {character : Char} (solid : isGapChar character = false)
    (rest : List Char) (goesOn : character = ':' → rest ≠ [] ∧ Solid rest) (fuel : Nat)
    (piece : List Char) (index line column : Nat) :
    readPlainPiece false (fuel + 1) piece ⟨character :: rest, index, line, column⟩ =
      readPlainPiece false fuel (character :: piece) ⟨rest, index + 1, line, column + 1⟩ := by
  have visible : isBlank character = false ∧ isBreak character = false := by
    simpa [isGapChar] using solid
  by_cases colon : character = ':'
  · subst colon
    obtain ⟨more, further⟩ := goesOn rfl
    obtain ⟨next, others, rfl⟩ := List.exists_cons_of_ne_nil more
    have nextVisible : isBlank next = false ∧ isBreak next = false := by
      simpa [isGapChar] using further next rfl
    simp [readPlainPiece, endsPlain, Cursor.isGap, Cursor.isAt, Cursor.at?, Cursor.skip, visible,
      nextVisible]
  · simp [readPlainPiece, endsPlain, Cursor.isGap, Cursor.isAt, Cursor.at?, Cursor.skip, visible,
      colon]

theorem readPlainPiece_gap {character : Char} (gap : isGapChar character = true) (fuel : Nat)
    (piece rest : List Char) (index line column : Nat) :
    readPlainPiece false (fuel + 1) piece ⟨character :: rest, index, line, column⟩ =
      some (piece.reverse, ⟨character :: rest, index, line, column⟩) := by
  simp only [isGapChar, Bool.or_eq_true] at gap
  simp [readPlainPiece, Cursor.isGap, Cursor.at?, gap]

/-- A piece that is not empty is followed by the gap at its end. -/
theorem bind_afterPlainPiece {character : Char} (gap : isGapChar character = true)
    {piece : List Char} (filled : piece ≠ []) (inner outer : Nat) (text : List Char) (before : Gap)
    (rest : List Char) (index line column : Nat) :
    (readPlainPiece false (inner + 1) piece ⟨character :: rest, index, line, column⟩).bind
        (afterPlainPiece least outer text before) =
      (readGap least (rest.length + 1 + 1) Gap.none
        ⟨character :: rest, index, line, column⟩).bind
          (afterPlainGap least outer (text ++ before.text ++ piece.reverse)) := by
  have follows : isBlank character = true ∨ isBreak character = true := Bool.or_eq_true_iff.mp gap
  rw [readPlainPiece_gap gap]
  rcases follows with blank | broken
  · simp [afterPlainPiece, Cursor.atBlank, Cursor.at?, filled, blank]
  · simp [afterPlainPiece, Cursor.atBlank, Cursor.atBreak, Cursor.at?, filled, broken]

/-- What reading a plain scalar up to the end of its line gives from inside a
piece on. -/
def ReadsPiece (least : Nat) (tail characters : List Char) : Prop :=
  Plain false characters → ∀ inner outer text gap piece index line column,
    (piece ≠ [] ∨ characters.head? ≠ some ' ' ∧ characters ≠ []) → characters.length < inner →
    characters.length < outer → least ≤ column → ∃ index',
      (readPlainPiece false inner piece ⟨characters ++ '\n' :: tail, index, line, column⟩).bind
        (afterPlainPiece least outer text gap) =
          some (text ++ gap.text ++ piece.reverse ++ characters, true, ⟨tail, index', line + 1, 0⟩)

/-- What it gives from inside a gap on. -/
def ReadsGap (least : Nat) (tail characters : List Char) : Prop :=
  Plain true characters → characters ≠ [] → ∀ fuel outer text blanks index line column,
    characters.length < fuel → characters.length + 1 < outer → least ≤ column →
      ∃ index',
        (readGap least fuel ⟨blanks, [], [], false⟩
          ⟨characters ++ '\n' :: tail, index, line, column⟩).bind
            (afterPlainGap least outer text) =
              some (text ++ blanks ++ characters, true, ⟨tail, index', line + 1, 0⟩)

/-- After a gap another piece begins. -/
theorem ReadsPiece.afterPlainGap {characters : List Char} (positive : 0 < least)
    (reads : ReadsPiece least tail characters) (plain : Plain true characters)
    (nonempty : characters ≠ []) (other : characters.head? ≠ some ' ') {outer : Nat}
    (fuel : characters.length + 1 < outer) (text : List Char) (gap : Gap)
    (index line column : Nat) (inside : least ≤ column) : ∃ index',
      afterPlainGap least outer text (gap, ⟨characters ++ '\n' :: tail, index, line, column⟩) =
        some (text ++ gap.text ++ characters, true, ⟨tail, index', line + 1, 0⟩) := by
  obtain ⟨outer, rfl⟩ := Nat.exists_eq_add_one_of_ne_zero (Nat.ne_zero_of_lt fuel)
  obtain ⟨character, others, rfl⟩ := List.exists_cons_of_ne_nil nonempty
  have right : column ≠ 0 := by omega
  have unmarked : (⟨(character :: others) ++ '\n' :: tail, index, line, column⟩ :
      Cursor).atDocumentMarker = false := by
    simp [Cursor.atDocumentMarker, right]
  have uncommented : (⟨(character :: others) ++ '\n' :: tail, index, line, column⟩ :
      Cursor).isAt 0 '#' = false := by
    simp [Cursor.isAt, Cursor.at?, plain.ne_hash]
  have further := reads plain.within ((character :: others ++ '\n' :: tail).length + 1) outer
    text gap [] index line column (.inr ⟨other, nonempty⟩) (length_lt_append _ _) (by omega) inside
  rw [Yaml.afterPlainGap, if_neg (Nat.not_lt.mpr inside),
    readPlain_succ outer text gap unmarked uncommented]
  simpa using further

theorem readsPlain (positive : 0 < least) (solid : Solid tail) (characters : List Char) :
    ReadsPiece least tail characters ∧ ReadsGap least tail characters := by
  -- A space leads from a piece into a gap and any other character back, so both go together.
  induction characters with
  | nil =>
      refine ⟨?_, fun _ more => absurd rfl more⟩
      intro _ inner outer text gap piece index line column begun fuel _ _
      have nonempty : piece ≠ [] := by simpa using begun
      obtain ⟨inner, rfl⟩ := Nat.exists_eq_add_one_of_ne_zero (Nat.ne_zero_of_lt fuel)
      refine ⟨index + 1, ?_⟩
      rw [List.nil_append, bind_afterPlainPiece (by decide) nonempty,
        readGap_break (by decide) (by decide), readGap_solid solid]
      simp [afterPlainGap, Gap.none, positive]
  | cons character others ih =>
      obtain ⟨fromPiece, fromGap⟩ := ih
      have piece : ReadsPiece least tail (character :: others) := by
        intro plain inner outer text gap piece index line column begun fuel outerFuel inside
        rw [List.length_cons] at fuel outerFuel
        obtain ⟨inner, rfl⟩ := Nat.exists_eq_add_one_of_ne_zero (Nat.ne_zero_of_lt fuel)
        by_cases space : character = ' '
        · subst space
          have nonempty : piece ≠ [] := by simpa using begun
          rw [List.cons_append, bind_afterPlainPiece (by decide) nonempty, readGap_space rfl]
          have further := fromGap (by simpa using plain.tail) plain.more
            ((others ++ '\n' :: tail).length + 1) outer (text ++ gap.text ++ piece.reverse) [' ']
            (index + 1) line (column + 1) (length_lt_append _ _) outerFuel (by omega)
          simpa [Gap.none] using further
        · have goesOn : character = ':' → others ++ '\n' :: tail ≠ [] ∧
              Solid (others ++ '\n' :: tail) := by
            rintro rfl
            obtain ⟨next, rest, rfl, solid⟩ := plain.solid_of_colon
            exact ⟨by simp, by simpa [Solid] using solid⟩
          have inPiece : Plain false others := by simpa [space] using plain.tail
          rw [List.cons_append, readPlainPiece_solid (plain.solid space) _ goesOn]
          have further := fromPiece inPiece inner outer text gap (character :: piece) (index + 1)
            line (column + 1) (.inl (by simp)) (by omega) (by omega) (by omega)
          simpa using further
      refine ⟨piece, ?_⟩
      intro plain _ fuel outer text blanks index line column inner outerFuel inside
      obtain ⟨fuel, rfl⟩ := Nat.exists_eq_add_one_of_ne_zero (Nat.ne_zero_of_lt inner)
      by_cases space : character = ' '
      · subst space
        rw [List.length_cons] at inner outerFuel
        rw [List.cons_append, readGap_space rfl]
        have further := fromGap (by simpa using plain.tail) plain.more fuel outer text
          (blanks ++ [' ']) (index + 1) line (column + 1) (by omega) (by omega) (by omega)
        simpa using further
      · have visible : Solid (character :: others ++ '\n' :: tail) := by
          simpa [Solid] using plain.solid space
        rw [readGap_solid visible]
        exact piece.afterPlainGap positive plain (by simp) (by simpa using space) outerFuel text _
          index line column inside

/-- A plain text is read up to the end of its line. -/
theorem readPlain_line {character : Char} {others : List Char} (positive : 0 < least)
    (solid : Solid tail) (plain : Plain true (character :: others)) (other : character ≠ ' ')
    {fuel : Nat} (long : (character :: others).length + 1 < fuel) (index line column : Nat)
    (inside : least ≤ column) : ∃ index',
      readPlain false least fuel [] Gap.none
          ⟨(character :: others) ++ '\n' :: tail, index, line, column⟩ =
        some (character :: others, true, ⟨tail, index', line + 1, 0⟩) := by
  have reads := (readsPlain positive solid (character :: others)).1
  have further := reads.afterPlainGap positive plain (by simp) (by simpa using other) long []
    Gap.none index line column inside
  rwa [afterPlainGap, if_neg (Nat.not_lt.mpr inside)] at further

/-- A text of characters that neither are gaps nor end a scalar. -/
def Unbroken (characters : List Char) : Prop :=
  ∀ character ∈ characters, isGapChar character = false ∧ character ≠ ':'

theorem readPlainPiece_key {name : List Char} (unbroken : Unbroken name) {gap : Char}
    (isGap : isGapChar gap = true) (fuel : Nat) (piece rest : List Char)
    (index line column : Nat) :
    readPlainPiece false (fuel + 1 + name.length) piece
        ⟨name ++ ':' :: gap :: rest, index, line, column⟩ =
      some (piece.reverse ++ name, ⟨':' :: gap :: rest, index + name.length, line,
        column + name.length⟩) := by
  induction name generalizing piece index column with
  | nil =>
      have visible : isBlank ':' = false ∧ isBreak ':' = false := by decide
      simp only [isGapChar, Bool.or_eq_true] at isGap
      simp [readPlainPiece, endsPlain, Cursor.isGap, Cursor.isAt, Cursor.at?, visible, isGap]
  | cons character name ih =>
      obtain ⟨⟨solid, other⟩, unbroken⟩ := List.forall_mem_cons.mp unbroken
      rw [List.length_cons, ← Nat.add_assoc, List.cons_append,
        readPlainPiece_solid solid _ fun colon => absurd colon other,
        ih unbroken (character :: piece) (index + 1) (column + 1)]
      simp [Nat.add_assoc, Nat.add_comm 1]

/-- The name of an entry is read up to its colon. -/
theorem readPlain_key {name : List Char} (unbroken : Unbroken name) (nonempty : name ≠ [])
    {gap : Char} (isGap : isGapChar gap = true) (fuel : Nat) (rest : List Char)
    (index line column : Nat)
    (unmarked : Cursor.atDocumentMarker ⟨name ++ ':' :: gap :: rest, index, line, column⟩ = false)
    (uncommented : name.head? ≠ some '#') :
    readPlain false least (fuel + 1) [] Gap.none
        ⟨name ++ ':' :: gap :: rest, index, line, column⟩ =
      some (name, false, ⟨':' :: gap :: rest, index + name.length, line,
        column + name.length⟩) := by
  have begins : (⟨name ++ ':' :: gap :: rest, index, line, column⟩ : Cursor).isAt 0 '#' =
      false := by
    obtain ⟨character, others, rfl⟩ := List.exists_cons_of_ne_nil nonempty
    simpa [Cursor.isAt, Cursor.at?] using uncommented
  have length : (name ++ ':' :: gap :: rest).length + 1 =
      rest.length + 2 + 1 + name.length := by
    simp only [List.length_append, List.length_cons]
    omega
  have visible : isBlank ':' = false ∧ isBreak ':' = false := by decide
  rw [readPlain_succ fuel [] Gap.none unmarked begins]
  simp only [length]
  rw [readPlainPiece_key unbroken isGap]
  simp [afterPlainPiece, Cursor.atBlank, Cursor.atBreak, Cursor.at?, Gap.none, Gap.text, nonempty,
    visible]

end Reading

section Allowed

open Spelling

variable {character : Char} {others characters : List Char}

/-- What keeps a text from being plain. -/
theorem allowsPlain_cons (allows : allowsPlain (character :: others) = true) :
    (∀ other ∈ character :: others, isPrintable other = true ∧ isBreak other = false) ∧
      character ≠ ' ' ∧ (character :: others).getLast? ≠ some ' ' ∧
      hasMark (character :: others) = false := by
  simp only [allowsPlain, allowsSingleQuotes, needsEscapes, Bool.and_eq_true, Bool.not_eq_true',
    Bool.or_eq_false_iff, List.any_eq_false, decide_eq_true_eq, Bool.not_eq_false] at allows
  obtain ⟨⟨⟨⟨⟨⟨printable, _⟩, _⟩, unbroken⟩, first⟩, last⟩, unmarked⟩ := allows
  refine ⟨fun other member => ⟨?_, ?_⟩, by simpa using first, last, unmarked⟩
  · simpa using printable other member
  · simpa using unbroken other member

theorem plain_of_allowsPlain (allows : allowsPlain (character :: others) = true) :
    Plain true (character :: others) := by
  obtain ⟨inside, _, last, unmarked⟩ := allowsPlain_cons allows
  refine ⟨fun other member => (inside other member).1, fun other member => (inside other member).2,
    ?_, last⟩
  have visible : character ≠ '\x00' :=
    ne_of_isPrintable (inside character List.mem_cons_self).1 (by decide)
  simp only [hasMark, Bool.or_eq_false_iff] at unmarked
  obtain ⟨_, ⟨indicator, leading⟩, inner⟩ := unmarked
  have colon : (decide (character = ':') && beginsWithGap others) = false := by
    rw [Bool.and_eq_false_iff] at leading ⊢
    refine leading.imp_left fun unlisted => ?_
    rw [decide_eq_false_iff_not]
    rintro rfl
    exact absurd unlisted (by decide)
  have hash : character ≠ '#' := by
    rintro rfl
    exact absurd indicator (by decide)
  simp [hasInnerMark, colon, hash, visible, inner]

end Allowed

section Words

open Spelling

variable {character : Char} {characters others : List Char}

theorem ne_of_isWord {other : Char} (word : isWord character = true)
    (unword : isWord other = false) : character ≠ other := by
  rintro rfl
  rw [word] at unword
  cases unword

theorem not_mem_of_isWord (word : isWord character = true) {marks : List Char}
    (unword : marks.any isWord = false) : character ∉ marks := by
  intro member
  exact List.any_eq_false.mp unword character member word

theorem isGapChar_of_isWord (word : isWord character = true) : isGapChar character = false := by
  have other {mark : Char} (unword : isWord mark = false) : character ≠ mark :=
    ne_of_isWord word unword
  simp [isGapChar, isBlank, isBreak, other (show isWord ' ' = false by decide),
    other (show isWord '\t' = false by decide), other (show isWord '\n' = false by decide),
    other (show isWord '\r' = false by decide), other (show isWord '\u0085' = false by decide),
    other (show isWord '\u2028' = false by decide), other (show isWord '\u2029' = false by decide)]

theorem isPrintable_of_isWord (word : isWord character = true) : isPrintable character = true := by
  have range : 0x20 ≤ character.toNat ∧ character.toNat ≤ 0x7E := by
    simp only [isWord, Bool.or_eq_true, Bool.and_eq_true, decide_eq_true_eq] at word
    rcases word with (((⟨low, high⟩ | ⟨low, high⟩) | ⟨low, high⟩) | rfl) | rfl
    · have low : 48 ≤ character.toNat := low
      have high : character.toNat ≤ 57 := high
      omega
    · have low : 97 ≤ character.toNat := low
      have high : character.toNat ≤ 122 := high
      omega
    · have low : 65 ≤ character.toNat := low
      have high : character.toNat ≤ 90 := high
      omega
    · decide
    · decide
  simp [isPrintable, range]

theorem hasNeighbours_eq_false {first second : Char → Bool}
    (none : ∀ character ∈ characters, first character = false) :
    hasNeighbours first second characters = false := by
  rw [hasNeighbours, List.any_eq_false]
  intro pair member
  have left := none pair.1 (List.of_mem_zip member).1
  simp [left]

theorem hasInnerMark_eq_false (words : ∀ character ∈ characters, isWord character = true)
    (afterGap : Bool) : hasInnerMark afterGap characters = false := by
  induction characters generalizing afterGap with
  | nil => rfl
  | cons character others ih =>
      obtain ⟨word, words⟩ := List.forall_mem_cons.mp words
      have colon : character ≠ ':' := ne_of_isWord word (by decide)
      have hash : character ≠ '#' := ne_of_isWord word (by decide)
      simp [hasInnerMark, colon, hash, ih words]

/-- A word that does not begin with a dash may be written plainly. -/
theorem allowsPlain_of_words (words : ∀ character ∈ characters, isWord character = true)
    (other : characters.head? ≠ some '-') : allowsPlain characters = true := by
  have unspaced (character : Char) (member : character ∈ characters) : character ≠ ' ' :=
    ne_of_isWord (words character member) (by decide)
  have unbroken (character : Char) (member : character ∈ characters) :
      isBreak character = false := by
    have solid := isGapChar_of_isWord (words character member)
    rw [isGapChar, Bool.or_eq_false_iff] at solid
    exact solid.2
  have quotes : allowsSingleQuotes characters = true := by
    have first : hasNeighbours isSpace isBreak characters = false :=
      hasNeighbours_eq_false fun character member => by simp [isSpace, unspaced character member]
    have second : hasNeighbours isBreak isSpace characters = false :=
      hasNeighbours_eq_false unbroken
    have printable : (characters.any fun character => !isPrintable character) = false := by
      rw [List.any_eq_false]
      intro character member
      simp [isPrintable_of_isWord (words character member)]
    simp [allowsSingleQuotes, needsEscapes, first, second, printable]
  have lines : characters.any isBreak = false := by
    rw [List.any_eq_false]
    intro character member
    simp [unbroken character member]
  have begins : characters.head? ≠ some ' ' := fun found =>
    unspaced ' ' (List.mem_of_mem_head? found) rfl
  have ends : characters.getLast? ≠ some ' ' := fun found =>
    unspaced ' ' (List.mem_of_mem_getLast? found) rfl
  have unmarked : hasMark characters = false := by
    cases characters with
    | nil => rfl
    | cons first others =>
        obtain ⟨word, words⟩ := List.forall_mem_cons.mp words
        have dash : first ≠ '-' := by simpa using other
        have dot : first ≠ '.' := ne_of_isWord word (by decide)
        have indicator : first ∉ ['#', ',', '[', ']', '{', '}', '&', '*', '!', '|', '>', '\'', '"',
            '%', '@', '\u0060'] := not_mem_of_isWord word (by decide)
        have leading : first ∉ ['?', ':'] := not_mem_of_isWord word (by decide)
        simp only [List.mem_cons, List.not_mem_nil, or_false, not_or] at indicator leading
        simp [hasMark, dash, dot, indicator, leading, hasInnerMark_eq_false words]
  simp [allowsPlain, quotes, lines, begins, ends, unmarked]

end Words

end Yaml

end Lineage
