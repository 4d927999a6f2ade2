import Lineage.Yaml.Printer
import Lineage.Yaml.Token.Scalar
import Mathlib.Algebra.Group.Nat.Defs

/-!
# Quoted scalars

Between quotes most characters stand for themselves.  A quote is doubled or
escaped, characters without a visible form are escaped, and a break that is not
a line feed may stand as it is if the next line is indented.  A text that is
spelled by these rules is read back as it was.
-/

namespace Lineage

namespace Yaml

def isGapChar (character : Char) : Bool :=
  isBlank character || isBreak character

/-- A text that does not begin with a blank or a break. -/
def Solid (characters : List Char) : Prop :=
  ∀ character ∈ characters.head?, isGapChar character = false

theorem length_lt_append (front back : List Char) : front.length < (front ++ back).length + 1 :=
  Nat.lt_succ_of_le (List.prefix_append front back).length_le

namespace Spelling

section Characters

variable {character : Char}

/-- Surrogates are no characters. -/
theorem toNat_range (character : Char) :
    character.toNat < 0xD800 ∨ (0xDFFF < character.toNat ∧ character.toNat < 0x110000) :=
  character.valid

theorem isAllowed_of_isPrintable (printable : isPrintable character = true) :
    isAllowed character = true := by
  simp only [isPrintable, isAllowed, Bool.or_eq_true, Bool.and_eq_true, decide_eq_true_eq]
    at printable ⊢
  omega

theorem ne_of_isPrintable {other : Char} (printable : isPrintable character = true)
    (unprintable : isPrintable other = false) : character ≠ other := by
  rintro rfl
  rw [printable] at unprintable
  cases unprintable

theorem isBlank_iff_eq_space (printable : isPrintable character = true) :
    isBlank character = true ↔ character = ' ' := by
  have tab : character ≠ '\t' := ne_of_isPrintable printable (by decide)
  simp [isBlank, tab]

/-- A printable break stands for itself. -/
theorem readBreak_of_isPrintable (printable : isPrintable character = true)
    (breaks : isBreak character = true) (rest : List Char) (index line column : Nat) :
    Cursor.readBreak ⟨character :: rest, index, line, column⟩ =
      ([character], ⟨rest, index + 1, line + 1, 0⟩) := by
  have carriage : character ≠ '\r' := ne_of_isPrintable printable (by decide)
  have next : character ≠ '\u0085' := ne_of_isPrintable printable (by decide)
  by_cases feed : character = '\n'
  · subst feed
    rfl
  · simp [Cursor.readBreak, carriage, next, feed, breaks, Cursor.nextLine]

end Characters

end Spelling

/-- How one character may be written between quotes. -/
inductive Quotes (quote : Char) : List Char → Char → Prop
  | itself {character : Char} (solid : isGapChar character = false) (other : character ≠ quote)
      (unescaped : quote = '"' → character ≠ '\\') : Quotes quote [character] character
  | doubled (single : quote = '\'') : Quotes quote ['\'', '\''] '\''
  | letter {letter character : Char} (double : quote = '"')
      (means : simpleEscape? letter = some character) (visible : isBreak letter = false) :
      Quotes quote ['\\', letter] character
  | numeral {letter character : Char} {digits : List Char} (double : quote = '"')
      (long : escapeLength? letter = some digits.length)
      (value : digits.foldlM (fun value digit =>
        (Natural.digitValue? 16 digit).map fun digit => value * 16 + digit) 0 =
          some character.toNat) :
      Quotes quote ('\\' :: letter :: digits) character

theorem Quotes.length_pos {quote character : Char} {written : List Char}
    (quotes : Quotes quote written character) : 0 < written.length := by
  cases quotes <;> simp

theorem Quotes.solid {quote character : Char} {written : List Char}
    (quotes : Quotes quote written character) (rest : List Char) : Solid (written ++ rest) := by
  intro first found
  cases quotes with
  | itself solid =>
      cases found
      exact solid
  | _ =>
      cases found
      decide

/-- What comes before a position between quotes: a piece of text, or a gap of
blanks or of breaks. -/
inductive QuotedPlace where
  | piece
  | blanks
  | breaks

/-- A text as it may be written between quotes from some place on. -/
inductive Quoted (quote : Char) : QuotedPlace → List Char → List Char → Prop
  | nil : Quoted quote .piece [] []
  | cons {written rest : List Char} {character : Char} {others : List Char}
      (first : Quotes quote written character) (tail : Quoted quote .piece rest others) :
      Quoted quote .piece (written ++ rest) (character :: others)
  | blank {place : QuotedPlace} {rest others : List Char} (before : place ≠ .breaks)
      (tail : Quoted quote .blanks rest others) :
      Quoted quote place (' ' :: rest) (' ' :: others)
  | resume {written others : List Char} (solid : Solid written)
      (tail : Quoted quote .piece written others) : Quoted quote .blanks written others
  | lineBreak {place : QuotedPlace} {rest others : List Char} {character : Char}
      (before : place ≠ .blanks) (breaks : isBreak character = true)
      (printable : Spelling.isPrintable character = true) (other : character ≠ '\n')
      (tail : Quoted quote .breaks rest others) :
      Quoted quote place (character :: rest) (character :: others)
  | indented {written others : List Char} {column : Nat} (solid : Solid written)
      (positive : 0 < column) (tail : Quoted quote .piece written others) :
      Quoted quote .breaks (Spelling.indentation column ++ written) others

section Piece

variable {quote : Char}

/-- What follows the reading of a gap. -/
def afterGap (quote : Char) (fuel : Nat) (text : List Char) :
    Gap × Cursor → Option (List Char × Cursor)
  | (gap, cursor) => readQuoted quote fuel (text ++ gap.text) cursor

/-- What follows the reading of a piece. -/
def afterPiece (quote : Char) (fuel : Nat) (text : List Char) :
    List Char × Bool × Cursor → Option (List Char × Cursor)
  | (piece, hasBreak, cursor) =>
    if cursor.isAt 0 quote then some (text ++ piece, cursor.skip 1)
    else
      (readGap 0 (cursor.rest.length + 1) { Gap.none with hasBreak } cursor).bind
        (afterGap quote fuel (text ++ piece))

theorem readQuoted_succ {cursor : Cursor} (fuel : Nat) (text : List Char)
    (inside : cursor.column ≠ 0) (more : cursor.rest ≠ []) :
    readQuoted quote (fuel + 1) text cursor =
      (readQuotedPiece quote (cursor.rest.length + 1) [] cursor).bind
        (afterPiece quote fuel text) := by
  have unmarked : cursor.atDocumentMarker = false := by simp [Cursor.atDocumentMarker, inside]
  have unended : cursor.atEnd = false := by simp [Cursor.atEnd, more]
  simp only [readQuoted, unmarked, unended, Bool.or_self, Bool.false_eq_true, if_false]
  rfl

theorem readEscape_letter {letter character : Char} (means : simpleEscape? letter = some character)
    (rest : List Char) (index line column : Nat) :
    readEscape ⟨'\\' :: letter :: rest, index, line, column⟩ =
      some (character, ⟨rest, index + 2, line, column + 2⟩) := by
  simp [readEscape, Cursor.at?, Cursor.skip, means]

theorem readEscape_numeral {letter : Char} {digits : List Char}
    (long : escapeLength? letter = some digits.length) {character : Char}
    (value : digits.foldlM (fun value digit =>
      (Natural.digitValue? 16 digit).map fun digit => value * 16 + digit) 0 =
        some character.toNat)
    (rest : List Char) (index line column : Nat) :
    readEscape ⟨'\\' :: letter :: (digits ++ rest), index, line, column⟩ =
      some (character, ⟨rest, index + (digits.length + 1 + 1), line,
        column + (digits.length + 1 + 1)⟩) := by
  have unnamed : simpleEscape? letter = none := by
    unfold escapeLength? at long
    split at long <;> first | rfl | cases long
  have range := Spelling.toNat_range character
  have behind : ('\\' :: letter :: (digits ++ rest)).drop (digits.length + 1 + 1) = rest := by
    simp
  have length : 2 + digits.length = digits.length + 1 + 1 := by omega
  simp [readEscape, Cursor.at?, Cursor.skip, unnamed, long, value, length, behind]
  omega

/-- A character that is written by the rules is read as one of the piece. -/
theorem readQuotedPiece_quotes {written : List Char} {character : Char}
    (first : Quotes quote written character) (fuel : Nat) (piece rest : List Char)
    (index line column : Nat) :
    readQuotedPiece quote (fuel + 1) piece ⟨written ++ rest, index, line, column⟩ =
      readQuotedPiece quote fuel (character :: piece)
        ⟨rest, index + written.length, line, column + written.length⟩ := by
  cases first with
  | itself solid other unescaped =>
      simp only [isGapChar, Bool.or_eq_false_iff] at solid
      have undoubled : (quote = '\'' && decide (some character = some '\'')) = false := by
        by_cases single : quote = '\''
        · subst single
          simp [other]
        · simp [single]
      have plain : (quote = '"' && decide (some character = some '\\')) = false := by
        by_cases double : quote = '"'
        · simp [unescaped double]
        · simp [double]
      simp only [Option.some.injEq] at undoubled plain
      simp [readQuotedPiece, Cursor.isGap, Cursor.isAt, Cursor.at?, Cursor.skip, solid, other,
        undoubled, plain]
  | doubled single =>
      subst single
      have solid : isBlank '\'' = false ∧ isBreak '\'' = false := by decide
      simp [readQuotedPiece, Cursor.isGap, Cursor.isAt, Cursor.at?, Cursor.skip, solid]
  | letter double means visible =>
      subst double
      have solid : isBlank '\\' = false ∧ isBreak '\\' = false := by decide
      simp [readQuotedPiece, Cursor.isGap, Cursor.isAt, Cursor.at?, solid, visible,
        readEscape_letter means]
  | numeral double long value =>
      rename_i letter digits
      subst double
      have solid : isBlank '\\' = false ∧ isBreak '\\' = false := by decide
      have visible : isBreak letter = false := by
        unfold escapeLength? at long
        split at long <;> first | decide | cases long
      have escape := readEscape_numeral long value rest index line column
      simp [readQuotedPiece, Cursor.isGap, Cursor.isAt, Cursor.at?, solid, visible, escape]

end Piece

section Gap

variable {least fuel : Nat} {gap : Gap} {rest : List Char} {index line column : Nat}

theorem readGap_solid (solid : Solid rest) :
    readGap least (fuel + 1) gap ⟨rest, index, line, column⟩ =
      some (gap, ⟨rest, index, line, column⟩) := by
  cases rest with
  | nil => simp [readGap, Cursor.at?]
  | cons character rest =>
      have visible : isBlank character = false ∧ isBreak character = false := by
        simpa [isGapChar] using solid character rfl
      simp [readGap, Cursor.at?, visible]

theorem readGap_space (before : gap.hasBreak = false) :
    readGap least (fuel + 1) gap ⟨' ' :: rest, index, line, column⟩ =
      readGap least fuel { gap with blanks := gap.blanks ++ [' '] }
        ⟨rest, index + 1, line, column + 1⟩ := by
  have blank : isBlank ' ' = true := by decide
  simp [readGap, Cursor.at?, Cursor.skip, blank, before]

theorem readGap_indentation (count : Nat) (after : gap.hasBreak = true) :
    readGap least (fuel + count) gap
        ⟨Spelling.indentation count ++ rest, index, line, column⟩ =
      readGap least fuel gap ⟨rest, index + count, line, column + count⟩ := by
  have blank : isBlank ' ' = true := by decide
  induction count generalizing index column with
  | zero => simp [Spelling.indentation]
  | succ count ih =>
      have step : readGap least (fuel + (count + 1)) gap
            ⟨' ' :: (Spelling.indentation count ++ rest), index, line, column⟩ =
          readGap least (fuel + count) gap
            ⟨Spelling.indentation count ++ rest, index + 1, line, column + 1⟩ := by
        rw [← Nat.add_assoc]
        simp [readGap, Cursor.at?, Cursor.skip, blank, after]
      rw [Spelling.indentation, List.replicate_succ, List.cons_append]
      rw [Spelling.indentation] at step ih
      rw [step, ih, Nat.add_right_comm index, Nat.add_right_comm column]
      rfl

theorem readGap_break {character : Char} (printable : Spelling.isPrintable character = true)
    (breaks : isBreak character = true) :
    readGap least (fuel + 1) gap ⟨character :: rest, index, line, column⟩ =
      readGap least fuel
        (if gap.hasBreak then { gap with otherBreaks := gap.otherBreaks ++ [character] }
          else { gap with firstBreak := [character], hasBreak := true })
        ⟨rest, index + 1, line + 1, 0⟩ := by
  have unblank : isBlank character = false := by
    have space : character ≠ ' ' := by
      rintro rfl
      exact absurd breaks (by decide)
    rw [Bool.eq_false_iff, ne_eq, Spelling.isBlank_iff_eq_space printable]
    exact space
  have read := Spelling.readBreak_of_isPrintable printable breaks rest index line column
  cases before : gap.hasBreak with
  | false => simp [readGap, Cursor.at?, breaks, unblank, read, before]
  | true => simp [readGap, Cursor.at?, breaks, unblank, read, before]

end Gap

section Reading

variable {quote : Char} {tail : List Char} {place : QuotedPlace} {written meant : List Char}

/-- What reading a quoted text from a place on gives, whatever has been read. -/
def ReadsQuoted (quote : Char) (tail written meant : List Char) : QuotedPlace → Prop
  | .piece => ∀ inner outer text piece index line column, written.length < inner →
      written.length < outer → column ≠ 0 → ∃ index' line' column',
        (readQuotedPiece quote inner piece ⟨written ++ quote :: tail, index, line, column⟩).bind
          (afterPiece quote outer text) =
            some (text ++ piece.reverse ++ meant, ⟨tail, index', line', column'⟩)
  | .blanks => ∀ fuel outer text blanks index line column, written.length < fuel →
      written.length + 1 < outer → column ≠ 0 → ∃ index' line' column',
        (readGap 0 fuel ⟨blanks, [], [], false⟩
          ⟨written ++ quote :: tail, index, line, column⟩).bind (afterGap quote outer text) =
            some (text ++ blanks ++ meant, ⟨tail, index', line', column'⟩)
  | .breaks => ∀ fuel outer text blanks first others index line column, written.length < fuel →
      written.length + 1 < outer → first ≠ '\n' → ∃ index' line' column',
        (readGap 0 fuel ⟨blanks, [first], others, true⟩
          ⟨written ++ quote :: tail, index, line, column⟩).bind (afterGap quote outer text) =
            some (text ++ first :: others ++ meant, ⟨tail, index', line', column'⟩)

/-- A piece ends at a gap. -/
theorem readQuotedPiece_gap {character : Char} (gap : isGapChar character = true) (fuel : Nat)
    (piece rest : List Char) (index line column : Nat) :
    readQuotedPiece quote (fuel + 1) piece ⟨character :: rest, index, line, column⟩ =
      some (piece.reverse, false, ⟨character :: rest, index, line, column⟩) := by
  simp only [isGapChar, Bool.or_eq_true] at gap
  simp [readQuotedPiece, Cursor.isGap, Cursor.at?, gap]

/-- A piece ends at the closing quote. -/
theorem readQuotedPiece_quote (mark : isGapChar quote = false) (closed : tail.head? ≠ some '\'')
    (fuel : Nat) (piece : List Char) (index line column : Nat) :
    readQuotedPiece quote (fuel + 1) piece ⟨quote :: tail, index, line, column⟩ =
      some (piece.reverse, false, ⟨quote :: tail, index, line, column⟩) := by
  have visible : isBlank quote = false ∧ isBreak quote = false := by
    simpa [isGapChar] using mark
  have undoubled : tail[0]? ≠ some '\'' := by
    rwa [← List.head?_eq_getElem?]
  simp [readQuotedPiece, Cursor.isGap, Cursor.isAt, Cursor.at?, visible, undoubled]

theorem solid_append (mark : isGapChar quote = false) (solid : Solid written) :
    Solid (written ++ quote :: tail) := by
  cases written with
  | nil =>
      intro character found
      cases found
      exact mark
  | cons first rest => exact solid

/-- A piece that ends at a gap is followed by it. -/
theorem bind_afterPiece_gap {character : Char} (mark : isGapChar quote = false)
    (gap : isGapChar character = true) (inner outer : Nat) (text piece rest : List Char)
    (index line column : Nat) :
    (readQuotedPiece quote (inner + 1) piece ⟨character :: rest, index, line, column⟩).bind
        (afterPiece quote outer text) =
      (readGap 0 (rest.length + 1 + 1) Gap.none ⟨character :: rest, index, line, column⟩).bind
        (afterGap quote outer (text ++ piece.reverse)) := by
  have other : character ≠ quote := by
    rintro rfl
    rw [mark] at gap
    cases gap
  rw [readQuotedPiece_gap gap]
  simp [afterPiece, Cursor.isAt, Cursor.at?, other, Gap.none]

/-- After a gap another piece begins. -/
theorem ReadsQuoted.afterGap (reads : ReadsQuoted quote tail written meant .piece)
    {outer : Nat} (fuel : written.length + 1 < outer) (text : List Char) (gap : Gap)
    (index line column : Nat) (inside : column ≠ 0) :
    ∃ index' line' column',
      afterGap quote outer text (gap, ⟨written ++ quote :: tail, index, line, column⟩) =
        some (text ++ gap.text ++ meant, ⟨tail, index', line', column'⟩) := by
  obtain ⟨outer, rfl⟩ := Nat.exists_eq_add_one_of_ne_zero (Nat.ne_zero_of_lt fuel)
  have further := reads ((written ++ quote :: tail).length + 1) outer (text ++ gap.text) []
    index line column (length_lt_append _ _) (by omega) inside
  rw [Yaml.afterGap, readQuoted_succ outer _ inside (by simp)]
  simpa using further

section Steps

variable {character : Char} {rest meant : List Char}

theorem readsQuoted_nil (mark : isGapChar quote = false) (closed : tail.head? ≠ some '\'') :
    ReadsQuoted quote tail [] [] .piece := by
  intro inner outer text piece index line column fuel _ _
  obtain ⟨inner, rfl⟩ := Nat.exists_eq_add_one_of_ne_zero (Nat.ne_zero_of_lt fuel)
  refine ⟨index + 1, line, column + 1, ?_⟩
  rw [List.nil_append, readQuotedPiece_quote mark closed]
  simp [afterPiece, Cursor.isAt, Cursor.at?, Cursor.skip]

theorem ReadsQuoted.cons (reads : ReadsQuoted quote tail rest meant .piece)
    (first : Quotes quote written character) :
    ReadsQuoted quote tail (written ++ rest) (character :: meant) .piece := by
  intro inner outer text piece index line column fuel outerFuel inside
  have positive := first.length_pos
  rw [List.length_append] at fuel outerFuel
  obtain ⟨inner, rfl⟩ := Nat.exists_eq_add_one_of_ne_zero (Nat.ne_zero_of_lt fuel)
  rw [List.append_assoc, readQuotedPiece_quotes first]
  have further := reads inner outer text (character :: piece) (index + written.length) line
    (column + written.length) (by omega) (by omega) (by omega)
  simpa only [List.reverse_cons, List.append_assoc, List.singleton_append] using further

theorem ReadsQuoted.blank (reads : ReadsQuoted quote tail rest meant .blanks)
    (mark : isGapChar quote = false) (before : place ≠ .breaks) :
    ReadsQuoted quote tail (' ' :: rest) (' ' :: meant) place := by
  cases place with
  | piece =>
      intro inner outer text piece index line column fuel outerFuel inside
      rw [List.length_cons] at outerFuel
      obtain ⟨inner, rfl⟩ := Nat.exists_eq_add_one_of_ne_zero (Nat.ne_zero_of_lt fuel)
      rw [List.cons_append, bind_afterPiece_gap mark (by decide), readGap_space rfl]
      have further := reads ((rest ++ quote :: tail).length + 1) outer (text ++ piece.reverse)
        [' '] (index + 1) line (column + 1) (length_lt_append _ _) outerFuel (Nat.succ_ne_zero _)
      simpa [Gap.none] using further
  | blanks =>
      intro fuel outer text blanks index line column inner outerFuel inside
      rw [List.length_cons] at inner outerFuel
      obtain ⟨fuel, rfl⟩ := Nat.exists_eq_add_one_of_ne_zero (Nat.ne_zero_of_lt inner)
      rw [List.cons_append, readGap_space rfl]
      have further := reads fuel outer text (blanks ++ [' ']) (index + 1) line (column + 1)
        (by omega) (by omega) (Nat.succ_ne_zero _)
      simpa using further
  | breaks => exact absurd rfl before

theorem ReadsQuoted.resume (reads : ReadsQuoted quote tail written meant .piece)
    (mark : isGapChar quote = false) (solid : Solid written) :
    ReadsQuoted quote tail written meant .blanks := by
  intro fuel outer text blanks index line column inner outerFuel inside
  obtain ⟨fuel, rfl⟩ := Nat.exists_eq_add_one_of_ne_zero (Nat.ne_zero_of_lt inner)
  rw [readGap_solid (solid_append mark solid)]
  exact reads.afterGap outerFuel text _ index line column inside

theorem ReadsQuoted.lineBreak (reads : ReadsQuoted quote tail rest meant .breaks)
    (mark : isGapChar quote = false) (before : place ≠ .blanks)
    (breaks : isBreak character = true) (printable : Spelling.isPrintable character = true)
    (other : character ≠ '\n') :
    ReadsQuoted quote tail (character :: rest) (character :: meant) place := by
  have gap : isGapChar character = true := by simp [isGapChar, breaks]
  cases place with
  | piece =>
      intro inner outer text piece index line column fuel outerFuel inside
      rw [List.length_cons] at outerFuel
      obtain ⟨inner, rfl⟩ := Nat.exists_eq_add_one_of_ne_zero (Nat.ne_zero_of_lt fuel)
      rw [List.cons_append, bind_afterPiece_gap mark gap, readGap_break printable breaks]
      have further := reads ((rest ++ quote :: tail).length + 1) outer (text ++ piece.reverse)
        [] character [] (index + 1) (line + 1) 0 (length_lt_append _ _) outerFuel other
      simpa [Gap.none] using further
  | blanks => exact absurd rfl before
  | breaks =>
      intro fuel outer text blanks first others index line column inner outerFuel feed
      rw [List.length_cons] at inner outerFuel
      obtain ⟨fuel, rfl⟩ := Nat.exists_eq_add_one_of_ne_zero (Nat.ne_zero_of_lt inner)
      rw [List.cons_append, readGap_break printable breaks]
      have further := reads fuel outer text blanks first (others ++ [character]) (index + 1)
        (line + 1) 0 (by omega) (by omega) feed
      simpa using further

theorem ReadsQuoted.indented {column : Nat} (reads : ReadsQuoted quote tail written meant .piece)
    (mark : isGapChar quote = false) (solid : Solid written) (positive : 0 < column) :
    ReadsQuoted quote tail (Spelling.indentation column ++ written) meant .breaks := by
  intro fuel outer text blanks first others index line start inner outerFuel feed
  rw [List.length_append, Spelling.indentation, List.length_replicate] at inner outerFuel
  obtain ⟨fuel, rfl⟩ := Nat.exists_eq_add_of_lt inner
  have shorter : column + written.length + fuel + 1 = written.length + fuel + 1 + column := by
    omega
  rw [List.append_assoc, shorter, readGap_indentation column rfl,
    readGap_solid (solid_append mark solid)]
  have further := reads.afterGap (show _ < outer by omega) text ⟨blanks, [first], others, true⟩
    (index + column) line (start + column) (by omega)
  simpa [Gap.text, Gap.folded, feed] using further

end Steps

/-- The place in the grammar says which of the three loops is running. -/
theorem Quoted.reads (quoted : Quoted quote place written meant)
    (mark : isGapChar quote = false) (closed : tail.head? ≠ some '\'') :
    ReadsQuoted quote tail written meant place := by
  induction quoted with
  | nil => exact readsQuoted_nil mark closed
  | cons first _ reads => exact reads.cons first
  | blank before _ reads => exact reads.blank mark before
  | resume solid _ reads => exact reads.resume mark solid
  | lineBreak before breaks printable other _ reads =>
      exact reads.lineBreak mark before breaks printable other
  | indented solid positive _ reads => exact reads.indented mark solid positive

/-- A quoted text is read up to its closing quote. -/
theorem Quoted.readQuoted_eq (quoted : Quoted quote .piece written meant)
    (mark : isGapChar quote = false) (closed : tail.head? ≠ some '\'') {fuel : Nat}
    (long : written.length + 1 < fuel) (index line column : Nat) (inside : column ≠ 0) :
    ∃ index' line' column',
      readQuoted quote fuel [] ⟨written ++ quote :: tail, index, line, column⟩ =
        some (meant, ⟨tail, index', line', column'⟩) :=
  (quoted.reads mark closed).afterGap long [] Gap.none index line column inside

end Reading

namespace Spelling

section Numerals

def shiftIn (value : Nat) (digit : Char) : Option Nat :=
  (Natural.digitValue? 16 digit).map fun digit => value * 16 + digit

theorem foldlM_shiftIn_zeros (count : Nat) :
    (List.replicate count '0').foldlM shiftIn 0 = some 0 := by
  have zero : shiftIn 0 '0' = some 0 := by decide
  induction count with
  | zero => rfl
  | succ count ih => rw [List.replicate_succ, List.foldlM_cons, zero]; exact ih

theorem digitValue?_toUpper_digitChar {digit : Nat} (small : digit < 16) :
    Natural.digitValue? 16 digit.digitChar.toUpper = some digit := by
  have all : ∀ digit < 16, Natural.digitValue? 16 digit.digitChar.toUpper = some digit := by
    decide
  exact all digit small

theorem foldlM_shiftIn_toDigits (number : Nat) :
    ((Nat.toDigits 16 number).map Char.toUpper).foldlM shiftIn 0 = some number := by
  induction number using Nat.strongRecOn with
  | ind number ih =>
      by_cases small : number < 16
      · rw [Nat.toDigits_of_lt_base small]
        simp [shiftIn, digitValue?_toUpper_digitChar small]
      · have last : number % 16 < 16 := Nat.mod_lt number (by decide)
        have front := ih (number / 16) (by omega)
        rw [Nat.toDigits_of_base_le (by decide) (by omega), List.map_append, List.foldlM_append,
          front]
        simp [shiftIn, digitValue?_toUpper_digitChar last]
        omega

theorem length_hexadecimal {width number : Nat} (positive : 0 < width)
    (small : number < 16 ^ width) : (hexadecimal width number).length = width := by
  have short : (Nat.toDigits 16 number).length ≤ width :=
    (Nat.length_toDigits_le_iff (by decide) positive).mpr small
  simp only [hexadecimal, List.length_append, List.length_replicate, List.length_map]
  omega

theorem foldlM_hexadecimal (width number : Nat) :
    (hexadecimal width number).foldlM shiftIn 0 = some number := by
  simp only [hexadecimal, List.foldlM_append, foldlM_shiftIn_zeros]
  exact foldlM_shiftIn_toDigits number

end Numerals

section Double

theorem quotes_numeral {letter : Char} {width : Nat} (long : escapeLength? letter = some width)
    (positive : 0 < width) (character : Char) (small : character.toNat < 16 ^ width) :
    Quotes '"' ('\\' :: letter :: hexadecimal width character.toNat) character := by
  refine .numeral rfl ?_ ?_
  · rw [length_hexadecimal positive small, long]
  · exact foldlM_hexadecimal width character.toNat

theorem simpleEscape?_of_escapeLetter? {character letter : Char}
    (named : escapeLetter? character = some letter) :
    simpleEscape? letter = some character ∧ isBreak letter = false := by
  unfold escapeLetter? at named
  split at named <;> cases named <;> decide

/-- Any other character is written by the rules. -/
theorem quotes_escaped {character : Char} (other : character ≠ ' ') :
    Quotes '"' (escaped character) character := by
  unfold escaped
  split
  · rename_i visible
    simp only [Bool.and_eq_true, Bool.not_eq_true', decide_eq_true_eq] at visible
    obtain ⟨⟨⟨printable, unbroken⟩, unquoted⟩, unescaped⟩ := visible
    refine .itself ?_ unquoted fun _ => unescaped
    have unblank : isBlank character = false := by
      rw [Bool.eq_false_iff, ne_eq, isBlank_iff_eq_space printable]
      exact other
    rw [isGapChar, unblank, unbroken]
    rfl
  · split
    · rename_i letter named
      obtain ⟨means, visible⟩ := simpleEscape?_of_escapeLetter? named
      exact .letter rfl means visible
    · dsimp only
      split
      · exact quotes_numeral (by decide) (by decide) character (by omega)
      · split
        · exact quotes_numeral (by decide) (by decide) character (by omega)
        · have range := toNat_range character
          exact quotes_numeral (by decide) (by decide) character (by omega)

/-- A text between double quotes is written by the rules. -/
theorem quoted_escaped (characters : List Char) :
    Quoted '"' .piece (characters.flatMap escaped) characters ∧
      Quoted '"' .blanks (characters.flatMap escaped) characters := by
  induction characters with
  | nil => exact ⟨.nil, .resume (by simp [Solid]) .nil⟩
  | cons character others ih =>
      obtain ⟨piece, blanks⟩ := ih
      rw [List.flatMap_cons]
      by_cases space : character = ' '
      · subst space
        exact ⟨.blank (by simp) blanks, .blank (by simp) blanks⟩
      · have first := quotes_escaped space
        exact ⟨.cons first piece, .resume (first.solid _) (.cons first piece)⟩

end Double

section Single

/-- A text without line feeds that may stand between single quotes. -/
structure Even (characters : List Char) : Prop where
  printable : ∀ character ∈ characters, isPrintable character = true
  unfed : '\n' ∉ characters
  spaced : hasNeighbours isSpace isBreak characters = false
  broken : hasNeighbours isBreak isSpace characters = false

theorem even_of_allowsSingleQuotes {characters : List Char}
    (allowed : allowsSingleQuotes characters = true) (unfed : '\n' ∉ characters) :
    Even characters := by
  simp only [allowsSingleQuotes, needsEscapes, Bool.and_eq_true, Bool.not_eq_true',
    Bool.or_eq_false_iff, List.any_eq_false, Bool.not_eq_false] at allowed
  exact ⟨allowed.1.1, unfed, allowed.1.2, allowed.2⟩

theorem hasNeighbours_cons_eq_false {first second : Char → Bool} {character : Char}
    {others : List Char} (apart : hasNeighbours first second (character :: others) = false) :
    hasNeighbours first second others = false ∧
      (first character = true → ∀ next ∈ others.head?, second next = false) := by
  cases others with
  | nil => exact ⟨rfl, fun _ next found => by cases found⟩
  | cons next others =>
      have both : (first character && second next) = false ∧
          hasNeighbours first second (next :: others) = false := by
        simpa only [hasNeighbours, List.drop_one, List.tail_cons, List.zip_cons_cons,
          List.any_cons, Bool.or_eq_false_iff] using apart
      refine ⟨both.2, fun isFirst other found => ?_⟩
      cases found
      simpa [isFirst] using both.1

theorem Even.tail {character : Char} {others : List Char} (even : Even (character :: others)) :
    Even others where
  printable := fun other member => even.printable other (List.mem_cons_of_mem character member)
  unfed := fun member => even.unfed (List.mem_cons_of_mem character member)
  spaced := (hasNeighbours_cons_eq_false even.spaced).1
  broken := (hasNeighbours_cons_eq_false even.broken).1

section Body

variable {column : Nat} {character : Char} (others : List Char)

theorem singleQuotedBody_break (afterBreak : Bool) (breaks : isBreak character = true)
    (other : character ≠ '\n') :
    singleQuotedBody column afterBreak (character :: others) =
      character :: singleQuotedBody column true others := by
  simp [singleQuotedBody, breaks, other]

theorem singleQuotedBody_space (afterBreak : Bool) :
    singleQuotedBody column afterBreak (' ' :: others) =
      ' ' :: singleQuotedBody column afterBreak others := by
  have unbroken : isBreak ' ' = false := by decide
  simp [singleQuotedBody, unbroken]

theorem singleQuotedBody_solid (afterBreak : Bool) (solid : isGapChar character = false) :
    singleQuotedBody column afterBreak (character :: others) =
      (if afterBreak then indentation column else []) ++
        ((if character = '\'' then ['\'', '\''] else [character]) ++
          singleQuotedBody column false others) := by
  simp only [isGapChar, Bool.or_eq_false_iff] at solid
  have space : character ≠ ' ' := by
    rintro rfl
    exact absurd solid.1 (by decide)
  simp [singleQuotedBody, solid.2, space]

theorem quotes_single (solid : isGapChar character = false) :
    Quotes '\'' (if character = '\'' then ['\'', '\''] else [character]) character := by
  split
  · rename_i same
    subst same
    exact .doubled rfl
  · rename_i other
    exact .itself solid other (by simp)

end Body

/-- A text between single quotes is written by the rules. -/
theorem quoted_singleQuotedBody {column : Nat} (positive : 0 < column) {characters : List Char}
    (even : Even characters) :
    Quoted '\'' .piece (singleQuotedBody column false characters) characters ∧
      ((∀ first ∈ characters.head?, isBreak first = false) →
        Quoted '\'' .blanks (singleQuotedBody column false characters) characters) ∧
      ((∀ first ∈ characters.head?, isSpace first = false) →
        Quoted '\'' .breaks (singleQuotedBody column true characters) characters) := by
  induction characters with
  | nil =>
      refine ⟨.nil, fun _ => .resume (by simp [Solid, singleQuotedBody]) .nil, fun _ => ?_⟩
      have indented : Quoted '\'' .breaks (indentation column ++ []) [] :=
        .indented (by simp [Solid]) positive .nil
      simpa [singleQuotedBody] using indented
  | cons character others ih =>
      obtain ⟨piece, blanks, breaks⟩ := ih even.tail
      have printable := even.printable character List.mem_cons_self
      by_cases gap : isGapChar character = true
      · simp only [isGapChar, Bool.or_eq_true, isBlank_iff_eq_space printable] at gap
        rcases gap with rfl | isEnd
        · have apart := (hasNeighbours_cons_eq_false even.spaced).2 (by decide)
          simp only [singleQuotedBody_space]
          refine ⟨.blank (by simp) (blanks apart), fun _ => .blank (by simp) (blanks apart), ?_⟩
          intro unspaced
          exact absurd (unspaced ' ' rfl) (by decide)
        · have other : character ≠ '\n' := fun same => even.unfed (same ▸ List.mem_cons_self)
          have apart := (hasNeighbours_cons_eq_false even.broken).2 isEnd
          simp only [singleQuotedBody_break others _ isEnd other]
          refine ⟨.lineBreak (by simp) isEnd printable other (breaks apart), ?_,
            fun _ => .lineBreak (by simp) isEnd printable other (breaks apart)⟩
          intro unbroken
          exact absurd isEnd (by simp [unbroken character rfl])
      · have solid : isGapChar character = false := by simpa using gap
        have first := quotes_single solid
        have whole := Quoted.cons first piece
        simp only [singleQuotedBody_solid others _ solid, Bool.false_eq_true, if_false, if_true,
          List.nil_append]
        exact ⟨whole, fun _ => .resume (first.solid _) whole,
          fun _ => .indented (first.solid _) positive whole⟩

end Single

end Spelling

end Yaml

end Lineage
