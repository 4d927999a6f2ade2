import Lineage.Proofs.BlockLines
import Lineage.Proofs.PlainText
import Lineage.Yaml.Token.Layout

/-!
# Cutting lines into tokens

A text of indented entries is cut into tokens piece by piece.  What a piece
gives does not depend on the tokens before it, only on the column and the open
blocks, so the tokens of a text are put together from its end.
-/

namespace Lineage

namespace Yaml

namespace Layout

/-- A layout outside brackets in which no key is waiting for its colon. -/
structure Rests (column : Nat) (indents : List Int) (allowsKey : Bool) (rest : List Char)
    (layout : Layout) : Prop where
  rest_eq : layout.cursor.rest = rest
  column_eq : layout.cursor.column = column
  indents_eq : layout.indent :: layout.outerIndents = indents
  allowsKey_eq : layout.allowsKey = allowsKey
  outside : layout.outerPending = []
  settled : layout.pending.isPossible = true →
    layout.pending.isRequired = false ∧ layout.pending.line < layout.cursor.line

/-- The rest of a text is cut into some tokens. -/
def Yields (column : Nat) (indents : List Int) (allowsKey : Bool) (rest : List Char)
    (later : List Token) : Prop :=
  ∀ layout, Rests column indents allowsKey rest layout → ∀ fuel, rest.length < fuel →
    (run fuel layout).tokens.toList = layout.tokens.toList ++ later

def ready (layout : Layout) (count : Nat) : Layout :=
  { layout with
    cursor := layout.cursor.skip count
    pending := { layout.pending with isPossible := false } }

/-- Whether a token may begin with a character after some spaces. -/
structure Starts (character : Char) : Prop where
  solid : isGapChar character = false
  uncommented : character ≠ '#'
  unmarked : character ≠ '\ufeff'

section Steps

variable {layout next : Layout} {column count fuel : Nat} {indents : List Int} {allowsKey : Bool}
  {character : Char} {more : List Char}

theorem skipWhile_indentation {test : Char → Bool} (passes : test ' ' = true)
    (stops : test character = false) (index line column : Nat) :
    Cursor.skipWhile ⟨Spelling.indentation count ++ character :: more, index, line, column⟩ test =
      ⟨character :: more, index + count, line, column + count⟩ := by
  have blanks : (Spelling.indentation count ++ character :: more).takeWhile test =
      Spelling.indentation count := by
    rw [List.takeWhile_append_of_pos]
    · simp [stops]
    · intro blank member
      rw [List.eq_of_mem_replicate member, passes]
  have length : (Spelling.indentation count).length = count := List.length_replicate
  rw [Cursor.skipWhile, Cursor.readWhile]
  simp only [blanks, length, Cursor.skip, List.drop_left' length]

theorem skipToToken_solid
    (rest : layout.cursor.rest = Spelling.indentation count ++ character :: more)
    (starts : Starts character) :
    skipToToken (fuel + 1) layout = { layout with cursor := layout.cursor.skip count } := by
  obtain ⟨⟨rest', index, line, column⟩, tokens, indent, outer, pending, outerPending, allows⟩ :=
    layout
  subst rest
  have visible : isBlank character = false ∧ isBreak character = false := by
    simpa [isGapChar] using starts.solid
  have unspaced : character ≠ ' ' ∧ character ≠ '\t' := by
    simpa [isBlank] using visible.1
  have marked : Cursor.isAt ⟨Spelling.indentation count ++ character :: more, index, line, column⟩
      0 '\ufeff' = false := by
    cases count with
    | zero => simp [Spelling.indentation, Cursor.isAt, Cursor.at?, starts.unmarked]
    | succ count => simp [Spelling.indentation, List.replicate_succ, Cursor.isAt, Cursor.at?]
  have length : (Spelling.indentation count).length = count := List.length_replicate
  simp only [skipToToken, marked, Bool.and_false, Bool.false_eq_true, if_false]
  rw [skipWhile_indentation (by simp) (by simp [unspaced])]
  simp [Cursor.isAt, Cursor.at?, Cursor.atBreak, Cursor.skip, starts.uncommented, visible,
    List.drop_left' length]

theorem refreshKey_settled {cursor : Cursor} {pending : PendingKey}
    (settled : pending.isPossible = true →
      pending.isRequired = false ∧ pending.line < cursor.line) :
    refreshKey cursor pending = some { pending with isPossible := false } := by
  obtain ⟨isPossible, isRequired, place, index, line, column⟩ := pending
  cases isPossible with
  | false => simp [refreshKey]
  | true =>
      obtain ⟨free, behind⟩ := settled rfl
      simp_all [refreshKey]

theorem refreshKey_near {cursor : Cursor} {pending : PendingKey}
    (line : cursor.line = pending.line) (index : cursor.index ≤ pending.index + 1024) :
    refreshKey cursor pending = some pending := by
  have near : ¬pending.line < cursor.line ∧ ¬pending.index + 1024 < cursor.index := by omega
  simp [refreshKey, near]

/-- A key that may still get its colon is not given up. -/
theorem refreshKeys_of_near (outside : layout.outerPending = [])
    (near : refreshKey layout.cursor layout.pending = some layout.pending) :
    { layout with cursor := layout.cursor.skip 0 }.refreshKeys = some layout := by
  obtain ⟨cursor, tokens, indent, outer, pending, outerPending, allows⟩ := layout
  subst outside
  change refreshKey cursor pending = some pending at near
  have still : cursor.skip 0 = cursor := rfl
  simp [refreshKeys, still, near]

theorem closeTo_of_le {column : Int} (inside : layout.indent ≤ column) :
    layout.closeTo column = layout := by
  rw [closeTo]
  split
  · rfl
  · cases layout.outerIndents with
    | nil => rfl
    | cons outer others => rw [closeBlocks, if_neg (Int.not_lt.mpr inside)]

theorem run_eq {middle : Layout}
    (rest : layout.cursor.rest = Spelling.indentation count ++ character :: more)
    (starts : Starts character)
    (refreshed : { layout with cursor := layout.cursor.skip count }.refreshKeys = some middle)
    (deeper : middle.closeTo middle.cursor.column = middle)
    (begins : middle.cursor.rest = character :: more) (read : middle.readToken = some next) :
    run (fuel + 1) layout = run fuel next := by
  have unended : middle.cursor.atEnd = false := by simp [Cursor.atEnd, begins]
  rw [run, skipToToken_solid rest starts]
  simp only [refreshed, deeper, unended, read, Bool.false_eq_true, if_false]

theorem cursor_ready
    (rests : Rests column indents allowsKey (Spelling.indentation count ++ more) layout) :
    (layout.ready count).cursor =
      ⟨more, layout.cursor.index + count, layout.cursor.line, column + count⟩ := by
  have length : (Spelling.indentation count).length = count := List.length_replicate
  simp [ready, Cursor.skip, rests.rest_eq, rests.column_eq, List.drop_left' length]

theorem Rests.run_eq
    (rests : Rests column indents allowsKey
      (Spelling.indentation count ++ character :: more) layout)
    (starts : Starts character) (inside : layout.indent ≤ (column + count : Nat))
    (read : (layout.ready count).readToken = some next) :
    run (fuel + 1) layout = run fuel next := by
  have refreshed : { layout with cursor := layout.cursor.skip count }.refreshKeys =
      some (layout.ready count) := by
    have settled : refreshKey (layout.cursor.skip count) layout.pending =
        some { layout.pending with isPossible := false } := refreshKey_settled rests.settled
    simp [refreshKeys, settled, rests.outside, ready]
  have cursor := cursor_ready rests
  have deeper : (layout.ready count).closeTo (layout.ready count).cursor.column =
      layout.ready count := by
    rw [cursor]
    exact closeTo_of_le inside
  exact Layout.run_eq rests.rest_eq starts refreshed deeper (by rw [cursor]) read

/-- A token is read where the indentation does not fall back, and what follows it
gives the later ones. -/
theorem Rests.run_token {column' : Nat} {indents' : List Int} {allowsKey' : Bool}
    {rest' : List Char} {token : Token} {later : List Token}
    (rests : Rests column indents allowsKey
      (Spelling.indentation count ++ character :: more) layout)
    (starts : Starts character) (inside : layout.indent ≤ (column + count : Nat))
    (read : (layout.ready count).readToken = some next)
    (follows : Rests column' indents' allowsKey' rest' next)
    (emitted : next.tokens = layout.tokens.push token)
    (yields : Yields column' indents' allowsKey' rest' later)
    (shorter : rest'.length < (Spelling.indentation count ++ character :: more).length)
    (long : (Spelling.indentation count ++ character :: more).length < fuel) :
    (run fuel layout).tokens.toList = layout.tokens.toList ++ token :: later := by
  obtain ⟨fuel, rfl⟩ := Nat.exists_eq_add_one_of_ne_zero (Nat.ne_zero_of_lt long)
  rw [rests.run_eq starts inside read, yields next follows fuel (by omega), emitted]
  simp

/-- Whether a character may begin a plain scalar, given what follows it. -/
structure BeginsPlain (character : Char) (more : List Char) : Prop where
  solid : isGapChar character = false
  unmarked : character ∉ ['#', ',', '[', ']', '{', '}', '&', '*', '!', '|', '>', '\'', '"', '%',
    '@', '\u0060']
  followed : character ∈ ['?', ':', '-'] → ∃ next others, more = next :: others ∧
    isGapChar next = false

theorem BeginsPlain.readToken_eq (begins : BeginsPlain character more)
    (rest : layout.cursor.rest = character :: more) (outside : layout.outerPending = [])
    (unmarked : layout.cursor.atDocumentMarker = false) :
    layout.readToken = layout.readPlainScalar := by
  have visible : isBlank character = false ∧ isBreak character = false := by
    simpa [isGapChar] using begins.solid
  have others := begins.unmarked
  simp only [List.mem_cons, List.not_mem_nil, or_false, not_or] at others
  have flow : layout.isFlow = false := by simp [isFlow, outside]
  have first : layout.cursor.at? 0 = some character := by simp [Cursor.at?, rest]
  unfold readToken
  by_cases leading : character ∈ ['?', ':', '-']
  · obtain ⟨next, others', rfl, solid⟩ := begins.followed leading
    have nextVisible : isBlank next = false ∧ isBreak next = false := by
      simpa [isGapChar] using solid
    have second : layout.cursor.at? 1 = some next := by simp [Cursor.at?, rest]
    have apart : layout.cursor.isGap 1 = false := by
      simp [Cursor.isGap, second, nextVisible]
    simp [Cursor.isAt, first, others, unmarked, flow, mayBeginPlain, visible, apart, second,
      nextVisible]
  · simp only [List.mem_cons, List.not_mem_nil, or_false, not_or] at leading
    simp [Cursor.isAt, first, others, unmarked, flow, mayBeginPlain, visible, leading]

end Steps

section Scalars

variable {column depth : Nat} {outer : List Int} {allowsKey : Bool} {tail : List Char}
  {tokens : List Token}

/-- The key that may begin at a position. -/
def keyHere (layout : Layout) : PendingKey :=
  { isPossible := true
    isRequired := !layout.isFlow && layout.indent = (layout.cursor.column : Int)
    place := layout.tokens.size
    index := layout.cursor.index
    line := layout.cursor.line
    column := layout.cursor.column }

theorem markKey_ready {layout : Layout} {count : Nat} (allowed : layout.allowsKey = true) :
    (layout.ready count).markKey =
      some { layout.ready count with pending := (layout.ready count).keyHere } := by
  simp [markKey, dropKey, ready, allowed, keyHere, isFlow]

/-- Inside a line no key has to begin. -/
theorem Rests.markKey_eq {layout : Layout} {rest : List Char}
    (rests : Rests column (depth :: outer) allowsKey rest layout) (count : Nat)
    (deeper : depth < column + count) :
    ∃ pending, (layout.ready count).markKey = some { layout.ready count with pending } ∧
      (pending.isPossible = true →
        pending.isRequired = false ∧ pending.line = layout.cursor.line) := by
  have indent : layout.indent = depth := (List.cons.inj rests.indents_eq).1
  have apart : (depth : Int) ≠ column + count := by omega
  cases allowed : layout.allowsKey with
  | false => exact ⟨(layout.ready count).pending, by simp [markKey, ready, allowed], nofun⟩
  | true =>
      refine ⟨(layout.ready count).keyHere, markKey_ready allowed, fun _ => ⟨?_, rfl⟩⟩
      simp [keyHere, ready, Cursor.skip, rests.column_eq, indent, apart]

theorem beginsPlain_of_allowsPlain {character : Char} {others : List Char}
    (allows : Spelling.allowsPlain (character :: others) = true) :
    BeginsPlain character (others ++ '\n' :: tail) := by
  obtain ⟨_, unspaced, _, unmarked⟩ := allowsPlain_cons allows
  simp only [Spelling.hasMark, Bool.or_eq_false_iff] at unmarked
  obtain ⟨_, ⟨indicator, leading⟩, _⟩ := unmarked
  refine ⟨(plain_of_allowsPlain allows).solid unspaced, by simpa using indicator, ?_⟩
  intro begins
  have more : Spelling.beginsWithGap others = false := by
    have listed : ['?', ':', '-'].contains character = true := List.contains_iff_mem.mpr begins
    rwa [listed, Bool.true_and] at leading
  cases others with
  | nil => cases more
  | cons next rest =>
      simp only [Spelling.beginsWithGap, Bool.or_eq_false_iff] at more
      exact ⟨next, rest ++ '\n' :: tail, rfl, by simp [isGapChar, more]⟩

theorem readPlainScalar_eq {layout marked : Layout} {text : List Char} {endsLine : Bool}
    {cursor : Cursor} (mark : layout.markKey = some marked) (outside : marked.outerPending = [])
    (read : readPlain false (marked.indent + 1).toNat (marked.cursor.rest.length + 1) [] Gap.none
      marked.cursor = some (text, endsLine, cursor)) :
    layout.readPlainScalar = some
      { marked.emit (.scalar .plain (String.ofList text)) with
        cursor
        allowsKey := endsLine } := by
  have flow : marked.isFlow = false := by simp [isFlow, outside]
  simp [readPlainScalar, mark, flow, read]

theorem yields_plain {characters : List Char} (allows : Spelling.allowsPlain characters = true)
    (nonempty : characters ≠ []) (solid : Solid tail) (inside : depth ≤ column)
    (later : Yields 0 (depth :: outer) true tail tokens) :
    Yields column (depth :: outer) allowsKey (' ' :: (characters ++ '\n' :: tail))
      (.scalar .plain (String.ofList characters) :: tokens) := by
  intro layout rests fuel long
  obtain ⟨character, others, rfl⟩ := List.exists_cons_of_ne_nil nonempty
  have indent : layout.indent = depth := (List.cons.inj rests.indents_eq).1
  have plain := plain_of_allowsPlain allows
  have begins : BeginsPlain character (others ++ '\n' :: tail) :=
    beginsPlain_of_allowsPlain allows
  obtain ⟨_, unspaced, _, _⟩ := allowsPlain_cons allows
  have starts : Starts character := ⟨begins.solid, plain.ne_hash,
    Spelling.ne_of_isPrintable (plain.printable character List.mem_cons_self) (by decide)⟩
  have rests : Rests column (depth :: outer) allowsKey
    (Spelling.indentation 1 ++ character :: (others ++ '\n' :: tail)) layout := rests
  have cursor := cursor_ready rests
  obtain ⟨pending, marked, settled⟩ := rests.markKey_eq 1 (by omega)
  have fuelled : (character :: others).length + 1 < (others ++ '\n' :: tail).length + 1 + 1 := by
    simp
  obtain ⟨index', read⟩ := readPlain_line (Nat.succ_pos depth) solid plain unspaced fuelled
    (layout.cursor.index + 1) layout.cursor.line (column + 1) (by omega)
  have token : (layout.ready 1).readToken = (layout.ready 1).readPlainScalar :=
    begins.readToken_eq (by rw [cursor]) rests.outside (by simp [cursor, Cursor.atDocumentMarker])
  have scalar := readPlainScalar_eq marked rests.outside (by
    change readPlain false (layout.indent + 1).toNat ((layout.ready 1).cursor.rest.length + 1) []
      Gap.none (layout.ready 1).cursor = _
    rw [indent, cursor]
    exact read)
  refine rests.run_token starts (by omega) (token.trans scalar) ?_ rfl later
    (by simp only [List.length_append, List.length_cons]; omega) long
  refine ⟨rfl, rfl, rests.indents_eq, rfl, rests.outside, fun possible => ?_⟩
  obtain ⟨free, line⟩ := settled possible
  exact ⟨free, line ▸ Nat.lt_succ_self _⟩

theorem skipToToken_break {layout : Layout} (fuel : Nat)
    (rest : layout.cursor.rest = '\n' :: tail) :
    skipToToken (fuel + 1) layout = skipToToken fuel
      { layout with
        cursor := ⟨tail, layout.cursor.index + 1, layout.cursor.line + 1, 0⟩
        allowsKey := layout.allowsKey || !layout.isFlow } := by
  obtain ⟨⟨rest', index, line, column⟩, tokens, indent, outer, pending, outerPending, allows⟩ :=
    layout
  subst rest
  have skipped (allowsTab : Bool) : Cursor.skipWhile ⟨'\n' :: tail, index, line, column⟩
      (fun character => character = ' ' || (allowsTab && character = '\t')) =
        ⟨'\n' :: tail, index, line, column⟩ := by
    simp [Cursor.skipWhile, Cursor.readWhile, Cursor.skip]
  have broken : isBreak '\n' = true := by decide
  simp [skipToToken, skipped, Cursor.isAt, Cursor.at?, Cursor.atBreak, broken, Cursor.skipBreak,
    Cursor.readBreak, Cursor.nextLine]

/-- After the end of a line the next one begins. -/
theorem yields_break {indents : List Int} (later : Yields 0 indents true tail tokens) :
    Yields column indents allowsKey ('\n' :: tail) tokens := by
  intro layout rests fuel long
  obtain ⟨fuel, rfl⟩ := Nat.exists_eq_add_one_of_ne_zero (Nat.ne_zero_of_lt long)
  have flow : layout.isFlow = false := by simp [isFlow, rests.outside]
  have skipped := skipToToken_break (tail.length + 1) rests.rest_eq
  have next := later
    { layout with
      cursor := ⟨tail, layout.cursor.index + 1, layout.cursor.line + 1, 0⟩
      allowsKey := true }
    ⟨rfl, rfl, rests.indents_eq, rfl, rests.outside, fun possible => by
      obtain ⟨free, behind⟩ := rests.settled possible
      exact ⟨free, Nat.lt_succ_of_lt behind⟩⟩ (fuel + 1) (Nat.lt_of_succ_lt long)
  rw [run] at next ⊢
  simp only [rests.rest_eq, List.length_cons, skipped, flow, Bool.not_false, Bool.or_true]
  exact next

theorem readToken_quote {layout : Layout} {quote : Char} {style : ScalarStyle} {more : List Char}
    (mark : quote = '\'' ∧ style = .singleQuoted ∨ quote = '"' ∧ style = .doubleQuoted)
    (rest : layout.cursor.rest = quote :: more) (inside : layout.cursor.column ≠ 0) :
    layout.readToken = layout.readQuotedScalar quote style := by
  rcases mark with ⟨rfl, rfl⟩ | ⟨rfl, rfl⟩
  · simp [readToken, Cursor.isAt, Cursor.at?, rest, inside, Cursor.atDocumentMarker]
  · simp [readToken, Cursor.isAt, Cursor.at?, rest, inside, Cursor.atDocumentMarker]

theorem yields_quoted {quote : Char} {style : ScalarStyle} {written meant : List Char}
    (quoted : Quoted quote .piece written meant)
    (mark : quote = '\'' ∧ style = .singleQuoted ∨ quote = '"' ∧ style = .doubleQuoted)
    (inside : depth ≤ column) (later : Yields 0 (depth :: outer) true tail tokens) :
    Yields column (depth :: outer) false (' ' :: quote :: (written ++ quote :: '\n' :: tail))
      (.scalar style (String.ofList meant) :: tokens) := by
  intro layout rests fuel long
  have indent : layout.indent = depth := (List.cons.inj rests.indents_eq).1
  have rests : Rests column (depth :: outer) false
    (Spelling.indentation 1 ++ quote :: (written ++ quote :: '\n' :: tail)) layout := rests
  have cursor := cursor_ready rests
  have visible : isGapChar quote = false := by
    rcases mark with ⟨rfl, _⟩ | ⟨rfl, _⟩ <;> decide
  have starts : Starts quote := by
    rcases mark with ⟨rfl, _⟩ | ⟨rfl, _⟩ <;> exact ⟨by decide, by decide, by decide⟩
  have fuelled : written.length + 1 < (quote :: (written ++ quote :: '\n' :: tail)).length + 1 := by
    simp only [List.length_cons, List.length_append]
    omega
  have closed : ('\n' :: tail).head? ≠ some '\'' := by
    simp
  obtain ⟨index', line', column', read⟩ := quoted.readQuoted_eq visible closed fuelled
    (layout.cursor.index + 1 + 1) layout.cursor.line (column + 1 + 1) (Nat.succ_ne_zero _)
  have marked : (layout.ready 1).markKey = some (layout.ready 1) := by
    simp [markKey, ready, rests.allowsKey_eq]
  have token : (layout.ready 1).readToken = some
      { (layout.ready 1).emit (.scalar style (String.ofList meant)) with
        cursor := ⟨'\n' :: tail, index', line', column'⟩
        allowsKey := false } := by
    rw [readToken_quote mark (by rw [cursor]) (by simp [cursor]), readQuotedScalar, emitKeyed,
      marked]
    simp only [cursor, Option.bind_eq_bind, Option.bind_some, Cursor.skip, List.drop_succ_cons,
      List.drop_zero, read]
  have after : Yields column' (depth :: outer) false ('\n' :: tail) tokens := yields_break later
  refine rests.run_token starts (by omega) token ?_ rfl after
    (by simp only [List.length_append, List.length_cons]; omega) long
  exact ⟨rfl, rfl, rests.indents_eq, rfl, rests.outside,
    fun possible => absurd possible Bool.false_ne_true⟩

theorem yields_block {characters : List Char} (allows : Spelling.allowsBlock characters = true)
    (nonempty : characters ≠ []) (solid : Solid tail) (inside : depth ≤ column)
    (later : Yields 0 (depth :: outer) true tail tokens) :
    Yields column (depth :: outer) false
      (' ' :: (Spelling.endLine (Spelling.block (depth + 2) characters) ++ tail))
      (.scalar .literal (String.ofList characters) :: tokens) := by
  intro layout rests fuel long
  have indent : layout.indent = depth := (List.cons.inj rests.indents_eq).1
  obtain ⟨index', line', read⟩ := readBlock_endLine allows nonempty solid depth
    (layout.cursor.index + 1) layout.cursor.line (column + 1)
  rw [endLine_block nonempty] at rests read long
  have rests : Rests column (depth :: outer) false (Spelling.indentation 1 ++ '|' ::
    (Spelling.blockHeader characters ++ '\n' :: Spelling.blockBody (depth + 2) true
      (withBreak characters) ++ tail)) layout := rests
  have cursor := cursor_ready rests
  have token : (layout.ready 1).readToken = some
      { (layout.ready 1).emit (.scalar .literal (String.ofList characters)) with
        cursor := ⟨tail, index', line', 0⟩
        allowsKey := true } := by
    have flow : (layout.ready 1).isFlow = false := by simp [isFlow, ready, rests.outside]
    have marker : (layout.ready 1).readToken = (layout.ready 1).readBlockScalar false := by
      simp [readToken, Cursor.isAt, Cursor.at?, cursor, Cursor.atDocumentMarker, flow]
    have settled : (layout.ready 1).dropKey = some (layout.ready 1) := by
      simp [dropKey, ready]
    have ready_indent : (layout.ready 1).indent = depth := indent
    rw [List.cons_append] at read
    rw [marker, readBlockScalar, settled]
    simp only [Option.bind_eq_bind, Option.bind_some, cursor, ready_indent, read]
  refine rests.run_token ⟨by decide, by decide, by decide⟩ (by omega) token ?_ rfl later
    (by simp only [List.length_append, List.length_cons]; omega) long
  exact ⟨rfl, rfl, rests.indents_eq, rfl, rests.outside,
    fun possible => absurd possible Bool.false_ne_true⟩

end Scalars

section Spelled

variable {column depth : Nat} {outer : List Int} {tail : List Char} {tokens : List Token}

theorem endLine_of_getLast? {characters : List Char} {last : Char}
    (ended : characters.getLast? = some last) (unbroken : isBreak last = false) :
    Spelling.endLine characters = characters ++ ['\n'] := by
  simp [Spelling.endLine, ended, unbroken]

theorem endLine_quoted (quote : Char) (unbroken : isBreak quote = false) (written : List Char) :
    Spelling.endLine ([quote] ++ written ++ [quote]) ++ tail =
      quote :: (written ++ quote :: '\n' :: tail) := by
  have ended : ([quote] ++ written ++ [quote]).getLast? = some quote := List.getLast?_concat
  rw [endLine_of_getLast? ended unbroken]
  simp

theorem yields_doubleQuoted (characters : List Char) (inside : depth ≤ column)
    (later : Yields 0 (depth :: outer) true tail tokens) :
    Yields column (depth :: outer) false
      (' ' :: (Spelling.endLine (Spelling.doubleQuoted characters) ++ tail))
      (.scalar .doubleQuoted (String.ofList characters) :: tokens) := by
  rw [Spelling.doubleQuoted, endLine_quoted '"' (by decide)]
  exact yields_quoted (Spelling.quoted_escaped characters).1 (.inr ⟨rfl, rfl⟩) inside later

def styleOf (text : String) : ScalarStyle :=
  if text.toList.contains '\n' then
    if Spelling.allowsBlock text.toList then .literal else .doubleQuoted
  else if Spelling.readsAsText text && Spelling.allowsPlain text.toList then .plain
  else if Spelling.allowsSingleQuotes text.toList then .singleQuoted
  else .doubleQuoted

/-- A text is plain only if it is not taken for anything else. -/
theorem readsAsText_of_styleOf {text : String} (plain : styleOf text = .plain) :
    Spelling.readsAsText text = true := by
  unfold styleOf at plain
  split at plain
  · split at plain <;> cases plain
  · split at plain
    · rename_i allowed
      exact (Bool.and_eq_true_iff.mp allowed).1
    · split at plain <;> cases plain

/-- A text is one token however it is spelled. -/
theorem yields_spelled (text : String) (solid : Solid tail) (inside : depth ≤ column)
    (later : Yields 0 (depth :: outer) true tail tokens) :
    Yields column (depth :: outer) false
      (' ' :: (Spelling.endLine (Spelling.spell (depth + 2) text) ++ tail))
      (.scalar (styleOf text) text :: tokens) := by
  obtain ⟨characters, rfl⟩ : ∃ characters, text = String.ofList characters :=
    ⟨text.toList, String.ofList_toList.symm⟩
  rw [Spelling.spell, styleOf, String.toList_ofList]
  by_cases lined : characters.contains '\n' = true
  · have nonempty : characters ≠ [] := by
      rintro rfl
      cases lined
    rw [if_pos lined, if_pos lined]
    by_cases allows : Spelling.allowsBlock characters = true
    · rw [if_pos allows, if_pos allows]
      exact yields_block allows nonempty solid inside later
    · rw [if_neg allows, if_neg allows]
      exact yields_doubleQuoted characters inside later
  · have unfed : '\n' ∉ characters := by simpa using lined
    rw [if_neg lined, if_neg lined]
    by_cases plain : (Spelling.readsAsText (String.ofList characters) &&
        Spelling.allowsPlain characters) = true
    · rw [if_pos plain, if_pos plain]
      obtain ⟨text, allows⟩ := Bool.and_eq_true_iff.mp plain
      have nonempty : characters ≠ [] := by
        rintro rfl
        exact absurd text (by decide)
      obtain ⟨character, others, rfl⟩ := List.exists_cons_of_ne_nil nonempty
      obtain ⟨last, ended⟩ := Option.ne_none_iff_exists'.mp
        (mt List.getLast?_eq_none_iff.mp nonempty)
      have unbroken := ((allowsPlain_cons allows).1 last (List.mem_of_mem_getLast? ended)).2
      rw [endLine_of_getLast? ended unbroken, List.append_assoc]
      exact yields_plain allows nonempty solid inside later
    · rw [if_neg plain, if_neg plain]
      by_cases allows : Spelling.allowsSingleQuotes characters = true
      · have even := Spelling.even_of_allowsSingleQuotes allows unfed
        rw [if_pos allows, if_pos allows, Spelling.singleQuoted, endLine_quoted '\'' (by decide)]
        exact yields_quoted (Spelling.quoted_singleQuotedBody (Nat.succ_pos _) even).1
          (.inl ⟨rfl, rfl⟩) inside later
      · rw [if_neg allows, if_neg allows]
        exact yields_doubleQuoted characters inside later

end Spelled

section Collections

variable {column depth : Nat} {outer : List Int} {tail more : List Char} {tokens : List Token}

/-- The mark of an item stands where the keys around it begin. -/
theorem yields_item (later : Yields (depth + 1) (depth :: outer) true (' ' :: more) tokens) :
    Yields depth (depth :: outer) true ('-' :: ' ' :: more) (.blockEntry :: tokens) := by
  intro layout rests fuel long
  have indent : layout.indent = depth := (List.cons.inj rests.indents_eq).1
  have rests : Rests depth (depth :: outer) true
    (Spelling.indentation 0 ++ '-' :: ' ' :: more) layout := rests
  have cursor := cursor_ready rests
  have token : (layout.ready 0).readToken = some
      { (layout.ready 0).emit .blockEntry with
        cursor := ⟨' ' :: more, layout.cursor.index + 1, layout.cursor.line, depth + 1⟩
        allowsKey := true } := by
    have mark : (layout.ready 0).readToken = (layout.ready 0).readItemMark := by
      have blank : isBlank ' ' = true := by decide
      simp [readToken, Cursor.isAt, Cursor.at?, cursor, Cursor.atDocumentMarker, Cursor.isGap,
        blank]
    have opened : (layout.ready 0).openBlockHere .blockSequenceStart = layout.ready 0 := by
      have ready_indent : (layout.ready 0).indent = depth := indent
      simp [openBlockHere, openBlock, cursor, ready_indent]
    have settled : (layout.ready 0).dropKey = some (layout.ready 0) := by
      simp [dropKey, ready]
    have flow : (layout.ready 0).isFlow = false := by simp [isFlow, ready, rests.outside]
    have allowed : (layout.ready 0).allowsKey = true := rests.allowsKey_eq
    rw [mark, readItemMark, opened, settled]
    simp [flow, allowed, emitMark, cursor, Cursor.skip]
  refine rests.run_token ⟨by decide, by decide, by decide⟩ (by omega) token ?_ rfl later
    (by simp [Spelling.indentation]) long
  exact ⟨rfl, rfl, rests.indents_eq, rfl, rests.outside,
    fun possible => absurd possible Bool.false_ne_true⟩

/-- Brackets with nothing between them are two tokens. -/
theorem yields_brackets (inside : depth ≤ column)
    (later : Yields 0 (depth :: outer) true tail tokens) :
    Yields column (depth :: outer) false (' ' :: '[' :: ']' :: '\n' :: tail)
      (.flowSequenceStart :: .flowSequenceEnd :: tokens) := by
  intro layout rests fuel long
  have indent : layout.indent = depth := (List.cons.inj rests.indents_eq).1
  have rests : Rests column (depth :: outer) false
    (Spelling.indentation 1 ++ '[' :: ']' :: '\n' :: tail) layout := rests
  have cursor := cursor_ready rests
  obtain ⟨fuel, rfl⟩ : ∃ less, fuel = less + 1 + 1 := ⟨fuel - 2, by simp at long; omega⟩
  -- Between the brackets the layout is inside a flow, where nothing else is read.
  obtain ⟨middle, middle_eq⟩ : ∃ middle : Layout, middle =
      { (layout.ready 1).enterFlow.emit .flowSequenceStart with
        cursor := ⟨']' :: '\n' :: tail, layout.cursor.index + 2, layout.cursor.line, column + 2⟩
        allowsKey := true } := ⟨_, rfl⟩
  have opening : (layout.ready 1).readToken = some middle := by
    have marked : (layout.ready 1).markKey = some (layout.ready 1) := by
      simp [markKey, ready, rests.allowsKey_eq]
    have mark : (layout.ready 1).readToken = (layout.ready 1).readOpening .flowSequenceStart := by
      simp [readToken, Cursor.isAt, Cursor.at?, cursor, Cursor.atDocumentMarker]
    rw [mark, readOpening, marked]
    simp [middle_eq, emitMark, enterFlow, emit, cursor, Cursor.skip]
  have refreshed : { middle with cursor := middle.cursor.skip 0 }.refreshKeys = some middle := by
    simp [middle_eq, refreshKeys, refreshKey, enterFlow, emit, PendingKey.none, ready,
      rests.outside, Cursor.skip]
  have deeper : middle.closeTo middle.cursor.column = middle := by
    simp [middle_eq, closeTo, isFlow, enterFlow, emit]
  have closing : middle.readToken = some
      { ((layout.ready 1).emit .flowSequenceStart).emit .flowSequenceEnd with
        cursor := ⟨'\n' :: tail, layout.cursor.index + 3, layout.cursor.line, column + 3⟩
        allowsKey := false } := by
    simp [middle_eq, readToken, Cursor.isAt, Cursor.at?, Cursor.atDocumentMarker, readClosing,
      dropKey, leaveFlow, enterFlow, emit, emitMark, PendingKey.none, Cursor.skip]
  have after : Yields (column + 3) (depth :: outer) false ('\n' :: tail) tokens :=
    yields_break later
  have begins : middle.cursor.rest = ']' :: '\n' :: tail := by rw [middle_eq]
  rw [rests.run_eq ⟨by decide, by decide, by decide⟩ (by omega) opening,
    Layout.run_eq begins ⟨by decide, by decide, by decide⟩ refreshed deeper begins closing]
  have fuelled : ('\n' :: tail).length < fuel := by
    simp only [List.length_cons] at long ⊢
    omega
  refine (after _ ?_ fuel fuelled).trans ?_
  · exact ⟨rfl, rfl, rests.indents_eq, rfl, rests.outside,
    fun possible => absurd possible Bool.false_ne_true⟩
  · simp [emit, ready]

end Collections

section Keys

variable {character : Char} {name more : List Char}

/-- A short name of letters and digits, which can be a key. -/
structure IsName (name : List Char) : Prop where
  words : ∀ character ∈ name, isWord character = true
  begins : ∃ first others, name = first :: others ∧ first ≠ '-'
  short : name.length ≤ 1024

theorem isName_of_check
    (checked : (name.all isWord && name.head?.any (· ≠ '-') &&
      decide (name.length ≤ 1024)) = true) :
    IsName name := by
  simp only [Bool.and_eq_true, List.all_eq_true, decide_eq_true_eq] at checked
  obtain ⟨⟨words, begins⟩, short⟩ := checked
  cases name with
  | nil => cases begins
  | cons first others => exact ⟨words, ⟨first, others, rfl, by simpa using begins⟩, short⟩

theorem IsName.unbroken (isName : IsName name) : Unbroken name := by
  intro character member
  have word := isName.words character member
  exact ⟨isGapChar_of_isWord word, ne_of_isWord word (by decide)⟩

/-- A word that does not begin with a dash begins a plain scalar. -/
theorem beginsPlain_of_isWord (word : isWord character = true) (other : character ≠ '-') :
    BeginsPlain character more := by
  refine ⟨isGapChar_of_isWord word, not_mem_of_isWord word (by decide), ?_⟩
  intro member
  have others : character ∉ ['?', ':'] := not_mem_of_isWord word (by decide)
  simp only [List.mem_cons, List.not_mem_nil, or_false, not_or] at others member
  rcases member with question | colon | dash
  · exact absurd question others.1
  · exact absurd colon others.2
  · exact absurd dash other

end Keys

section Entries

variable {column count : Nat} {indent : Int} {outer : List Int} {name more : List Char}
  {gap : Char} {tokens : List Token}

theorem toList_insertIdxIfInBounds {before after : List Token} {tokens : Array Token}
    (same : tokens.toList = before ++ after) (token : Token) :
    (tokens.insertIdxIfInBounds before.length token).toList = before ++ token :: after := by
  have inserted : (before ++ after).insertIdx before.length token = before ++ token :: after := by
    clear same
    induction before with
    | nil => rfl
    | cons first before ih => simpa using ih
  have inside : before.length ≤ tokens.size := by
    rw [← Array.length_toList, same, List.length_append]
    omega
  rw [Array.insertIdxIfInBounds, dif_pos inside, Array.toList_insertIdx, same, inserted]

/-- What stood where a key may begin is a key when its colon is read. -/
theorem readValueMark_eq {layout : Layout} (outside : layout.outerPending = [])
    (possible : layout.pending.isPossible = true)
    (before : List Token) (scalar : Token) (place : layout.pending.place = before.length)
    (same : layout.tokens.toList = before ++ [scalar]) :
    ∃ next, layout.readValueMark = some next ∧ next.cursor = layout.cursor.skip 1 ∧
      next.outerPending = [] ∧ next.pending.isPossible = false ∧ next.allowsKey = false ∧
      if layout.indent < layout.pending.column then
        next.indent = layout.pending.column ∧
          next.outerIndents = layout.indent :: layout.outerIndents ∧
          next.tokens.toList = before ++ [.blockMappingStart, .key, scalar, .value]
      else
        next.indent = layout.indent ∧ next.outerIndents = layout.outerIndents ∧
          next.tokens.toList = before ++ [.key, scalar, .value] := by
  have keyed := toList_insertIdxIfInBounds same .key
  have opened := toList_insertIdxIfInBounds keyed .blockMappingStart
  rw [readValueMark, if_pos possible]
  refine ⟨_, rfl, ?_⟩
  by_cases deeper : layout.indent < layout.pending.column
  · have beyond : ¬(layout.pending.column : Int) ≤ layout.indent := Int.not_le.mpr deeper
    simp [openBlock, isFlow, outside, beyond, deeper, emitMark, emit, place, opened]
  · have within : (layout.pending.column : Int) ≤ layout.indent := Int.not_lt.mp deeper
    simp [openBlock, isFlow, outside, within, deeper, emitMark, emit, place, keyed]

/-- What a key in some column opens: nothing where the keys around it stand, and a
mapping beyond them. -/
inductive Opens (column : Nat) (outer : List Int) : Int → List Token → List Int → Prop
  | same : Opens column outer column [] (column :: outer)
  | deeper {indent : Int} (beyond : indent < column) :
      Opens column outer indent [.blockMappingStart] (column :: indent :: outer)

theorem Opens.le {column : Nat} {start : List Token} {indents : List Int}
    (opens : Opens column outer indent start indents) : indent ≤ column := by
  cases opens with
  | same => exact Int.le_refl _
  | deeper beyond => exact Int.le_of_lt beyond

theorem IsName.atDocumentMarker_eq (isName : IsName name) (rest : List Char)
    (index line column : Nat) :
    Cursor.atDocumentMarker ⟨name ++ ':' :: rest, index, line, column⟩ = false := by
  obtain ⟨first, others, rfl, other⟩ := isName.begins
  have dot : first ≠ '.' := ne_of_isWord (isName.words first List.mem_cons_self) (by decide)
  simp [Cursor.atDocumentMarker, other, dot]

/-- The layout in which a name that stands after some spaces waits for its colon. -/
def awaiting (layout : Layout) (count : Nat) (name more : List Char) : Layout :=
  { (layout.ready count).emit (.scalar .plain (String.ofList name)) with
    pending := (layout.ready count).keyHere
    cursor := ⟨':' :: more, layout.cursor.index + count + name.length, layout.cursor.line,
      layout.cursor.column + count + name.length⟩
    allowsKey := false }

theorem Rests.readToken_name {layout : Layout} {column : Nat} {indents : List Int}
    (rests : Rests column indents true
      (Spelling.indentation count ++ (name ++ ':' :: gap :: more)) layout)
    (isName : IsName name) (isGap : isGapChar gap = true) :
    (layout.ready count).readToken = some (layout.awaiting count name (gap :: more)) := by
  obtain ⟨first, others, rfl, other⟩ := isName.begins
  have word := isName.words first List.mem_cons_self
  have cursor := cursor_ready rests
  have unmarked := isName.atDocumentMarker_eq (gap :: more) (layout.cursor.index + count)
    layout.cursor.line (column + count)
  have begins : BeginsPlain first (others ++ ':' :: gap :: more) := beginsPlain_of_isWord word other
  have token : (layout.ready count).readToken = (layout.ready count).readPlainScalar :=
    begins.readToken_eq (by rw [cursor]; rfl) rests.outside (by rw [cursor]; exact unmarked)
  have uncommented : (first :: others).head? ≠ some '#' := by
    simpa using ne_of_isWord word (show isWord '#' = false by decide)
  rw [token, awaiting, rests.column_eq]
  refine readPlainScalar_eq (markKey_ready rests.allowsKey_eq) rests.outside ?_
  change readPlain false (layout.indent + 1).toNat ((layout.ready count).cursor.rest.length + 1) []
    Gap.none (layout.ready count).cursor = _
  rw [cursor]
  exact readPlain_key isName.unbroken (by simp) isGap _ more _ _ _ unmarked uncommented

theorem refreshKeys_awaiting {layout : Layout} (count : Nat) (more : List Char)
    (outside : layout.outerPending = []) (isName : IsName name) :
    { layout.awaiting count name more with
        cursor := (layout.awaiting count name more).cursor.skip 0 }.refreshKeys =
      some (layout.awaiting count name more) :=
  refreshKeys_of_near outside (refreshKey_near rfl (Nat.add_le_add_left isName.short _))

/-- The colon after a name is read with what the key opens. -/
theorem Rests.readToken_colon {layout : Layout} {column : Nat} {start : List Token}
    {indents : List Int}
    (rests : Rests column (indent :: outer) true
      (Spelling.indentation count ++ (name ++ ':' :: gap :: more)) layout)
    (isGap : isGapChar gap = true) (opens : Opens (column + count) outer indent start indents) :
    ∃ next, (layout.awaiting count name (gap :: more)).readToken = some next ∧
      Rests (column + count + name.length + 1) indents false (gap :: more) next ∧
      next.tokens.toList = layout.tokens.toList ++
        (start ++ [.key, .scalar .plain (String.ofList name), .value]) := by
  have column_eq : (layout.awaiting count name (gap :: more)).pending.column = column + count := by
    rw [← rests.column_eq]
    rfl
  have inner_eq : (layout.awaiting count name (gap :: more)).indent = indent :=
    (List.cons.inj rests.indents_eq).1
  have outer_eq : (layout.awaiting count name (gap :: more)).outerIndents = outer :=
    (List.cons.inj rests.indents_eq).2
  have emitted : (layout.awaiting count name (gap :: more)).tokens.toList =
      layout.tokens.toList ++ [.scalar .plain (String.ofList name)] :=
    Array.toList_push
  have waits : (layout.awaiting count name (gap :: more)).outerPending = [] := rests.outside
  obtain ⟨next, valued, cursor, outside, settled, allows, opened⟩ :=
    readValueMark_eq waits rfl layout.tokens.toList _ rfl emitted
  have mark : (layout.awaiting count name (gap :: more)).readToken =
      (layout.awaiting count name (gap :: more)).readValueMark := by
    have visible : isBlank gap = true ∨ isBreak gap = true := by simpa [isGapChar] using isGap
    simp [readToken, Cursor.isAt, Cursor.at?, awaiting, Cursor.atDocumentMarker, Cursor.isGap,
      visible]
  rw [column_eq, inner_eq, outer_eq] at opened
  have rest_eq : next.cursor.rest = gap :: more := by rw [cursor]; rfl
  have place : next.cursor.column = column + count + name.length + 1 := by
    rw [cursor, ← rests.column_eq]
    rfl
  have quiet : next.pending.isPossible = true →
      next.pending.isRequired = false ∧ next.pending.line < next.cursor.line := by
    simp [settled]
  refine ⟨next, mark.trans valued, ?_⟩
  cases opens with
  | same =>
      rw [if_neg (Int.lt_irrefl _)] at opened
      obtain ⟨inner, outers, tokens⟩ := opened
      exact ⟨⟨rest_eq, place, by rw [inner, outers], allows, outside, quiet⟩, tokens⟩
  | deeper beyond =>
      rw [if_pos beyond] at opened
      obtain ⟨inner, outers, tokens⟩ := opened
      exact ⟨⟨rest_eq, place, by rw [inner, outers], allows, outside, quiet⟩, tokens⟩

theorem yields_key {column : Nat} {start : List Token} {indents : List Int}
    (isName : IsName name) (isGap : isGapChar gap = true)
    (opens : Opens (column + count) outer indent start indents)
    (later : Yields (column + count + name.length + 1) indents false (gap :: more) tokens) :
    Yields column (indent :: outer) true
      (Spelling.indentation count ++ (name ++ ':' :: gap :: more))
      (start ++ .key :: .scalar .plain (String.ofList name) :: .value :: tokens) := by
  intro layout rests fuel long
  -- Two tokens are read: the name, and the colon that makes a key of it.
  have named := rests.readToken_name isName isGap
  obtain ⟨next, valued, follows, emitted⟩ := rests.readToken_colon isGap opens
  have indent_eq : layout.indent = indent := (List.cons.inj rests.indents_eq).1
  have within := opens.le
  have deeper : (layout.awaiting count name (gap :: more)).closeTo
      (layout.awaiting count name (gap :: more)).cursor.column =
        layout.awaiting count name (gap :: more) := by
    refine closeTo_of_le ?_
    have place := rests.column_eq
    simp only [awaiting, emit, ready, indent_eq]
    omega
  have refreshed := refreshKeys_awaiting count (gap :: more) rests.outside isName
  obtain ⟨first, others, rfl, _⟩ := isName.begins
  have word := isName.words first List.mem_cons_self
  have starts : Starts first := ⟨isGapChar_of_isWord word, ne_of_isWord word (by decide),
    ne_of_isWord word (by decide)⟩
  have rests : Rests column (indent :: outer) true
    (Spelling.indentation count ++ first :: (others ++ ':' :: gap :: more)) layout := rests
  simp only [List.length_append, List.length_cons] at long
  obtain ⟨fuel, rfl⟩ : ∃ less, fuel = less + 1 + 1 := ⟨fuel - 2, by omega⟩
  have fuelled : (gap :: more).length < fuel := by
    rw [List.length_cons]
    omega
  rw [rests.run_eq starts (indent_eq ▸ within) named,
    Layout.run_eq rfl ⟨by decide, by decide, by decide⟩ refreshed deeper rfl valued,
    later next follows fuel fuelled, emitted]
  simp

end Entries

section Ends

variable {column : Nat} {allowsKey : Bool}

/-- Two layouts differ by the ends of some blocks. -/
structure Closed (count : Nat) (layout other : Layout) : Prop where
  tokens_eq : other.tokens.toList = layout.tokens.toList ++ List.replicate count .blockEnd
  cursor_eq : other.cursor = layout.cursor
  pending_eq : other.pending = layout.pending
  outerPending_eq : other.outerPending = layout.outerPending

theorem closeBlocks_split {limit : Int} (indents : List Nat) (layout : Layout)
    (indents_eq : layout.indent :: layout.outerIndents = indents.map Nat.cast ++ [-1]) :
    ∃ closed remaining, indents = closed ++ remaining ∧
      Closed closed.length layout (closeBlocks limit layout.outerIndents layout) ∧
      (closeBlocks limit layout.outerIndents layout).indent ::
          (closeBlocks limit layout.outerIndents layout).outerIndents =
        remaining.map Nat.cast ++ [-1] ∧
      (limit = -1 → remaining = []) := by
  induction indents generalizing layout with
  | nil =>
      have void : layout.outerIndents = [] := (List.cons.inj indents_eq).2
      refine ⟨[], [], rfl, ?_, ?_, fun _ => rfl⟩
      · rw [void, closeBlocks]
        exact ⟨by simp, rfl, rfl, rfl⟩
      · rw [void, closeBlocks]
        exact indents_eq
  | cons depth indents ih =>
      obtain ⟨inner, outer_eq⟩ := List.cons.inj indents_eq
      have inner : layout.indent = depth := inner
      obtain ⟨outer, others, split⟩ : ∃ outer others, layout.outerIndents = outer :: others := by
        rw [outer_eq]
        exact List.exists_cons_of_ne_nil (by simp)
      by_cases deeper : limit < layout.indent
      · obtain ⟨closed, remaining, rfl, ended, rest, all⟩ :=
          ih { layout.emit .blockEnd with indent := outer, outerIndents := others }
            (by rw [← split]; exact outer_eq)
        rw [split, closeBlocks, if_pos deeper]
        refine ⟨depth :: closed, remaining, rfl, ?_, rest, all⟩
        refine ⟨?_, ended.cursor_eq, ended.pending_eq, ended.outerPending_eq⟩
        rw [ended.tokens_eq]
        simp [emit, List.replicate_succ]
      · rw [split, closeBlocks, if_neg deeper]
        refine ⟨[], depth :: indents, rfl, ⟨by simp, rfl, rfl, rfl⟩, ?_, fun lowest => ?_⟩
        · exact indents_eq
        · omega

theorem skipToToken_nil {layout : Layout} (void : layout.cursor.rest = []) (fuel : Nat) :
    skipToToken (fuel + 1) layout = layout := by
  obtain ⟨⟨rest, index, line, column⟩, tokens, indent, outer, pending, outerPending, allows⟩ :=
    layout
  change rest = [] at void
  subst void
  simp [skipToToken, Cursor.isAt, Cursor.at?, Cursor.skipWhile, Cursor.readWhile, Cursor.skip,
    Cursor.atBreak]

theorem closeTo_split {layout : Layout} (outside : layout.outerPending = []) (limit : Int)
    (indents : List Nat)
    (indents_eq : layout.indent :: layout.outerIndents = indents.map Nat.cast ++ [-1]) :
    ∃ closed remaining, indents = closed ++ remaining ∧
      Closed closed.length layout (layout.closeTo limit) ∧
      (layout.closeTo limit).indent :: (layout.closeTo limit).outerIndents =
        remaining.map Nat.cast ++ [-1] ∧
      (limit = -1 → remaining = []) := by
  have flow : layout.isFlow = false := by simp [isFlow, outside]
  simpa [closeTo, flow] using closeBlocks_split indents layout indents_eq

/-- At the end of the text the open blocks end. -/
theorem yields_end (indents : List Nat) :
    Yields column (indents.map Nat.cast ++ [-1]) allowsKey []
      (List.replicate indents.length .blockEnd ++ [.streamEnd]) := by
  intro layout rests fuel long
  obtain ⟨fuel, rfl⟩ := Nat.exists_eq_add_one_of_ne_zero (Nat.ne_zero_of_lt long)
  have refreshed : layout.refreshKeys = some (layout.ready 0) := by
    have settled := refreshKey_settled rests.settled
    have still : layout.cursor.skip 0 = layout.cursor := rfl
    simp [refreshKeys, settled, rests.outside, ready, still]
  have ready_outside : (layout.ready 0).outerPending = [] := rests.outside
  -- Some blocks are closed by the column at the end, the others because it is the end.
  obtain ⟨closed, remaining, rfl, ended, rest, _⟩ :=
    closeTo_split ready_outside (layout.ready 0).cursor.column indents rests.indents_eq
  obtain ⟨middle, middle_eq⟩ : ∃ middle,
    (layout.ready 0).closeTo (layout.ready 0).cursor.column = middle := ⟨_, rfl⟩
  rw [middle_eq] at ended rest
  have outside : middle.outerPending = [] := ended.outerPending_eq.trans rests.outside
  obtain ⟨closed', remaining', split, ended', _, all⟩ := closeTo_split outside (-1) remaining rest
  have everything : remaining = closed' := by rw [split, all rfl, List.append_nil]
  have atEnd : middle.cursor.atEnd = true := by
    have cursor : middle.cursor = layout.cursor := ended.cursor_eq
    simp [Cursor.atEnd, cursor, rests.rest_eq]
  have settled : (middle.closeTo (-1)).pending.isPossible = false := by
    rw [ended'.pending_eq, ended.pending_eq]
    rfl
  have tokens : (layout.ready 0).tokens = layout.tokens := rfl
  rw [run, skipToToken_nil rests.rest_eq]
  simp only [refreshed, middle_eq, atEnd, if_true]
  simp [finish, dropKey, settled, emit, ended'.tokens_eq, ended.tokens_eq, tokens, everything,
    ← List.replicate_append_replicate]

end Ends

theorem rests_start (characters : List Char) :
    Rests 0 [-1] true characters (start characters) :=
  ⟨rfl, rfl, rfl, rfl, rfl, nofun⟩

/-- The tokens of a text are those that its beginning yields. -/
theorem Yields.tokens_eq {text : String} {tokens : List Token}
    (yields : Yields 0 [-1] true text.toList tokens)
    (unmarked : text.toList.head? ≠ some '\ufeff')
    (allowed : text.toList.all isAllowed = true) : Yaml.tokens text = tokens := by
  have cut := yields (start text.toList) (rests_start _) _ (Nat.lt_succ_self _)
  rw [Yaml.tokens]
  split
  · rename_i rest begins
    rw [begins] at unmarked
    exact absurd rfl unmarked
  · exact (if_pos allowed).trans cut

end Layout

end Yaml

end Lineage
