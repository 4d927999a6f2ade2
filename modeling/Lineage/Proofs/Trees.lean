import Lineage.Yaml.Content

/-!
# Growing a tree

The tokens of a document become a tree from the left to the right.  Nodes
without anchors and tags leave nothing behind but the number of their marks.
-/

namespace Lineage

namespace Yaml

namespace Reading

def Reads {α : Type} (read : Reading α) (tokens rest : List Token) (part : α) : Prop :=
  ∀ draft : Draft, draft.tokens = tokens →
    ∃ size, read.run draft = some (part, { draft with tokens := rest, size })

section Steps

variable {α β : Type} {tokens between rest : List Token}

theorem Reads.bind {first : Reading α} {next : α → Reading β} {part : α} {whole : β}
    (reads : Reads first tokens between part) (later : Reads (next part) between rest whole) :
    Reads (first >>= next) tokens rest whole := by
  intro draft begins
  obtain ⟨size, run⟩ := reads draft begins
  obtain ⟨size', further⟩ := later { draft with tokens := between, size } rfl
  exact ⟨size', by rw [StateT.run_bind, run]; exact further⟩

theorem reads_pure (part : α) (tokens : List Token) : Reads (pure part) tokens tokens part := by
  intro draft begins
  subst begins
  exact ⟨draft.size, rfl⟩

theorem reads_peek (token : Token) (rest : List Token) :
    Reads peek (token :: rest) (token :: rest) token := by
  intro draft begins
  refine ⟨draft.size, ?_⟩
  obtain ⟨tokens, handles, names, anchored, size⟩ := draft
  subst begins
  rfl

theorem reads_drop (token : Token) (rest : List Token) :
    Reads drop (token :: rest) rest () := by
  intro draft begins
  refine ⟨draft.size, ?_⟩
  simp [drop, begins]

end Steps

section Nodes

variable {isBlock allowsItems : Bool} {fuel : Nat} {tokens between rest : List Token}

theorem reads_scalar (style : ScalarStyle) (text : String) (rest : List Token) :
    Reads (node isBlock allowsItems (fuel + 1)) (.scalar style text :: rest) rest
      (.scalar none style text) := by
  intro draft begins
  refine ⟨draft.size + 1, ?_⟩
  simp [node, peek, properties, drop, count, begins]

theorem reads_brackets (rest : List Token) :
    Reads (node isBlock allowsItems (fuel + 2)) (.flowSequenceStart :: .flowSequenceEnd :: rest)
      rest (.sequence none []) := by
  intro draft begins
  refine ⟨draft.size + 1 + 1, ?_⟩
  simp [node, peek, properties, drop, count, begins, flowItems]

theorem Reads.part {token : Token} {part : Node}
    (reads : Reads (node true true fuel) (token :: tokens) rest part)
    (present : token ≠ .key ∧ token ≠ .value ∧ token ≠ .blockEnd) :
    Reads (blockPart (fuel + 1)) (token :: tokens) rest part := by
  refine (reads_peek token tokens).bind ?_
  cases token <;> first | exact reads | simp at present

/-- The items of a sequence that is not indented, up to a token that begins no item. -/
theorem reads_items {token : Token} (other : token ≠ .blockEntry) (texts : List String)
    (long : texts.length < fuel) :
    Reads (bareItems fuel)
      ((texts.flatMap fun text => [.blockEntry, .scalar .plain text]) ++ token :: rest)
      (token :: rest) (texts.map (.scalar none .plain)) := by
  induction texts generalizing fuel with
  | nil =>
      obtain ⟨fuel, rfl⟩ := Nat.exists_eq_add_one_of_ne_zero (Nat.ne_zero_of_lt long)
      refine (reads_peek token rest).bind ?_
      cases token <;> first | exact reads_pure [] _ | simp at other
  | cons text texts ih =>
      obtain ⟨fuel, rfl⟩ : ∃ less, fuel = less + 1 + 1 :=
        ⟨fuel - 2, by simp only [List.length_cons] at long; omega⟩
      refine (reads_peek .blockEntry _).bind ((reads_drop .blockEntry _).bind ?_)
      refine (reads_peek (.scalar .plain text) _).bind ((reads_scalar .plain text _).bind ?_)
      exact (ih (Nat.lt_of_succ_lt_succ long)).bind (reads_pure _ _)

theorem Reads.sequence {items : List Node}
    (reads : Reads (bareItems fuel) (.blockEntry :: tokens) rest items) :
    Reads (node isBlock true (fuel + 1)) (.blockEntry :: tokens) rest (.sequence none items) := by
  intro draft begins
  obtain ⟨size, run⟩ :=
    reads { draft with tokens := .blockEntry :: tokens, size := draft.size + 1 } rfl
  refine ⟨size + 1, ?_⟩
  simp [node, peek, properties, count, begins, run]

/-- The end of a mapping. -/
theorem reads_blockEnd (rest : List Token) :
    Reads (blockEntries (fuel + 1)) (.blockEnd :: rest) rest [] :=
  (reads_peek _ _).bind ((reads_drop _ _).bind (reads_pure _ _))

/-- An entry of a mapping whose key is a plain scalar. -/
theorem Reads.entry {value : Node} {entries : List (Node × Node)} (name : String)
    (reads : Reads (blockPart (fuel + 2)) tokens between value)
    (later : Reads (blockEntries (fuel + 2)) between rest entries) :
    Reads (blockEntries (fuel + 3)) (.key :: .scalar .plain name :: .value :: tokens) rest
      ((.scalar none .plain name, value) :: entries) := by
  have key : Reads (blockPart (fuel + 2)) (.scalar .plain name :: .value :: tokens)
      (.value :: tokens) (.scalar none .plain name) :=
    (reads_scalar .plain name _).part (by simp)
  refine (reads_peek _ _).bind ((reads_drop _ _).bind (key.bind ?_))
  refine (reads_peek _ _).bind ((reads_drop _ _).bind (reads.bind ?_))
  exact later.bind (reads_pure _ _)

theorem Reads.mapping {entries : List (Node × Node)}
    (reads : Reads (blockEntries fuel) tokens rest entries) :
    Reads (node true allowsItems (fuel + 1)) (.blockMappingStart :: tokens) rest
      (.mapping none entries) := by
  intro draft begins
  obtain ⟨size, run⟩ := reads { draft with tokens, size := draft.size + 1 } rfl
  refine ⟨size + 1, ?_⟩
  simp [node, peek, properties, drop, count, begins, run]

end Nodes

end Reading

section Documents

open Reading

variable {tokens : List Token} {entries : List (Node × Node)}

theorem readDocuments_streamEnd (fuel : Nat) :
    readDocuments false (fuel + 1) [.streamEnd] = [] := by
  simp [readDocuments, dropEnds, document, peek]

/-- A text whose tokens are those of one mapping is a document with it. -/
theorem soleDocument_of_reads {text : String}
    (cut : Yaml.tokens text = .blockMappingStart :: tokens)
    (grown : ∀ fuel, tokens.length < fuel →
      Reads (blockEntries fuel) tokens [.streamEnd] entries) :
    ∃ size, soleDocument text = some ⟨.mapping none entries, [], size⟩ := by
  have long : tokens.length < 4 * (tokens.length + 1) + 7 := by omega
  have whole : Reads (node true false (4 * (tokens.length + 1) + 8)) (.blockMappingStart :: tokens)
      [.streamEnd] (.mapping none entries) := (grown _ long).mapping
  obtain ⟨size, run⟩ := whole ⟨.blockMappingStart :: tokens, usualHandles [], [], [], 0⟩ rfl
  refine ⟨size, ?_⟩
  have all : documents text = [some ⟨.mapping none entries, [], size⟩] := by
    rw [documents, cut, List.length_cons, readDocuments]
    simp [document, peek, bareDocument, run, readDocuments_streamEnd]
  rw [soleDocument, all]

end Documents

end Yaml

end Lineage
