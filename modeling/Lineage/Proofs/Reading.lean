import Lineage.Proofs.Parent
import Lineage.Proofs.Precedence

/-!
# Two ways to read a file

The file for all contexts is read in two ways.  Where it is one layer of several
its value counts; where it is read alone each setting is taken as it is spelled.
The two ways do not always agree: a scalar that is spelled like a number is no
text for the first, and null stands for an empty collection only there.  But
what they both read is the same, and either reads what the other does unless
something in the document is spelled in one of a few ways.
-/

namespace Lineage

namespace Yaml.Document

variable {document : Document} {node : Node} {value : Value} {tag : Option String}
  {style : ScalarStyle} {text : String}

theorem Atom.untagged (atom : Atom text value) : value.untagged = value := by
  cases atom <;> rfl

/-- Apart from a tag of the reader's own a scalar means what it does by itself, unless
it has a common tag. -/
theorem ScalarMeans.untagged_cases (means : ScalarMeans tag style text value) :
    (bareValue? style text = some value.untagged ∧ (tag = none ∨ ownTag? tag ≠ none)) ∨
      ∃ common, tag = some common ∧ ownTag? tag = none ∧ Common text common value.untagged := by
  cases means with
  | own own spelled =>
      refine .inl ⟨?_, .inr (by simp [own])⟩
      rw [spelled, Value.untagged, (atom_of_bareValue? spelled).untagged]
  | common common spelled =>
      have known := common_of_commonValue? spelled
      rw [known.atom.untagged]
      exact .inr ⟨_, rfl, common, known⟩
  | bare spelled =>
      refine .inl ⟨?_, .inl rfl⟩
      rw [spelled, (atom_of_bareValue? spelled).untagged]

/-- What is left of the meaning of a scalar without a tag of the reader's own. -/
theorem ScalarMeans.atom (means : ScalarMeans tag style text value) : Atom text value.untagged := by
  rcases means.untagged_cases with ⟨bare, _⟩ | ⟨_, _, _, known⟩
  · exact atom_of_bareValue? bare
  · exact known.atom

theorem Wraps.untagged {inner : Value} (wraps : Wraps tag inner value)
    (plain : inner.untagged = inner) : value.untagged = inner := by
  rw [Wraps] at wraps
  split at wraps <;> subst wraps
  · rw [Value.untagged, plain]
  · exact plain

/-- What a node means that is not an alias, apart from its tag. -/
inductive Holds (document : Document) : Node → Value → Prop
  | empty : Holds document .empty .null
  | scalar {tag : Option String} {style : ScalarStyle} {text : String} {value : Value}
      (atom : Atom text value) : Holds document (.scalar tag style text) value
  | sequence {tag : Option String} {nodes : List Node} {values : List Value}
      (items : List.Forall₂ document.Means nodes values) :
      Holds document (.sequence tag nodes) (.sequence values)
  | mapping {tag : Option String} {nodes : List (Node × Node)} {values : List (Value × Value)}
      (entries : List.Forall₂
        (fun node value => document.Means node.1 value.1 ∧ document.Means node.2 value.2)
        nodes values) :
      Holds document (.mapping tag nodes) (.mapping values)

theorem Means.holds (means : document.Means node value) :
    ∃ actual, Settings.settled document node = some actual ∧
      Holds document actual value.untagged := by
  obtain ⟨actual, settled, denotes⟩ := means.denotes
  refine ⟨actual, settled, ?_⟩
  cases denotes with
  | empty => exact .empty
  | scalar means => exact .scalar means.atom
  | sequence items wraps =>
      rw [wraps.untagged rfl]
      exact .sequence items
  | mapping entries distinct wraps =>
      rw [wraps.untagged rfl]
      exact .mapping entries

end Yaml.Document

namespace Settings

open Yaml (Value Node Document)
open Yaml.Value (Named)

variable {document : Document} {node : Node} {value : Value}

/-- A text by its value is the text that is spelled. -/
theorem textOfNode_of_untagged {text : String} (means : document.Means node value)
    (same : value.untagged = .string text) : textOfNode document node = some text := by
  obtain ⟨actual, settled, holds⟩ := means.holds
  rw [same] at holds
  rw [textOfNode, settled]
  cases holds with
  | scalar atom =>
      cases atom
      rfl

theorem textOfValue_eq_some_iff {text : String} :
    textOfValue value = some text ↔ value.untagged = .string text := by
  rw [textOfValue]
  cases value.untagged <;> simp

section Names

variable {vs : List (String × Value)} {ns : List (String × Node)}

def Paired (document : Document) (vs : List (String × Value)) (ns : List (String × Node)) : Prop :=
  List.Forall₂ (fun first second => first.1 = second.1 ∧ document.Means second.2 first.2) vs ns

theorem paired_of_entries {entries : List (Value × Value)} {nodes : List (Node × Node)}
    (means : List.Forall₂
      (fun node value => document.Means node.1 value.1 ∧ document.Means node.2 value.2)
      nodes entries)
    (valueNames : List.Forall₂
      (fun entry pair => entry.1.untagged = .string pair.1 ∧ entry.2 = pair.2) entries vs)
    (nodeNames : List.Forall₂
      (fun node pair => textOfNode document node.1 = some pair.1 ∧ node.2 = pair.2) nodes ns) :
    Paired document vs ns := by
  induction means generalizing vs ns with
  | nil =>
      cases valueNames
      cases nodeNames
      exact .nil
  | @cons node value nodes entries first rest ih =>
      obtain ⟨pair, vs, ⟨text, same⟩, others, rfl⟩ := List.forall₂_cons_left_iff.mp valueNames
      obtain ⟨second, ns, ⟨spelled, sameNode⟩, remaining, rfl⟩ :=
        List.forall₂_cons_left_iff.mp nodeNames
      refine .cons ⟨?_, ?_⟩ (ih others remaining)
      · rw [textOfNode_of_untagged first.1 text] at spelled
        exact Option.some.inj spelled
      · rw [← same, ← sameNode]
        exact first.2

theorem namedEntries_cases (read : namedEntries value = some vs) :
    (value.untagged = .null ∧ vs = []) ∨
      ∃ entries, value.untagged = .mapping entries ∧
        List.Forall₂ (fun entry pair => entry.1.untagged = .string pair.1 ∧ entry.2 = pair.2)
          entries vs := by
  rw [namedEntries] at read
  cases shape : value.untagged with
  | null =>
      rw [shape] at read
      cases read
      exact .inl ⟨rfl, rfl⟩
  | mapping entries =>
      rw [shape] at read
      exact .inr ⟨entries, rfl, namedEntries_mapping_eq_some_iff.mp read⟩
  | _ =>
      rw [shape] at read
      cases read

theorem namedNodes_mapping_eq_some_iff {nodes : List (Node × Node)} {tag : Option String}
    (settled : settled document node = some (.mapping tag nodes)) :
    namedNodes document node = some ns ↔
      List.Forall₂ (fun node pair => textOfNode document node.1 = some pair.1 ∧ node.2 = pair.2)
        nodes ns := by
  rw [namedNodes, settled]
  change nodes.mapM _ = some ns ↔ _
  rw [mapM_eq_some_iff_forall₂]
  refine ⟨fun read => read.imp ?_, fun read => read.imp ?_⟩
  · rintro ⟨key, node⟩ ⟨name, other⟩ found
    obtain ⟨text, spelled, same⟩ := Option.map_eq_some_iff.mp found
    cases same
    exact ⟨spelled, rfl⟩
  · rintro ⟨key, node⟩ ⟨name, other⟩ ⟨spelled, same⟩
    change textOfNode document key = some name at spelled
    change node = other at same
    simp only [spelled, same, Option.map_some]

/-- A node that is left out stands for an empty collection. -/
theorem namedNodes_cases (read : namedNodes document node = some ns) :
    ((settled document node = some .empty ∨
      ∃ tag, settled document node = some (.scalar tag .plain "")) ∧ ns = []) ∨
      ∃ tag nodes, settled document node = some (.mapping tag nodes) ∧
        List.Forall₂ (fun node pair => textOfNode document node.1 = some pair.1 ∧ node.2 = pair.2)
          nodes ns := by
  rcases actual : settled document node with _ | _ | ⟨tag, style, text⟩ | _ | ⟨tag, nodes⟩ | _
  · simp [namedNodes, actual] at read
  · refine .inl ⟨.inl rfl, ?_⟩
    have void : [] = ns := by simpa [namedNodes, actual] using read
    exact void.symm
  · have omitted : isOmitted style text = true ∧ [] = ns := by
      simpa [namedNodes, actual] using read
    obtain ⟨plain, rfl⟩ := omitted
    rw [isOmitted, Bool.and_eq_true, decide_eq_true_eq, String.isEmpty_iff] at plain
    obtain ⟨rfl, rfl⟩ := plain
    exact .inl ⟨.inr ⟨tag, rfl⟩, rfl⟩
  · simp [namedNodes, actual] at read
  · exact .inr ⟨tag, nodes, rfl, (namedNodes_mapping_eq_some_iff actual).mp read⟩
  · simp [namedNodes, actual] at read

theorem paired_of_named (means : document.Means node value)
    (valueRead : namedEntries value = some vs) (nodeRead : namedNodes document node = some ns) :
    Paired document vs ns := by
  obtain ⟨actual, settled, holds⟩ := means.holds
  rcases namedEntries_cases valueRead with ⟨void, rfl⟩ | ⟨entries, shape, valueNames⟩
  · rcases namedNodes_cases nodeRead with ⟨_, rfl⟩ | ⟨tag, nodes, same, _⟩
    · exact .nil
    · rw [settled] at same
      cases same
      rw [void] at holds
      cases holds
  · rw [shape] at holds
    cases holds with
    | scalar atom => cases atom
    | mapping means =>
        rw [namedNodes_mapping_eq_some_iff settled] at nodeRead
        exact paired_of_entries means valueNames nodeRead

/-- What two readers make of one name: it is missing for both, both take what it has,
or it is there twice for both. -/
theorem fieldOr_paired {α : Type} (paired : Paired document vs ns) (name : String) (otherwise : α)
    (fromValue : Value → Option α) (fromNode : Node → Option α) :
    (fieldOr vs name otherwise fromValue = some otherwise ∧
      fieldOr ns name otherwise fromNode = some otherwise) ∨
    (∃ value node, (name, node) ∈ ns ∧ document.Means node value ∧
      fieldOr vs name otherwise fromValue = fromValue value ∧
        fieldOr ns name otherwise fromNode = fromNode node) ∨
    (fieldOr vs name otherwise fromValue = none ∧ fieldOr ns name otherwise fromNode = none) := by
  have here : Paired document (vs.filter fun pair => pair.1 = name)
      (ns.filter fun pair => pair.1 = name) := by
    refine List.rel_filter ?_ paired
    rintro first second ⟨same, _⟩
    simp [same]
  have inside : ∀ pair ∈ ns.filter fun pair => pair.1 = name, pair.1 = name ∧ pair ∈ ns := by
    intro pair member
    rw [List.mem_filter] at member
    exact ⟨of_decide_eq_true member.2, member.1⟩
  simp only [fieldOr]
  generalize vs.filter (fun pair => pair.1 = name) = first at here
  generalize ns.filter (fun pair => pair.1 = name) = second at here inside
  cases here with
  | nil => exact .inl ⟨rfl, rfl⟩
  | @cons valuePair nodePair values nodes both rest =>
      cases rest with
      | nil =>
          obtain ⟨same, member⟩ := inside nodePair List.mem_cons_self
          refine .inr (.inl ⟨valuePair.2, nodePair.2, ?_, both.2, rfl, rfl⟩)
          rw [← same]
          exact member
      | cons => exact .inr (.inr ⟨rfl, rfl⟩)

end Names

section Coincidence

variable {α : Type}

/-- Two readers that read nothing different. -/
def Coincide (document : Document) (fromValue : Value → Option α) (fromNode : Node → Option α) :
    Prop :=
  ∀ {node value one other}, document.Means node value → fromValue value = some one →
    fromNode node = some other → one = other

theorem text_coincide (document : Document) :
    Coincide document textOfValue (textOfNode document) := by
  intro node value one other means valueRead nodeRead
  rw [textOfNode_of_untagged means (textOfValue_eq_some_iff.mp valueRead)] at nodeRead
  exact Option.some.inj nodeRead

theorem wordOfValue_eq_some_iff {word : UInt64} :
    wordOfValue value = some word ↔
      ∃ number : Int, value.untagged = .integer number ∧ 0 ≤ number ∧
        UInt64.ofNat number.toNat = word := by
  rw [wordOfValue]
  cases value.untagged <;> simp

theorem wordOfNode_eq_some_iff {word : UInt64} :
    wordOfNode document node = some word ↔
      ∃ tag style text number, settled document node = some (.scalar tag style text) ∧
        (style = .plain ∨ style = .literal ∧ tag = some "tag:yaml.org,2002:int") ∧
        Yaml.Scalar.natural? (Nat.pow 2 64) text = some number ∧ UInt64.ofNat number = word := by
  rw [wordOfNode]
  rcases settled document node with _ | _ | ⟨tag, style, text⟩ | _ | _ | _ <;> simp [and_assoc]

theorem integer?_of_natural? {text : String} {number : Nat}
    (spelled : Yaml.Scalar.natural? (Nat.pow 2 64) text = some number) :
    Yaml.Scalar.integer? text = some (some (number : Int)) := by
  rw [Yaml.Scalar.integer?, spelled]

theorem word_coincide (document : Document) :
    Coincide document wordOfValue (wordOfNode document) := by
  intro node value one other means valueRead nodeRead
  obtain ⟨number, shape, positive, rfl⟩ := wordOfValue_eq_some_iff.mp valueRead
  obtain ⟨tag, style, text, natural, settled, _, spelled, rfl⟩ := wordOfNode_eq_some_iff.mp nodeRead
  obtain ⟨actual, same, holds⟩ := means.holds
  rw [settled] at same
  cases same
  rw [shape] at holds
  cases holds with
  | scalar atom =>
      cases atom with
      | integer read =>
          rw [integer?_of_natural? spelled] at read
          cases read
          rfl

theorem ofName?_eq_some_iff_eq_name {kind : WorkloadKind} {text : String} :
    WorkloadKind.ofName? text = some kind ↔ text = kind.name :=
  WorkloadKind.ofName?_eq_some_iff.trans eq_comm

theorem kindOfValue_eq_some_iff {kind : WorkloadKind} :
    kindOfValue value = some kind ↔
      value = .string kind.name ∨ value = .tagged kind.name .null := by
  fun_cases kindOfValue with
  | case1 name => simp [ofName?_eq_some_iff_eq_name]
  | case2 name => simp [ofName?_eq_some_iff_eq_name]
  | case3 =>
      rename_i text tagged
      refine iff_of_false nofun ?_
      rintro (rfl | rfl)
      · exact text _ rfl
      · exact tagged _ rfl

theorem kindOfNode_eq_some_iff {kind : WorkloadKind} :
    kindOfNode document node = some kind ↔
      ∃ tag style text, settled document node = some (.scalar tag style text) ∧
        (Document.ownTag? tag = none ∧ text = kind.name ∨
          Document.ownTag? tag = some kind.name ∧ style = .plain ∧
            (text.isEmpty = true ∨ Yaml.Scalar.isNull text = true)) := by
  rw [kindOfNode]
  rcases settled document node with _ | _ | ⟨tag, style, text⟩ | _ | _ | _
  case some.scalar =>
    cases own : Document.ownTag? tag with
    | none => simp [own, ofName?_eq_some_iff_eq_name]
    | some name =>
        simp [own, ofName?_eq_some_iff_eq_name, and_comm]
  all_goals simp

theorem null_of_bareValue? {style : Yaml.ScalarStyle} {text : String}
    (spelled : Document.bareValue? style text = some .null) :
    style = .plain ∧ (text.isEmpty = true ∨ Yaml.Scalar.isNull text = true) := by
  cases style with
  | plain =>
      cases Document.atom_of_bareValue? spelled with
      | null void => exact ⟨rfl, void⟩
  | _ => cases spelled

/-- A kind by its value is the kind that is spelled. -/
theorem kindOfNode_of_value {kind : WorkloadKind} (means : document.Means node value)
    (read : kindOfValue value = some kind) : kindOfNode document node = some kind := by
  obtain ⟨actual, settled, denotes⟩ := means.denotes
  rw [kindOfNode_eq_some_iff]
  rw [kindOfValue_eq_some_iff] at read
  cases denotes with
  | empty => simp at read
  | sequence items wraps =>
      rw [Document.Wraps] at wraps
      split at wraps <;> subst wraps <;> simp at read
  | mapping entries distinct wraps =>
      rw [Document.Wraps] at wraps
      split at wraps <;> subst wraps <;> simp at read
  | scalar means =>
      refine ⟨_, _, _, settled, ?_⟩
      cases means with
      | own own spelled =>
          simp only [reduceCtorEq, Value.tagged.injEq, false_or] at read
          obtain ⟨rfl, rfl⟩ := read
          exact .inr ⟨own, null_of_bareValue? spelled⟩
      | common common spelled =>
          have atom := (Document.common_of_commonValue? spelled).atom
          rcases read with (rfl | rfl)
          · cases atom
            exact .inl ⟨common, rfl⟩
          · cases atom
      | bare spelled =>
          have atom := Document.atom_of_bareValue? spelled
          rcases read with (rfl | rfl)
          · cases atom
            exact .inl ⟨rfl, rfl⟩
          · cases atom

theorem kindsOfValue_cases {kinds : List WorkloadKind} (read : kindsOfValue value = some kinds) :
    (value.untagged = .null ∧ kinds = []) ∨
      ∃ items, value.untagged = .sequence items ∧
        List.Forall₂ (fun item kind => kindOfValue item = some kind) items kinds := by
  rw [kindsOfValue] at read
  cases shape : value.untagged with
  | null =>
      rw [shape] at read
      cases read
      exact .inl ⟨rfl, rfl⟩
  | sequence items =>
      rw [shape] at read
      exact .inr ⟨items, rfl, mapM_eq_some_iff_forall₂.mp read⟩
  | _ =>
      rw [shape] at read
      cases read

/-- Kinds that a sequence lists by its value are those that are spelled in it. -/
theorem mapM_kindOfNode_of_values {nodes : List Node} {items : List Value}
    {kinds : List WorkloadKind} (means : List.Forall₂ document.Means nodes items)
    (read : List.Forall₂ (fun item kind => kindOfValue item = some kind) items kinds) :
    nodes.mapM (kindOfNode document) = some kinds := by
  rw [mapM_eq_some_iff_forall₂]
  induction means generalizing kinds with
  | nil =>
      cases read
      exact .nil
  | cons first rest ih =>
      obtain ⟨kind, kinds, found, others, rfl⟩ := List.forall₂_cons_left_iff.mp read
      exact .cons (kindOfNode_of_value first found) (ih others)

theorem kinds_coincide (document : Document) :
    Coincide document kindsOfValue (kindsOfNode document) := by
  intro node value one other means valueRead nodeRead
  obtain ⟨actual, settled, holds⟩ := means.holds
  rw [kindsOfNode, settled] at nodeRead
  rcases kindsOfValue_cases valueRead with ⟨shape, rfl⟩ | ⟨items, shape, kinds⟩ <;>
    rw [shape] at holds
  · cases holds with
    | empty =>
        cases nodeRead
        rfl
    | scalar atom =>
        simp only [Option.bind_eq_bind, Option.bind_some] at nodeRead
        split at nodeRead <;> cases nodeRead
        rfl
  · cases holds with
    | scalar atom => cases atom
    | sequence means =>
        simp only [Option.bind_eq_bind, Option.bind_some] at nodeRead
        rw [mapM_kindOfNode_of_values means kinds] at nodeRead
        exact Option.some.inj nodeRead

theorem fieldOr_coincide {fromValue : Value → Option α} {fromNode : Node → Option α}
    {vs : List (String × Value)} {ns : List (String × Node)} {name : String}
    {otherwise one other : α} (coincide : Coincide document fromValue fromNode)
    (paired : Paired document vs ns) (valueRead : fieldOr vs name otherwise fromValue = some one)
    (nodeRead : fieldOr ns name otherwise fromNode = some other) : one = other := by
  rcases fieldOr_paired paired name otherwise fromValue fromNode with
    ⟨first, second⟩ | ⟨value, node, _, means, first, second⟩ | ⟨first, _⟩
  · rw [first] at valueRead
    rw [second] at nodeRead
    exact (Option.some.inj valueRead).symm.trans (Option.some.inj nodeRead)
  · exact coincide means (first ▸ valueRead) (second ▸ nodeRead)
  · rw [first] at valueRead
    cases valueRead

theorem level_coincide (document : Document) :
    Coincide document levelOfValue (levelOfNode document) := by
  intro node value one other means valueRead nodeRead
  obtain ⟨vs, valueNames, valueField⟩ := Option.bind_eq_some_iff.mp valueRead
  obtain ⟨ns, nodeNames, nodeField⟩ := Option.bind_eq_some_iff.mp nodeRead
  exact fieldOr_coincide (text_coincide document) (paired_of_named means valueNames nodeNames)
    valueField nodeField

end Coincidence

section Forth

/-- A section of a document, or the document, that is not spelled as null. -/
def Written (document : Document) (node : Node) : Prop :=
  ∀ tag style text, settled document node = some (.scalar tag style text) →
    Yaml.Scalar.isNull text = false

/-- A number that is spelled without a minus sign, and in the plain or the literal
style if it has the tag of integers. -/
def Counted (document : Document) (node : Node) : Prop :=
  ∀ tag style text, settled document node = some (.scalar tag style text) →
    text.toList.head? ≠ some '-' ∧
      (tag = some "tag:yaml.org,2002:int" → style = .plain ∨ style = .literal)

/-- A null that is not spelled is left out. -/
theorem omitted_of_null {tag : Option String} {style : Yaml.ScalarStyle} {text : String}
    (means : Document.ScalarMeans tag style text value) (void : value.untagged = .null)
    (written : Yaml.Scalar.isNull text = false) : isOmitted style text = true := by
  rcases means.untagged_cases with ⟨bare, _⟩ | ⟨common, _, _, known⟩
  · rw [void] at bare
    obtain ⟨rfl, empty | null⟩ := null_of_bareValue? bare
    · rw [isOmitted, empty]
      rfl
    · rw [written] at null
      cases null
  · rw [void] at known
    cases known with
    | null spelled =>
        rw [written] at spelled
        cases spelled

/-- A node of null is the only one of its document or is left out. -/
theorem settled_of_null (means : document.Means node value) (void : value.untagged = .null)
    (written : Written document node) :
    settled document node = some .empty ∨
      ∃ tag style text, settled document node = some (.scalar tag style text) ∧
        isOmitted style text = true := by
  obtain ⟨actual, settled, denotes⟩ := means.denotes
  cases denotes with
  | empty => exact .inl settled
  | scalar means =>
      exact .inr ⟨_, _, _, settled, omitted_of_null means void (written _ _ _ settled)⟩
  | sequence items wraps =>
      rw [wraps.untagged rfl] at void
      cases void
  | mapping entries distinct wraps =>
      rw [wraps.untagged rfl] at void
      cases void

theorem exists_namedNodes {vs : List (String × Value)} (means : document.Means node value)
    (read : namedEntries value = some vs) (written : Written document node) :
    ∃ ns, namedNodes document node = some ns := by
  rcases namedEntries_cases read with ⟨void, _⟩ | ⟨entries, shape, names⟩
  · rcases settled_of_null means void written with empty | ⟨tag, style, text, scalar, omitted⟩
    · exact ⟨[], by simp [namedNodes, empty]⟩
    · exact ⟨[], by simp [namedNodes, scalar, omitted]⟩
  · obtain ⟨actual, settled, holds⟩ := means.holds
    rw [shape] at holds
    cases holds with
    | scalar atom => cases atom
    | mapping parts =>
        simp only [namedNodes_mapping_eq_some_iff settled]
        clear settled means read shape written
        induction parts generalizing vs with
        | nil => exact ⟨[], .nil⟩
        | cons first rest ih =>
            obtain ⟨pair, vs, ⟨text, _⟩, others, rfl⟩ := List.forall₂_cons_left_iff.mp names
            obtain ⟨ns, remaining⟩ := ih others
            exact ⟨(pair.1, _) :: ns, .cons ⟨textOfNode_of_untagged first.1 text, rfl⟩ remaining⟩

theorem exists_kindsOfNode {kinds : List WorkloadKind} (means : document.Means node value)
    (read : kindsOfValue value = some kinds) (written : Written document node) :
    ∃ kinds, kindsOfNode document node = some kinds := by
  rcases kindsOfValue_cases read with ⟨void, _⟩ | ⟨items, shape, listed⟩
  · rcases settled_of_null means void written with empty | ⟨tag, style, text, scalar, omitted⟩
    · exact ⟨[], by simp [kindsOfNode, empty]⟩
    · exact ⟨[], by simp [kindsOfNode, scalar, omitted]⟩
  · obtain ⟨actual, settled, holds⟩ := means.holds
    rw [shape] at holds
    cases holds with
    | scalar atom => cases atom
    | sequence parts =>
        refine ⟨kinds, ?_⟩
        rw [kindsOfNode, settled]
        exact mapM_kindOfNode_of_values parts listed

theorem exists_natural?_of_integer? {text : String} {number : Int}
    (spelled : Yaml.Scalar.integer? text = some (some number))
    (unsigned : text.toList.head? ≠ some '-') :
    ∃ natural, Yaml.Scalar.natural? (Nat.pow 2 64) text = some natural := by
  rw [Yaml.Scalar.integer?] at spelled
  cases natural : Yaml.Scalar.natural? (Nat.pow 2 64) text with
  | some found => exact ⟨found, rfl⟩
  | none =>
      have none : ∀ bound, Yaml.Scalar.negative? bound text = none := by
        intro bound
        rw [Yaml.Scalar.negative?]
        split
        · rename_i rest shape
          rw [shape] at unsigned
          exact absurd rfl unsigned
        · rfl
      simp only [natural, none] at spelled
      split at spelled <;> cases spelled

theorem plain_of_integer {style : Yaml.ScalarStyle} {text : String} {number : Int}
    (spelled : Document.bareValue? style text = some (.integer number)) : style = .plain := by
  cases style with
  | plain => rfl
  | _ => cases spelled

theorem exists_wordOfNode {word : UInt64} (means : document.Means node value)
    (read : wordOfValue value = some word) (counted : Counted document node) :
    ∃ word, wordOfNode document node = some word := by
  obtain ⟨number, shape, positive, _⟩ := wordOfValue_eq_some_iff.mp read
  obtain ⟨actual, settled, denotes⟩ := means.denotes
  simp only [wordOfNode_eq_some_iff]
  cases denotes with
  | empty => cases shape
  | sequence items wraps =>
      rw [wraps.untagged rfl] at shape
      cases shape
  | mapping entries distinct wraps =>
      rw [wraps.untagged rfl] at shape
      cases shape
  | @scalar tag style text value means =>
      obtain ⟨unsigned, tagged⟩ := counted tag style text settled
      have atom := means.atom
      rw [shape] at atom
      cases atom with
      | integer spelled =>
          obtain ⟨natural, found⟩ := exists_natural?_of_integer? spelled unsigned
          refine ⟨_, tag, style, text, natural, settled, ?_, found, rfl⟩
          rcases means.untagged_cases with ⟨bare, _⟩ | ⟨common, rfl, _, known⟩
          · rw [shape] at bare
            exact .inl (plain_of_integer bare)
          · rw [shape] at known
            cases known with
            | integer _ => exact (tagged rfl).imp_right fun literal => ⟨literal, rfl⟩

end Forth

section Back

def IsText (document : Document) (node : Node) : Prop :=
  ∀ value, document.Means node value → ∃ text, value.untagged = .string text

/-- A mapping whose keys are texts by their values, without tags where they are one of
the given names. -/
def TextKeys (document : Document) (names : List String) (node : Node) : Prop :=
  ∀ tag nodes, settled document node = some (.mapping tag nodes) → ∀ entry ∈ nodes,
    ∀ value, document.Means entry.1 value → Named names value

def Untagged (document : Document) (node : Node) : Prop :=
  ∀ tag style text, settled document node = some (.scalar (some tag) style text) →
    Document.ownTag? (some tag) ≠ none ∨ tag = "tag:yaml.org,2002:int"

/-- What is spelled as a natural number is spelled neither as null nor as a truth value. -/
theorem plain_of_natural? {text : String} {number : Nat}
    (spelled : Yaml.Scalar.natural? (Nat.pow 2 64) text = some number) :
    Yaml.Scalar.plain text = some (.integer number) := by
  have other : ∀ word, Yaml.Scalar.natural? (Nat.pow 2 64) word = none → text ≠ word := by
    rintro word unspelled rfl
    rw [unspelled] at spelled
    cases spelled
  have filled : text.isEmpty = false := by
    rw [Bool.eq_false_iff, ne_eq, String.isEmpty_iff]
    exact other "" (by decide)
  have notNull : Yaml.Scalar.isNull text = false := by
    have words : ∀ word ∈ ["null", "Null", "NULL", "~"],
        Yaml.Scalar.natural? (Nat.pow 2 64) word = none := by
      decide
    rw [Yaml.Scalar.isNull, ← Bool.not_eq_true, List.contains_iff_mem]
    intro member
    exact other text (words text member) rfl
  have notBool : Yaml.Scalar.bool? text = none := by
    have words : ∀ word ∈ ["true", "True", "TRUE"] ++ ["false", "False", "FALSE"],
        Yaml.Scalar.natural? (Nat.pow 2 64) word = none := by
      decide
    rw [Yaml.Scalar.bool?, if_neg, if_neg]
    · rw [List.contains_iff_mem]
      intro member
      exact other text (words text (List.mem_append_right _ member)) rfl
    · rw [List.contains_iff_mem]
      intro member
      exact other text (words text (List.mem_append_left _ member)) rfl
  rw [Yaml.Scalar.plain, filled, notNull, notBool, integer?_of_natural? spelled]
  rfl

theorem plain_name (kind : WorkloadKind) :
    Yaml.Scalar.plain kind.name = some (.string kind.name) := by
  cases kind <;> decide +kernel

theorem string_of_common {kind : WorkloadKind} {tag : String}
    (common : Document.Common kind.name tag value) : value = .string kind.name := by
  have notBool : Yaml.Scalar.bool? kind.name = none := by cases kind <;> decide
  have notInteger : Yaml.Scalar.integer? kind.name = none := by cases kind <;> decide +kernel
  have notFloat : Yaml.Scalar.float? kind.name = none := by cases kind <;> decide +kernel
  have notNull : Yaml.Scalar.isNull kind.name = false := by cases kind <;> decide
  cases common with
  | bool spelled =>
      rw [notBool] at spelled
      cases spelled
  | integer spelled =>
      rw [notInteger] at spelled
      cases spelled
  | float spelled =>
      rw [notFloat] at spelled
      cases spelled
  | null spelled =>
      rw [notNull] at spelled
      cases spelled
  | string => rfl

/-- What is left out is null by its value. -/
theorem untagged_of_omitted {tag : Option String} (means : Document.ScalarMeans tag .plain "" value)
    (untagged : ∀ common, tag = some common →
      Document.ownTag? (some common) ≠ none ∨ common = "tag:yaml.org,2002:int") :
    value.untagged = .null := by
  rcases means.untagged_cases with ⟨bare, _⟩ | ⟨common, rfl, foreign, known⟩
  · exact (Option.some.inj bare).symm
  · rcases untagged common rfl with own | same
    · exact absurd foreign own
    · generalize value.untagged = inner at known ⊢
      cases known with
      | integer number =>
          have none : Yaml.Scalar.integer? "" = none := by decide
          rw [none] at number
          cases number
      | string other => exact absurd same other
      | bool | float | null => exact absurd same (by decide)

/-- What stands for an empty collection is null by its value. -/
theorem untagged_of_void (means : document.Means node value) (untagged : Untagged document node)
    (void : settled document node = some .empty ∨
      ∃ tag, settled document node = some (.scalar tag .plain "")) :
    value.untagged = .null := by
  obtain ⟨actual, settled, denotes⟩ := means.denotes
  rcases void with empty | ⟨tag, scalar⟩
  · rw [settled] at empty
    cases empty
    cases denotes
    rfl
  · rw [settled] at scalar
    cases scalar
    cases denotes with
    | scalar means =>
        refine untagged_of_omitted means fun common same => ?_
        subst same
        exact untagged common _ _ settled

theorem TextKeys.forall_mem {names : List String} {tag : Option String}
    {nodes : List (Node × Node)} {entries : List (Value × Value)}
    (keys : TextKeys document names node)
    (actual : settled document node = some (.mapping tag nodes))
    (parts : List.Forall₂
      (fun node value => document.Means node.1 value.1 ∧ document.Means node.2 value.2)
      nodes entries) :
    ∀ entry ∈ entries, Named names entry.1 := by
  intro entry member
  obtain ⟨index, bound, rfl⟩ := List.mem_iff_getElem.mp member
  have inside : index < nodes.length := by
    rw [parts.length_eq]
    exact bound
  exact keys tag nodes actual nodes[index] (List.getElem_mem inside) _ (parts.get inside bound).1

theorem exists_namedEntries {names : List String} {ns : List (String × Node)}
    (means : document.Means node value) (read : namedNodes document node = some ns)
    (untagged : Untagged document node) (keys : TextKeys document names node) :
    ∃ vs, namedEntries value = some vs := by
  rcases namedNodes_cases read with ⟨void, _⟩ | ⟨tag, nodes, settled, _⟩
  · refine ⟨[], ?_⟩
    rw [namedEntries, untagged_of_void means untagged void]
  · obtain ⟨actual, same, holds⟩ := means.holds
    rw [settled] at same
    cases same
    generalize shape : value.untagged = inner at holds
    cases holds with
    | @mapping tag nodes values parts =>
        have texts : ∀ entry ∈ values, ∃ text, entry.1.untagged = .string text := by
          intro entry member
          obtain ⟨text, same, _⟩ := keys.forall_mem settled parts entry member
          exact ⟨text, same⟩
        obtain ⟨vs, named⟩ := exists_namedEntries_iff.mpr texts
        refine ⟨vs, ?_⟩
        rw [← named, namedEntries, shape, namedEntries]
        rfl

theorem kindOfValue_of_node {kind : WorkloadKind} (means : document.Means node value)
    (read : kindOfNode document node = some kind) : kindOfValue value = some kind := by
  obtain ⟨tag, style, text, settled, spelled⟩ := kindOfNode_eq_some_iff.mp read
  obtain ⟨actual, same, denotes⟩ := means.denotes
  rw [settled] at same
  cases same
  rw [kindOfValue_eq_some_iff]
  cases denotes with
  | scalar means =>
      cases means with
      | own own inner =>
          rcases spelled with ⟨none, _⟩ | ⟨named, rfl, void⟩
          · rw [own] at none
            cases none
          · rw [own] at named
            cases named
            have null : Document.bareValue? .plain text = some .null := by
              rw [Document.bareValue?, Yaml.Scalar.plain, if_pos]
              exact Bool.or_eq_true_iff.mpr void
            rw [null] at inner
            cases inner
            exact .inr rfl
      | common common known =>
          rcases spelled with ⟨_, rfl⟩ | ⟨named, _⟩
          · exact .inl (string_of_common (Document.common_of_commonValue? known))
          · rw [common] at named
            cases named
      | bare bare =>
          rcases spelled with ⟨_, rfl⟩ | ⟨named, _⟩
          · cases style with
            | plain =>
                rw [Document.bareValue?, plain_name] at bare
                cases bare
                exact .inl rfl
            | _ =>
                cases bare
                exact .inl rfl
          · cases named

theorem kindsOfNode_cases {kinds : List WorkloadKind}
    (read : kindsOfNode document node = some kinds) :
    (settled document node = some .empty ∨
      ∃ tag, settled document node = some (.scalar tag .plain "")) ∨
      ∃ tag items, settled document node = some (.sequence tag items) ∧
        List.Forall₂ (fun item kind => kindOfNode document item = some kind) items kinds := by
  rcases actual : settled document node with _ | _ | ⟨tag, style, text⟩ | ⟨tag, items⟩ | _ | _ <;>
    rw [kindsOfNode, actual] at read
  · cases read
  · exact .inl (.inl rfl)
  · have omitted : isOmitted style text = true := by
      by_contra kept
      simp [kept] at read
    rw [isOmitted, Bool.and_eq_true, decide_eq_true_eq, String.isEmpty_iff] at omitted
    obtain ⟨rfl, rfl⟩ := omitted
    exact .inl (.inr ⟨tag, rfl⟩)
  · exact .inr ⟨tag, items, rfl, mapM_eq_some_iff_forall₂.mp read⟩
  · cases read
  · cases read

theorem exists_kindsOfValue {kinds : List WorkloadKind} (means : document.Means node value)
    (read : kindsOfNode document node = some kinds) (untagged : Untagged document node) :
    ∃ kinds, kindsOfValue value = some kinds := by
  rcases kindsOfNode_cases read with void | ⟨tag, items, settled, listed⟩
  · refine ⟨[], ?_⟩
    rw [kindsOfValue, untagged_of_void means untagged void]
  · obtain ⟨actual, same, holds⟩ := means.holds
    rw [settled] at same
    cases same
    generalize shape : value.untagged = inner at holds
    cases holds with
    | @sequence tag items values parts =>
        refine ⟨kinds, ?_⟩
        rw [kindsOfValue, shape]
        change values.mapM kindOfValue = some kinds
        rw [mapM_eq_some_iff_forall₂]
        clear settled means read shape
        induction parts generalizing kinds with
        | nil =>
            cases listed
            exact .nil
        | cons first rest ih =>
            obtain ⟨kind, kinds, found, others, rfl⟩ := List.forall₂_cons_left_iff.mp listed
            exact .cons (kindOfValue_of_node first found) (ih others)

theorem exists_wordOfValue {word : UInt64} (means : document.Means node value)
    (read : wordOfNode document node = some word) (untagged : Untagged document node) :
    ∃ word, wordOfValue value = some word := by
  obtain ⟨tag, style, text, number, settled, written, spelled, _⟩ := wordOfNode_eq_some_iff.mp read
  obtain ⟨actual, same, denotes⟩ := means.denotes
  rw [settled] at same
  cases same
  simp only [wordOfValue_eq_some_iff]
  refine ⟨_, number, ?_, Int.natCast_nonneg number, rfl⟩
  cases denotes with
  | scalar means =>
      rcases means.untagged_cases with ⟨bare, untyped⟩ | ⟨common, rfl, foreign, known⟩
      · rcases written with rfl | ⟨_, rfl⟩
        · rw [Document.bareValue?, plain_of_natural? spelled] at bare
          exact (Option.some.inj bare).symm
        · exact absurd untyped (by decide)
      · rcases untagged common style text settled with own | same
        · exact absurd foreign own
        · generalize value.untagged = inner at known ⊢
          cases known with
          | integer read =>
              rw [integer?_of_natural? spelled] at read
              cases read
              rfl
          | string other => exact absurd same other
          | bool | float | null => exact absurd same (by decide)

end Back

end Settings

end Lineage
