import Lineage.Proofs.Merging
import Lineage.Settings.Document
import Mathlib.Data.List.Forall2

/-!
# What the nodes of a document mean

The value of a document is put together from the values of its nodes.  How deep a
node lies and how many aliases have been followed before it decides only whether
it has a value, not which one.  So a node means a value if it has that value
anywhere, and what a node means is known from what its parts mean.
-/

namespace Lineage

theorem mapM_eq_some_iff_forall₂ {α β : Type} {step : α → Option β} {items : List α}
    {values : List β} :
    items.mapM step = some values ↔
      List.Forall₂ (fun item value => step item = some value) items values := by
  induction items generalizing values with
  | nil =>
      constructor
      · rintro ⟨⟩
        exact .nil
      · rintro ⟨⟩
        rfl
  | cons item items ih =>
      simp only [List.mapM_cons, Option.bind_eq_bind, Option.bind_eq_some_iff, Option.pure_def,
        Option.some.injEq, List.forall₂_cons_left_iff, ih]
      constructor
      · rintro ⟨value, first, rest, others, rfl⟩
        exact ⟨value, rest, first, others, rfl⟩
      · rintro ⟨value, rest, first, others, rfl⟩
        exact ⟨value, first, rest, others, rfl⟩

namespace Yaml

namespace Document

variable {document : Document} {node : Node} {value : Value}

/-- What the steps of a conversion give one after another. -/
theorem bind_run_eq_some {α β : Type} {first : Conversion α} {next : α → Conversion β}
    {before : Nat}
    {result : β × Nat} (run : (first >>= next).run before = some result) :
    ∃ found between, first.run before = some (found, between) ∧
      (next found).run between = some result := by
  rw [StateT.run_bind] at run
  obtain ⟨⟨found, between⟩, started, rest⟩ := Option.bind_eq_some_iff.mp run
  exact ⟨found, between, started, rest⟩

/-- A node that has a value, at some depth and with some number of aliases left. -/
def Means (document : Document) (node : Node) (value : Value) : Prop :=
  ∃ depth before after, (document.convert depth node).run before = some (value, after)

theorem means_root (parsed : document.value? = some value) :
    document.Means document.root value := by
  rw [value?, Option.map_eq_some_iff] at parsed
  obtain ⟨⟨found, left⟩, run, rfl⟩ := parsed
  exact ⟨depthLimit, 100 * document.size, left, run⟩

/-- The value under a tag, if the tag belongs to the reader. -/
def Wraps (tag : Option String) (value result : Value) : Prop :=
  match ownTag? tag with
  | some name => result = .tagged name value
  | none => result = value

theorem wraps_of_withTag {tag : Option String} {result : Value} {before after : Nat}
    (run : (withTag tag value).run before = some (result, after)) : Wraps tag value result := by
  rw [withTag] at run
  rw [Wraps]
  cases own : ownTag? tag with
  | none =>
      simp only [own, StateT.run_pure] at run
      cases run
      rfl
  | some name =>
      simp only [own] at run
      split at run
      · cases run
      · cases run
        rfl

/-- The value of a scalar that has no common tag. -/
def bareValue? (style : ScalarStyle) (text : String) : Option Value :=
  match style with
  | .plain => Scalar.plain text
  | _ => some (.string text)

/-- The value of a scalar under one of the common tags. -/
def commonValue? (tag text : String) : Option Value :=
  ((taggedScalar tag text).run 0).map Prod.fst

theorem bareValue?_of_run {style : ScalarStyle} {text : String} {before after : Nat}
    (run : (untaggedScalar style text).run before = some (value, after)) :
    bareValue? style text = some value := by
  cases style with
  | plain =>
      simp only [untaggedScalar] at run
      rw [bareValue?]
      cases spelled : Scalar.plain text with
      | none =>
          rw [spelled] at run
          cases run
      | some found =>
          rw [spelled] at run
          cases run
          rfl
  | _ =>
      cases run
      rfl

theorem commonValue?_of_run {tag text : String} {before after : Nat}
    (run : (taggedScalar tag text).run before = some (value, after)) :
    commonValue? tag text = some value := by
  have steady : (taggedScalar tag text).run before =
      ((taggedScalar tag text).run 0).map fun found => (found.1, before) := by
    fun_cases taggedScalar <;> rfl
  rw [steady] at run
  rw [commonValue?]
  cases found : (taggedScalar tag text).run 0 with
  | none =>
      rw [found] at run
      cases run
  | some result =>
      rw [found] at run
      cases run
      rfl

/-- What a scalar means: a value under a tag of the reader's own, the value that a
common tag asks for, or the value that it has by itself. -/
inductive ScalarMeans : Option String → ScalarStyle → String → Value → Prop
  | own {tag : Option String} {name : String} {style : ScalarStyle} {text : String} {inner : Value}
      (own : ownTag? tag = some name) (spelled : bareValue? style text = some inner) :
      ScalarMeans tag style text (.tagged name inner)
  | common {tag : String} {style : ScalarStyle} {text : String} {value : Value}
      (common : ownTag? (some tag) = none) (spelled : commonValue? tag text = some value) :
      ScalarMeans (some tag) style text value
  | bare {style : ScalarStyle} {text : String} {value : Value}
      (spelled : bareValue? style text = some value) : ScalarMeans none style text value

/-- What a node means that is not an alias, by what its parts mean. -/
inductive Denotes (document : Document) : Node → Value → Prop
  | empty : Denotes document .empty .null
  | scalar {tag : Option String} {style : ScalarStyle} {text : String} {value : Value}
      (means : ScalarMeans tag style text value) : Denotes document (.scalar tag style text) value
  | sequence {tag : Option String} {nodes : List Node} {values : List Value} {value : Value}
      (items : List.Forall₂ document.Means nodes values)
      (wraps : Wraps tag (.sequence values) value) :
      Denotes document (.sequence tag nodes) value
  | mapping {tag : Option String} {nodes : List (Node × Node)} {values : List (Value × Value)}
      {value : Value}
      (entries : List.Forall₂
        (fun node value => document.Means node.1 value.1 ∧ document.Means node.2 value.2)
        nodes values)
      (distinct : Value.Distinct values) (wraps : Wraps tag (.mapping values) value) :
      Denotes document (.mapping tag nodes) value

theorem settled_of_resolve {actual : Node} {before after : Nat}
    (run : (document.resolve node).run before = some (actual, after)) :
    Settings.settled document node = some actual := by
  cases node with
  | empty | scalar | sequence | mapping =>
      cases run
      rfl
  | _ anchor =>
      obtain ⟨left, between, _, run⟩ := bind_run_eq_some run
      rw [Settings.settled]
      cases target : document.target? anchor with
      | none =>
          simp only [target] at run
          by_cases exhausted : left = 0
          · rw [if_pos exhausted] at run
            cases run
          · rw [if_neg exhausted] at run
            cases run
      | some node =>
          simp only [target] at run
          by_cases exhausted : left = 0
          · rw [if_pos exhausted] at run
            cases run
          · rw [if_neg exhausted] at run
            cases run
            rfl

theorem scalarMeans_of_scalar {tag : Option String} {style : ScalarStyle} {text : String}
    {before after : Nat} (run : (scalar tag style text).run before = some (value, after)) :
    ScalarMeans tag style text value := by
  unfold scalar at run
  cases own : ownTag? tag with
  | some name =>
      simp only [own] at run
      obtain ⟨inner, between, spelled, rest⟩ := bind_run_eq_some run
      have wraps := wraps_of_withTag rest
      rw [Wraps, own] at wraps
      subst wraps
      exact .own own (bareValue?_of_run spelled)
  | none =>
      cases tag with
      | none => exact .bare (bareValue?_of_run run)
      | some tag =>
          simp only [own] at run
          exact .common own (commonValue?_of_run run)

theorem forall₂_of_mapM {α β : Type} {step : α → Conversion β} {items : List α} {values : List β}
    {before after : Nat} (run : (items.mapM step).run before = some (values, after)) :
    List.Forall₂ (fun item value => ∃ before after, (step item).run before = some (value, after))
      items values := by
  induction items generalizing values before with
  | nil =>
      cases run
      exact .nil
  | cons item items ih =>
      rw [List.mapM_cons] at run
      obtain ⟨value, between, first, run⟩ := bind_run_eq_some run
      obtain ⟨rest, later, others, run⟩ := bind_run_eq_some run
      cases run
      exact .cons ⟨before, between, first⟩ (ih others)

/-- Entries that are put together are those that were there and one for each of the
given ones, all under different keys. -/
theorem exists_of_distinctEntries {step : Node → Conversion Value} {known : List (Value × Value)}
    {nodes : List (Node × Node)} {values : List (Value × Value)} {before after : Nat}
    (apart : Value.Distinct known)
    (run : (distinctEntries step known nodes).run before = some (values, after)) :
    Value.Distinct values ∧ ∃ added, values = known ++ added ∧
      List.Forall₂ (fun node value =>
        (∃ before after, (step node.1).run before = some (value.1, after)) ∧
          ∃ before after, (step node.2).run before = some (value.2, after)) nodes added := by
  induction nodes generalizing known before with
  | nil =>
      cases run
      exact ⟨apart, [], (List.append_nil _).symm, .nil⟩
  | cons node nodes ih =>
      obtain ⟨keyNode, valueNode⟩ := node
      rw [distinctEntries] at run
      obtain ⟨key, between, keyRun, run⟩ := bind_run_eq_some run
      split at run
      · cases run
      · rename_i fresh
        obtain ⟨value, later, valueRun, run⟩ := bind_run_eq_some run
        have wider : Value.Distinct (known ++ [(key, value)]) := by
          refine List.pairwise_append.mpr ⟨apart, List.pairwise_singleton _ _, ?_⟩
          intro earlier member added last
          rw [List.mem_singleton.mp last]
          exact Value.same_eq_false_of_lookup fresh member
        obtain ⟨distinct, added, rfl, parts⟩ := ih wider run
        refine ⟨distinct, (key, value) :: added, List.append_assoc .., ?_⟩
        exact .cons ⟨⟨before, between, keyRun⟩, ⟨between, later, valueRun⟩⟩ parts

theorem Means.denotes (means : document.Means node value) :
    ∃ actual, Settings.settled document node = some actual ∧ Denotes document actual value := by
  obtain ⟨depth, before, after, run⟩ := means
  cases depth with
  | zero =>
      rw [convert] at run
      obtain ⟨actual, between, resolved, run⟩ := bind_run_eq_some run
      refine ⟨actual, settled_of_resolve resolved, ?_⟩
      cases actual with
      | empty =>
          cases run
          exact .empty
      | scalar tag style text => exact .scalar (scalarMeans_of_scalar run)
      | _ => cases run
  | succ depth =>
      rw [convert] at run
      obtain ⟨actual, between, resolved, run⟩ := bind_run_eq_some run
      refine ⟨actual, settled_of_resolve resolved, ?_⟩
      cases actual with
      | empty =>
          cases run
          exact .empty
      | scalar tag style text => exact .scalar (scalarMeans_of_scalar run)
      | sequence tag nodes =>
          obtain ⟨values, later, items, run⟩ := bind_run_eq_some run
          refine .sequence ?_ (wraps_of_withTag run)
          exact (forall₂_of_mapM items).imp fun _ _ found => ⟨depth, found⟩
      | mapping tag nodes =>
          obtain ⟨values, later, entries, run⟩ := bind_run_eq_some run
          obtain ⟨distinct, added, rfl, parts⟩ := exists_of_distinctEntries .nil entries
          refine .mapping ?_ distinct (wraps_of_withTag run)
          exact parts.imp fun _ _ found => ⟨⟨depth, found.1⟩, ⟨depth, found.2⟩⟩
      | _ => cases run

/-- What a scalar of some text can be apart from its tag. -/
inductive Atom (text : String) : Value → Prop
  | null (spelled : text.isEmpty = true ∨ Scalar.isNull text = true) : Atom text .null
  | bool (value : Bool) : Atom text (.bool value)
  | integer {value : Int} (spelled : Scalar.integer? text = some (some value)) :
      Atom text (.integer value)
  | float (value : Float) : Atom text (.float value)
  | string : Atom text (.string text)

theorem atom_of_plain {text : String} (spelled : Scalar.plain text = some value) :
    Atom text value := by
  rw [Scalar.plain] at spelled
  split at spelled
  · rename_i void
    cases spelled
    exact .null (Bool.or_eq_true_iff.mp void)
  · split at spelled
    · cases spelled
      exact .bool _
    · split at spelled
      · rename_i number
        obtain ⟨found, rfl, rfl⟩ := Option.map_eq_some_iff.mp spelled
        exact .integer number
      · split at spelled <;> cases spelled
        · exact .float _
        · exact .string

theorem atom_of_bareValue? {style : ScalarStyle} {text : String}
    (spelled : bareValue? style text = some value) : Atom text value := by
  cases style with
  | plain => exact atom_of_plain spelled
  | _ =>
      cases spelled
      exact .string

/-- What a scalar is under a common tag. -/
inductive Common (text : String) : String → Value → Prop
  | bool {truth : Bool} (spelled : Scalar.bool? text = some truth) :
      Common text "tag:yaml.org,2002:bool" (.bool truth)
  | integer {number : Int} (spelled : Scalar.integer? text = some (some number)) :
      Common text "tag:yaml.org,2002:int" (.integer number)
  | float {number : Float} (spelled : Scalar.float? text = some number) :
      Common text "tag:yaml.org,2002:float" (.float number)
  | null (spelled : Scalar.isNull text = true) : Common text "tag:yaml.org,2002:null" .null
  | string {tag : String} (other : tag ≠ "tag:yaml.org,2002:int") :
      Common text tag (.string text)

theorem common_of_commonValue? {tag text : String} (spelled : commonValue? tag text = some value) :
    Common text tag value := by
  rw [commonValue?, Option.map_eq_some_iff] at spelled
  obtain ⟨⟨found, left⟩, run, rfl⟩ := spelled
  revert run
  fun_cases taggedScalar with
  | case1 truth read =>
      rintro ⟨⟩
      exact .bool read
  | case3 number read =>
      rintro ⟨⟩
      exact .integer read
  | case5 number read =>
      rintro ⟨⟩
      exact .float read
  | case7 void =>
      rintro ⟨⟩
      exact .null void
  | case9 _ _ other =>
      rintro ⟨⟩
      exact .string other
  | case2 | case4 | case6 | case8 => nofun

theorem Common.atom {tag text : String} (common : Common text tag value) : Atom text value := by
  cases common with
  | bool spelled => exact .bool _
  | integer spelled => exact .integer spelled
  | float spelled => exact .float _
  | null spelled => exact .null (.inr spelled)
  | string => exact .string

/-- A scalar means no collection. -/
theorem ScalarMeans.ne_mapping {tag : Option String} {style : ScalarStyle} {text : String}
    (means : ScalarMeans tag style text value) (entries : List (Value × Value)) :
    value ≠ .mapping entries := by
  rintro rfl
  cases means with
  | common common spelled => cases common_of_commonValue? spelled
  | bare spelled => cases atom_of_bareValue? spelled

/-- The keys of a mapping are all different, and its values mean something by themselves. -/
theorem Means.distinct {entries : List (Value × Value)}
    (means : document.Means node (.mapping entries)) :
    Value.Distinct entries ∧ ∀ entry ∈ entries, ∃ node, document.Means node entry.2 := by
  obtain ⟨actual, _, denotes⟩ := means.denotes
  generalize whole : Value.mapping entries = value at denotes
  cases denotes with
  | empty => cases whole
  | scalar means => exact absurd whole.symm (means.ne_mapping entries)
  | @sequence tag nodes values value items wraps =>
      rw [Wraps] at wraps
      split at wraps <;> subst wraps <;> cases whole
  | @mapping tag nodes values value parts distinct wraps =>
      rw [Wraps] at wraps
      split at wraps <;> subst wraps <;> cases whole
      refine ⟨distinct, fun entry member => ?_⟩
      obtain ⟨index, bound, rfl⟩ := List.mem_iff_getElem.mp member
      have paired := parts.get (by rw [parts.length_eq]; exact bound) bound
      exact ⟨_, paired.2⟩

end Document

end Yaml

end Lineage
