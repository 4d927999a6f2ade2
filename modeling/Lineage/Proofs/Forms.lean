import Lineage.Key
import Lineage.Mapping
import Lineage.Proofs.JsonObjects
import Lineage.Proofs.JsonWriting
import Lineage.Resolution

/-!
# Keys and mappings as structured values

Keys and mappings are laid out alike: as objects with a field for each part, which is a
text or a truth value.  A decoder heeds these fields only, wherever they stand and
whatever stands between them.  So what is written is read back, nothing is lost in
between, and data of different parts never look the same.  Keys are objects and nothing
else, whereas a mapping may also be a list of its parts.
-/

namespace Lineage

theorem bind_eq_ok_iff {ε α β : Type} {attempt : Except ε α} {next : α → Except ε β}
    {data : β} :
    attempt >>= next = .ok data ↔ ∃ first, attempt = .ok first ∧ next first = .ok data := by
  cases attempt <;> simp [bind, Except.bind]

namespace Json

section Atoms

variable {value other : Json}

/-- Texts and truth values. -/
inductive Atom : Json → Prop
  | bool (value : Bool) : Atom (.bool value)
  | string (text : String) : Atom (.string text)

theorem Atom.unnumbered (atom : Atom value) : Unnumbered (.value value) := by
  cases atom with
  | bool value => exact .bool value
  | string text => exact .string text

/-- An atom is the canonical form of itself alone. -/
theorem Atom.canonical_eq_iff (atom : Atom value) : canonical other = value ↔ other = value := by
  cases atom <;> cases other <;> simp [canonical]

theorem Atom.canonical_eq_self (atom : Atom value) : canonical value = value :=
  atom.canonical_eq_iff.mpr rfl

theorem Atom.map_canonical_eq_iff (atom : Atom value) {found : Option Json} :
    found.map canonical = some value ↔ found = some value := by
  cases found <;> simp [atom.canonical_eq_iff]

end Atoms

section Decoders

variable {α : Type} {fields others : List (String × Json)} {name : String}

theorem asText_eq_ok_iff {value : Json} {text : String} :
    asText value = .ok text ↔ value = .string text := by
  cases value <;> simp [asText]

theorem asBool_eq_ok_iff {value : Json} {truth : Bool} :
    asBool value = .ok truth ↔ value = .bool truth := by
  cases value <;> simp [asBool]

theorem demand_eq_ok_iff {found : Option α} {data : α} :
    demand name found = .ok data ↔ found = some data := by
  cases found <;> simp [demand]

/-- A field decodes if it holds the value that spells what it decodes to. -/
theorem optionalField_eq_some_iff {decode : Json → Except DecodeFault α} {spell : α → Json}
    (reads : ∀ {value data}, decode value = .ok data ↔ value = spell data) {data : α} :
    optionalField fields name decode = .ok (some data) ↔
      lookup name fields = some (spell data) := by
  unfold optionalField
  cases lookup name fields with
  | none => simp
  | some value =>
      rw [Option.some.injEq, ← reads]
      dsimp only
      cases decode value <;> simp [Except.map]

theorem optionalField_congr (same : lookup name fields = lookup name others)
    (decode : Json → Except DecodeFault α) :
    optionalField fields name decode = optionalField others name decode := by
  rw [optionalField, same, optionalField]

end Decoders

section Layouts

/-- How data of a type are laid out as objects, and a decoder that finds them there: the
names of the fields, and for each name the atom that spells a part of the data. -/
structure Layout (α : Type) where
  names : List String
  spell : α → List (String × Json)
  decode : Json → Except DecodeFault α
  distinct : names.Nodup
  named : ∀ data, (spell data).map Prod.fst = names
  atoms : ∀ data, ∀ field ∈ spell data, Atom field.2
  reads : ∀ fields data, decode (.object fields) = .ok data ↔
    ∀ field ∈ spell data, lookup field.1 fields = some field.2
  heeds : ∀ fields others, (∀ name ∈ names, lookup name fields = lookup name others) →
    decode (.object fields) = decode (.object others)

/-- The laws of a form of data as objects with a field for each of some names.  What is
written in this form is read back, also from a text; only the fields of these names
matter when it is read, and what they mean is all that matters; nothing but these fields
is written, so an object of just these fields is read and written as it was; and
different data have different forms. -/
structure Faithful {α : Type} (names : List String) (encode : α → Json)
    (decode : Json → Except DecodeFault α) : Prop where
  named : ∀ data, ∃ fields, encode data = .object fields ∧ fields.map Prod.fst = names
  decode_encode : ∀ data, decode (encode data) = .ok data
  parse_render : ∀ data, parse (encode data).render = some (encode data)
  parse_pretty : ∀ data, parse (encode data).pretty = some (encode data)
  heeds : ∀ fields others, (∀ name ∈ names, lookup name fields = lookup name others) →
    decode (.object fields) = decode (.object others)
  reordered : ∀ fields others, fields.Perm others → (fields.map Prod.fst).Nodup →
    decode (.object fields) = decode (.object others)
  respects : ∀ fields others data, canonical (.object fields) = canonical (.object others) →
    decode (.object fields) = .ok data → decode (.object others) = .ok data
  encode_decode : ∀ fields data, (∀ name, (lookup name fields).isSome ↔ name ∈ names) →
    decode (.object fields) = .ok data → canonical (encode data) = canonical (.object fields)
  injective : ∀ data other, canonical (encode data) = canonical (encode other) → data = other

variable {α : Type} (layout : Layout α) {data other : α} {fields others : List (String × Json)}

theorem unnumbered_object (atoms : ∀ field ∈ fields, Atom field.2) :
    Unnumbered (.value (.object fields)) := by
  cases fields with
  | nil => exact .emptyObject
  | cons field fields =>
      refine .object ?_
      induction fields generalizing field with
      | nil => exact .lastField (atoms field (List.mem_singleton_self _)).unnumbered
      | cons next fields ih =>
          obtain ⟨here, later⟩ := List.forall_mem_cons.mp atoms
          exact .field here.unnumbered (ih next later)

namespace Layout

theorem lookup_spell {field : String × Json} (member : field ∈ layout.spell data) :
    lookup field.1 (layout.spell data) = some field.2 := by
  have distinct : ((layout.spell data).map Prod.fst).Nodup := by
    rw [layout.named]
    exact layout.distinct
  exact (lookup_eq_some_iff distinct).mpr member

theorem decode_spell : layout.decode (.object (layout.spell data)) = .ok data :=
  (layout.reads _ _).mpr fun _ member => layout.lookup_spell member

theorem decode_of_canonical
    (same : canonical (.object fields) = canonical (.object others))
    (decoded : layout.decode (.object fields) = .ok data) :
    layout.decode (.object others) = .ok data := by
  rw [canonical_object_eq_iff] at same
  rw [layout.reads] at decoded ⊢
  intro field member
  have atom := layout.atoms data field member
  rw [← atom.map_canonical_eq_iff, ← same, decoded field member, Option.map_some,
    atom.canonical_eq_self]

/-- Data are told apart by the meaning of their form. -/
theorem eq_of_canonical_spell
    (same : canonical (.object (layout.spell data)) = canonical (.object (layout.spell other))) :
    data = other := by
  have decoded := layout.decode_of_canonical same layout.decode_spell
  rw [layout.decode_spell] at decoded
  cases decoded
  rfl

/-- Writing what was read gives back an object of just the fields that are written. -/
theorem canonical_spell_of_decode
    (exactly : ∀ name, (lookup name fields).isSome ↔ name ∈ layout.names)
    (decoded : layout.decode (.object fields) = .ok data) :
    canonical (.object (layout.spell data)) = canonical (.object fields) := by
  rw [layout.reads] at decoded
  refine canonical_object_eq_iff.mpr fun name => congrArg _ ?_
  by_cases known : name ∈ layout.names
  · rw [← layout.named data] at known
    obtain ⟨field, member, rfl⟩ := List.mem_map.mp known
    rw [layout.lookup_spell member, decoded field member]
  · have absent := (exactly name).not.mpr known
    have unspelled : ¬(lookup name (layout.spell data)).isSome := by
      rwa [isSome_lookup_iff, layout.named]
    rw [Option.not_isSome_iff_eq_none] at absent unspelled
    rw [absent, unspelled]

theorem faithful :
    Faithful layout.names (fun data => .object (layout.spell data)) layout.decode where
  named data := ⟨_, rfl, layout.named data⟩
  decode_encode _ := layout.decode_spell
  parse_render data := (unnumbered_object (layout.atoms data)).parse_render
  parse_pretty data := (unnumbered_object (layout.atoms data)).parse_pretty
  heeds := layout.heeds
  reordered _ _ same distinct := layout.heeds _ _ fun name _ => lookup_perm same distinct name
  respects _ _ _ := layout.decode_of_canonical
  encode_decode _ _ := layout.canonical_spell_of_decode
  injective _ _ := layout.eq_of_canonical_spell

end Layout

end Layouts

end Json

section Instances

open Json

variable {fields : List (String × Json)}

namespace Key

theorem ofJson_object_eq_ok_iff {key : Key} :
    ofJson (.object fields) = .ok key ↔
      lookup "namespace" fields = some (.string key.ns) ∧
        lookup "kind" fields = some (.string key.kind) ∧
        lookup "name" fields = some (.string key.name) ∧
        lookup "apiVersion" fields = some (.string key.apiVersion) := by
  have texts (name text : String) :
      optionalField fields name asText = .ok (some text) ↔
        lookup name fields = some (.string text) :=
    optionalField_eq_some_iff asText_eq_ok_iff
  simp only [ofJson, bind_eq_ok_iff, demand_eq_ok_iff, pure, Except.pure, Except.ok.injEq,
    ← texts]
  constructor
  · rintro ⟨_, first, _, rfl, _, second, _, third, _, fourth, _, rfl, _, rfl, _, rfl, same⟩
    cases same
    exact ⟨fourth, second, third, first⟩
  · rintro ⟨fourth, second, third, first⟩
    exact ⟨_, first, _, rfl, _, second, _, third, _, fourth, _, rfl, _, rfl, _, rfl, rfl⟩

def layout : Layout Key where
  names := ["namespace", "kind", "name", "apiVersion"]
  spell key := [("namespace", .string key.ns), ("kind", .string key.kind),
    ("name", .string key.name), ("apiVersion", .string key.apiVersion)]
  decode := ofJson
  distinct := by decide
  named _ := rfl
  atoms _ := by
    simp only [List.forall_mem_cons, List.not_mem_nil, Atom.string, false_imp_iff,
      implies_true, and_self]
  reads _ _ := by
    simp only [ofJson_object_eq_ok_iff, List.forall_mem_cons, List.not_mem_nil, false_imp_iff,
      implies_true, and_true]
  heeds fields others same := by
    simp only [List.forall_mem_cons] at same
    obtain ⟨ns, kind, name, apiVersion, -⟩ := same
    simp only [ofJson, optionalField_congr ns, optionalField_congr kind, optionalField_congr name,
      optionalField_congr apiVersion]

theorem ofJson_eq_ok_iff {value : Json} {key : Key} :
    ofJson value = .ok key ↔ ∃ fields, value = .object fields ∧
      lookup "namespace" fields = some (.string key.ns) ∧
      lookup "kind" fields = some (.string key.kind) ∧
      lookup "name" fields = some (.string key.name) ∧
      lookup "apiVersion" fields = some (.string key.apiVersion) := by
  cases value with
  | object fields => simp [ofJson_object_eq_ok_iff]
  | _ => simp [ofJson]

end Key

namespace Mapping

theorem ofJson_object_eq_ok_iff {mapping : Mapping} :
    ofJson (.object fields) = .ok mapping ↔
      lookup "group" fields = some (.string mapping.group) ∧
        lookup "version" fields = some (.string mapping.version) ∧
        lookup "resource" fields = some (.string mapping.resource) ∧
        lookup "kind" fields = some (.string mapping.kind) ∧
        lookup "namespaced" fields = some (.bool mapping.namespaced) := by
  have texts (name text : String) :
      optionalField fields name asText = .ok (some text) ↔
        lookup name fields = some (.string text) :=
    optionalField_eq_some_iff asText_eq_ok_iff
  have truths (name : String) (truth : Bool) :
      optionalField fields name asBool = .ok (some truth) ↔
        lookup name fields = some (.bool truth) :=
    optionalField_eq_some_iff asBool_eq_ok_iff
  simp only [ofJson, bind_eq_ok_iff, demand_eq_ok_iff, pure, Except.pure, Except.ok.injEq, ← texts,
    ← truths]
  constructor
  · rintro ⟨_, group, _, kind, _, namespaced, _, resource, _, version, _, rfl, _, rfl, _, rfl, _,
      rfl, _, rfl, same⟩
    cases same
    exact ⟨group, version, resource, kind, namespaced⟩
  · rintro ⟨group, version, resource, kind, namespaced⟩
    exact ⟨_, group, _, kind, _, namespaced, _, resource, _, version, _, rfl, _, rfl, _, rfl, _,
      rfl, _, rfl, rfl⟩

def layout : Layout Mapping where
  names := ["group", "version", "resource", "kind", "namespaced"]
  spell mapping := [("group", .string mapping.group), ("version", .string mapping.version),
    ("resource", .string mapping.resource), ("kind", .string mapping.kind),
    ("namespaced", .bool mapping.namespaced)]
  decode := ofJson
  distinct := by decide
  named _ := rfl
  atoms _ := by
    simp only [List.forall_mem_cons, List.not_mem_nil, Atom.string, Atom.bool, false_imp_iff,
      implies_true, and_self]
  reads _ _ := by
    simp only [ofJson_object_eq_ok_iff, List.forall_mem_cons, List.not_mem_nil, false_imp_iff,
      implies_true, and_true]
  heeds fields others same := by
    simp only [List.forall_mem_cons] at same
    obtain ⟨group, version, resource, kind, namespaced, -⟩ := same
    simp only [ofJson, optionalField_congr group, optionalField_congr version,
      optionalField_congr resource, optionalField_congr kind, optionalField_congr namespaced]

theorem ofItems_eq_ok_iff {items : List Json} {mapping : Mapping} :
    ofItems items = .ok mapping ↔
      items = [.string mapping.group, .string mapping.version, .string mapping.resource,
        .string mapping.kind, .bool mapping.namespaced] := by
  by_cases five : items.length = 5
  · obtain ⟨group, version, resource, kind, namespaced, rfl⟩ :
        ∃ group version resource kind namespaced,
          items = [group, version, resource, kind, namespaced] := by
      rcases items with _ | ⟨group, _ | ⟨version, _ | ⟨resource, _ | ⟨kind, _ |
        ⟨namespaced, _ | ⟨other, items⟩⟩⟩⟩⟩⟩
      case cons.cons.cons.cons.cons.nil => exact ⟨group, version, resource, kind, namespaced, rfl⟩
      all_goals
        simp only [List.length_cons, List.length_nil] at five
        omega
    constructor
    · intro decoded
      simp only [ofItems, List.getElem?_cons_zero, List.getElem?_cons_succ, bind_eq_ok_iff,
        Except.ok.injEq, asText_eq_ok_iff, asBool_eq_ok_iff, exists_eq_left'] at decoded
      obtain ⟨_, rfl, _, rfl, _, rfl, _, rfl, _, rfl, last⟩ := decoded
      cases last
      rfl
    · intro same
      cases same
      rfl
  · -- The items are decoded before their number is looked at, so this fails on the way or
    -- at the end.
    refine iff_of_false ?_ ?_
    · simp only [ofItems, bind_eq_ok_iff, if_neg five, throw, throwThe, MonadExceptOf.throw,
        reduceCtorEq, and_false, exists_false, not_false_iff]
    · rintro rfl
      exact five rfl

theorem ofJson_eq_ok_iff {value : Json} {mapping : Mapping} :
    ofJson value = .ok mapping ↔
      (∃ fields, value = .object fields ∧
        lookup "group" fields = some (.string mapping.group) ∧
        lookup "version" fields = some (.string mapping.version) ∧
        lookup "resource" fields = some (.string mapping.resource) ∧
        lookup "kind" fields = some (.string mapping.kind) ∧
        lookup "namespaced" fields = some (.bool mapping.namespaced)) ∨
      value = .array [.string mapping.group, .string mapping.version, .string mapping.resource,
        .string mapping.kind, .bool mapping.namespaced] := by
  cases value with
  | object fields => simp [ofJson_object_eq_ok_iff]
  | array items => simp [ofJson, ofItems_eq_ok_iff]
  | _ => simp [ofJson]

/-- Whatever its parts hold, a mapping decodes alike from an object and from a list. -/
theorem ofJson_array_eq_ok_iff {group version resource kind namespaced : Json}
    {mapping : Mapping} :
    ofJson (.array [group, version, resource, kind, namespaced]) = .ok mapping ↔
      ofJson (.object [("group", group), ("version", version), ("resource", resource),
        ("kind", kind), ("namespaced", namespaced)]) = .ok mapping := by
  rw [ofJson_object_eq_ok_iff, ofJson, ofItems_eq_ok_iff]
  simp [lookup]

end Mapping

/-- Keys and mappings have faithful forms.  Just the objects with the four texts of a key
decode as this key; just the objects with the four texts and the truth value of a mapping
and the list of the five decode as this mapping, from an object and from a list alike; and
no form of a key means the same as a form of a mapping. -/
theorem forms_faithful :
    Faithful ["namespace", "kind", "name", "apiVersion"] Key.toJson Key.ofJson ∧
    (∀ value key, Key.ofJson value = .ok key ↔ ∃ fields, value = .object fields ∧
      lookup "namespace" fields = some (.string key.ns) ∧
      lookup "kind" fields = some (.string key.kind) ∧
      lookup "name" fields = some (.string key.name) ∧
      lookup "apiVersion" fields = some (.string key.apiVersion)) ∧
    Faithful ["group", "version", "resource", "kind", "namespaced"] Mapping.toJson
      Mapping.ofJson ∧
    (∀ value mapping, Mapping.ofJson value = .ok mapping ↔
      (∃ fields, value = .object fields ∧
        lookup "group" fields = some (.string mapping.group) ∧
        lookup "version" fields = some (.string mapping.version) ∧
        lookup "resource" fields = some (.string mapping.resource) ∧
        lookup "kind" fields = some (.string mapping.kind) ∧
        lookup "namespaced" fields = some (.bool mapping.namespaced)) ∨
      value = .array [.string mapping.group, .string mapping.version, .string mapping.resource,
        .string mapping.kind, .bool mapping.namespaced]) ∧
    (∀ group version resource kind namespaced mapping,
      Mapping.ofJson (.array [group, version, resource, kind, namespaced]) = .ok mapping ↔
        Mapping.ofJson (.object [("group", group), ("version", version), ("resource", resource),
          ("kind", kind), ("namespaced", namespaced)]) = .ok mapping) ∧
    ∀ key mapping, canonical (Key.toJson key) ≠ canonical (Mapping.toJson mapping) := by
  refine ⟨Key.layout.faithful, fun _ _ => Key.ofJson_eq_ok_iff, Mapping.layout.faithful,
    fun _ _ => Mapping.ofJson_eq_ok_iff, fun _ _ _ _ _ _ => Mapping.ofJson_array_eq_ok_iff, ?_⟩
  intro key mapping same
  have named := canonical_object_eq_iff.mp same "name"
  simp [lookup, canonical] at named

/-- A key among other fields in disorder, and a mapping as a list. -/
theorem forms_faithful_disordered :
    Key.ofJson (.object [("apiVersion", .string "v1"), ("uid", .null), ("name", .string "web"),
      ("kind", .string "Pod"), ("namespace", .string "team")]) = .ok ⟨"team", "Pod", "web", "v1"⟩ ∧
    canonical (Key.toJson ⟨"team", "Pod", "web", "v1"⟩) =
      canonical (.object [("apiVersion", .string "v1"), ("name", .string "web"),
        ("kind", .string "Pod"), ("namespace", .string "team")]) ∧
    Mapping.ofJson (.array [.string "", .string "v1", .string "pods", .string "Pod",
      .bool true]) = .ok ⟨"", "v1", "pods", "Pod", true⟩ := by
  obtain ⟨keys, keysRead, mappings, mappingsRead, _, _⟩ := forms_faithful
  refine ⟨(keysRead _ _).mpr ⟨_, rfl, rfl, rfl, rfl, rfl⟩, ?_,
    (mappingsRead _ _).mpr (.inr rfl)⟩
  refine keys.encode_decode _ _ (fun name => ?_) ((keysRead _ _).mpr ⟨_, rfl, rfl, rfl, rfl, rfl⟩)
  simp only [isSome_lookup_iff, List.map_cons, List.map_nil, List.mem_cons, List.not_mem_nil]
  tauto

namespace Resolution

/-- What a search prints as a structured value is read back as the keys that it found. -/
theorem parse_render (resolution : Resolution) :
    parse (resolution.render .json) = some resolution.toJson := by
  have inside (key : Key) : Unnumbered (.value key.toJson) :=
    unnumbered_object (Key.layout.atoms key)
  have unnumbered : Unnumbered (.value resolution.toJson) := by
    refine .object (.field (inside resolution.start) (.lastField ?_))
    cases resolution.topLevel with
    | none => exact .null
    | some key => exact inside key
  refine parse_of_spells (unnumbered.spells_lines 0) (blank_newline 0) ?_
  simp [render, pretty, Part.lines, indentation]

end Resolution

end Instances

end Lineage
