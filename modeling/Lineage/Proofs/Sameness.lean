import Lineage.Proofs.Meaning
import Mathlib

/-!
# Values that are the same

Two values are the same when they have the same parts, where the entries of a
mapping may stand in any order and zero has no sign.  Among the values of
documents, whose mappings have no key twice, this is an equivalence: the entries
of one mapping are matched with as many entries of the other, and none is matched
twice because no two keys are the same.

What a mapping has under a key depends on the key only as far as it is the same.
-/

namespace Lineage

/-- Members of a list that have partners in another list, no two of them the same
one, are no more than the members of that list.  If they are as many, every member
of the other list is a partner. -/
theorem length_le_and_exists_of_partners {α β : Type} {matched : α → β → Prop} {first : List α}
    {second : List β} (partners : ∀ item ∈ first, ∃ other ∈ second, matched item other)
    (apart : first.Pairwise fun item later => ∀ other, matched item other → ¬ matched later other) :
    first.length ≤ second.length ∧
      (second.length ≤ first.length → ∀ other ∈ second, ∃ item ∈ first, matched item other) := by
  induction first generalizing second with
  | nil =>
      refine ⟨Nat.zero_le _, fun short other member => ?_⟩
      rw [List.length_eq_zero_iff.mp (Nat.le_zero.mp short)] at member
      cases member
  | cons item first ih =>
      obtain ⟨⟨partner, member, here⟩, others⟩ := List.forall_mem_cons.mp partners
      obtain ⟨alone, later⟩ := List.pairwise_cons.mp apart
      obtain ⟨before, after, rfl⟩ := List.append_of_mem member
      have elsewhere : ∀ item ∈ first, ∃ other ∈ before ++ after, matched item other := by
        intro another inside
        obtain ⟨other, found, there⟩ := others another inside
        have different : other ≠ partner := by
          rintro rfl
          exact alone another inside other here there
        refine ⟨other, ?_, there⟩
        simpa [different] using found
      obtain ⟨fewer, onto⟩ := ih elsewhere later
      rw [List.length_append] at fewer
      simp only [List.length_append, List.length_cons, List.forall_mem_append,
        List.forall_mem_cons, List.exists_mem_cons_iff] at onto ⊢
      refine ⟨by omega, fun enough => ?_⟩
      obtain ⟨reached, beyond⟩ := onto (by omega)
      exact ⟨fun other inside => .inr (reached other inside), .inl here,
        fun other inside => .inr (beyond other inside)⟩

theorem exists_mem_left_of_forall₂ {α β : Type} {paired : α → β → Prop} {first : List α}
    {second : List β} (pairs : List.Forall₂ paired first second) {other : β}
    (member : other ∈ second) : ∃ item ∈ first, paired item other := by
  induction pairs with
  | nil => cases member
  | @cons item here first second pair pairs ih =>
      rcases List.mem_cons.mp member with rfl | later
      · exact ⟨item, List.mem_cons_self, pair⟩
      · obtain ⟨item, inside, pair⟩ := ih later
        exact ⟨item, List.mem_cons_of_mem _ inside, pair⟩

namespace Yaml

namespace Value

section Numbers

open Float.Model (UnpackedFloat)

/-- A number with a point, where zero has no sign. -/
def withoutSign : UnpackedFloat → UnpackedFloat
  | .zero _ => .zero .positive
  | other => other

theorem compare_sign_eq_iff (first second : UnpackedFloat.Sign) :
    compare first second = .eq ↔ first = second := by
  cases first <;> cases second <;> simp [compare]

theorem beq_or_isNaN_iff (first second : UnpackedFloat) :
    (first.beq second || (first.isNaN && second.isNaN)) = true ↔
      withoutSign first = withoutSign second := by
  cases first with
  | infinity sign =>
      cases second with
      | infinity other =>
          simp [UnpackedFloat.beq, UnpackedFloat.compare, UnpackedFloat.isNaN, withoutSign,
            compare_sign_eq_iff]
      | _ =>
          cases sign <;>
            simp [UnpackedFloat.beq, UnpackedFloat.compare, UnpackedFloat.isNaN, withoutSign]
  | notANumber =>
      cases second <;>
        simp [UnpackedFloat.beq, UnpackedFloat.compare, UnpackedFloat.isNaN, withoutSign]
  | zero sign =>
      rcases second with (_ | _) | _ | _ | ⟨_ | _, _, _⟩ <;>
        simp [UnpackedFloat.beq, UnpackedFloat.compare, UnpackedFloat.isNaN, withoutSign]
  | finite sign mantissa exponent positive =>
      rcases second with (_ | _) | _ | _ | ⟨_ | _, _, _⟩ <;> cases sign <;>
        simp [UnpackedFloat.beq, UnpackedFloat.compare, UnpackedFloat.isNaN, withoutSign,
          Ordering.then_eq_eq, and_comm]

def numberOf (number : Float) : UnpackedFloat :=
  withoutSign number.toModel.unpack

theorem same_float_iff {number : Float} {value : Value} :
    same (float number) value = true ↔ ∃ other, value = float other ∧
      numberOf number = numberOf other := by
  cases value with
  | float other =>
      have alike : (number == other || (number.isNaN && other.isNaN)) = true ↔
          numberOf number = numberOf other :=
        beq_or_isNaN_iff number.toModel.unpack other.toModel.unpack
      rw [same, alike]
      simp
  | _ => simp [same]

end Numbers

section Parts

variable {value : Value}

theorem same_null_iff : same null value = true ↔ value = null := by
  cases value <;> simp [same]

theorem same_bool_iff {truth : Bool} : same (bool truth) value = true ↔ value = bool truth := by
  cases value <;> simp [same, eq_comm (a := truth)]

theorem same_integer_iff {number : Int} :
    same (integer number) value = true ↔ value = integer number := by
  cases value <;> simp [same, eq_comm (a := number)]

theorem sameItems_iff {items others : List Value} :
    sameItems items others = true ↔
      List.Forall₂ (fun item other => same item other = true) items others := by
  induction items generalizing others with
  | nil => cases others <;> simp [sameItems]
  | cons item items ih => cases others <;> simp [sameItems, ih]

theorem sameEntries_iff {entries others : List (Value × Value)} :
    sameEntries entries others = true ↔
      ∀ entry ∈ entries, ∃ other ∈ others,
        same entry.1 other.1 = true ∧ same entry.2 other.2 = true := by
  induction entries with
  | nil => simp [sameEntries]
  | cons entry entries ih => simp [sameEntries, ih]

theorem same_sequence_iff {items : List Value} :
    same (sequence items) value = true ↔ ∃ others, value = sequence others ∧
      List.Forall₂ (fun item other => same item other = true) items others := by
  cases value <;> simp [same, sameItems_iff]

theorem same_mapping_iff {entries : List (Value × Value)} :
    same (mapping entries) value = true ↔ ∃ others, value = mapping others ∧
      entries.length = others.length ∧ ∀ entry ∈ entries, ∃ other ∈ others,
        same entry.1 other.1 = true ∧ same entry.2 other.2 = true := by
  cases value <;> simp [same, sameEntries_iff]

theorem same_tagged_iff {tag : String} {inner : Value} :
    same (tagged tag inner) value = true ↔ ∃ other, value = tagged tag other ∧
      same inner other = true := by
  cases value with
  | tagged other content => simp [same, eq_comm (a := tag)]
  | _ => simp [same]

end Parts

/-- A value that a document can hold: no mapping in it has a key twice. -/
inductive Regular : Value → Prop
  | null : Regular .null
  | bool (truth : Bool) : Regular (.bool truth)
  | integer (number : Int) : Regular (.integer number)
  | float (number : Float) : Regular (.float number)
  | string (text : String) : Regular (.string text)
  | sequence {items : List Value} (parts : ∀ item ∈ items, Regular item) :
      Regular (.sequence items)
  | mapping {entries : List (Value × Value)} (distinct : Distinct entries)
      (keys : ∀ entry ∈ entries, Regular entry.1) (values : ∀ entry ∈ entries, Regular entry.2) :
      Regular (.mapping entries)
  | tagged (tag : String) {inner : Value} (content : Regular inner) : Regular (.tagged tag inner)

theorem regular_mapping_iff {entries : List (Value × Value)} :
    Regular (.mapping entries) ↔ Distinct entries ∧ (∀ entry ∈ entries, Regular entry.1) ∧
      ∀ entry ∈ entries, Regular entry.2 :=
  ⟨fun | .mapping distinct keys values => ⟨distinct, keys, values⟩,
    fun parts => .mapping parts.1 parts.2.1 parts.2.2⟩

section Equivalence

variable {first second third : Value}

theorem Regular.same_refl (regular : Regular first) : same first first = true := by
  induction regular with
  | null => rfl
  | bool truth => exact same_bool_iff.mpr rfl
  | integer number => exact same_integer_iff.mpr rfl
  | float number => exact same_float_iff.mpr ⟨number, rfl, rfl⟩
  | string text => exact same_string_iff.mpr rfl
  | @sequence items parts ih =>
      exact same_sequence_iff.mpr ⟨items, rfl, List.forall₂_same.mpr ih⟩
  | @mapping entries distinct keys values keysIH valuesIH =>
      exact same_mapping_iff.mpr ⟨entries, rfl, rfl, fun entry member =>
        ⟨entry, member, keysIH entry member, valuesIH entry member⟩⟩
  | @tagged tag inner content ih => exact same_tagged_iff.mpr ⟨inner, rfl, ih⟩

theorem Regular.same_trans (regular : Regular first) (alike : same first second = true)
    (next : same second third = true) : same first third = true := by
  induction regular generalizing second third with
  | null => rwa [same_null_iff.mp alike] at next
  | bool truth => rwa [same_bool_iff.mp alike] at next
  | integer number => rwa [same_integer_iff.mp alike] at next
  | string text => rwa [same_string_iff.mp alike] at next
  | float number =>
      obtain ⟨between, rfl, equal⟩ := same_float_iff.mp alike
      obtain ⟨other, rfl, also⟩ := same_float_iff.mp next
      exact same_float_iff.mpr ⟨other, rfl, equal.trans also⟩
  | @sequence items parts ih =>
      obtain ⟨between, rfl, matched⟩ := same_sequence_iff.mp alike
      obtain ⟨others, rfl, also⟩ := same_sequence_iff.mp next
      rw [List.forall₂_iff_get] at matched also
      refine same_sequence_iff.mpr ⟨others, rfl, List.forall₂_iff_get.mpr
        ⟨matched.1.trans also.1, fun index bound otherBound => ?_⟩⟩
      have within : index < between.length := matched.1 ▸ bound
      exact ih _ (List.get_mem items _) (matched.2 index bound within)
        (also.2 index within otherBound)
  | @mapping entries distinct keys values keysIH valuesIH =>
      obtain ⟨between, rfl, size, matched⟩ := same_mapping_iff.mp alike
      obtain ⟨others, rfl, otherSize, also⟩ := same_mapping_iff.mp next
      refine same_mapping_iff.mpr ⟨others, rfl, size.trans otherSize, fun entry member => ?_⟩
      obtain ⟨middle, inside, key, value⟩ := matched entry member
      obtain ⟨other, found, otherKey, otherValue⟩ := also middle inside
      exact ⟨other, found, keysIH entry member key otherKey, valuesIH entry member value otherValue⟩
  | @tagged tag inner content ih =>
      obtain ⟨between, rfl, equal⟩ := same_tagged_iff.mp alike
      obtain ⟨other, rfl, also⟩ := same_tagged_iff.mp next
      exact same_tagged_iff.mpr ⟨other, rfl, ih equal also⟩

theorem Regular.same_symm (regular : Regular first) (also : Regular second)
    (alike : same first second = true) : same second first = true := by
  induction regular generalizing second with
  | null => rw [same_null_iff.mp alike]; rfl
  | bool truth => rw [same_bool_iff.mp alike]; exact same_bool_iff.mpr rfl
  | integer number => rw [same_integer_iff.mp alike]; exact same_integer_iff.mpr rfl
  | string text => rw [same_string_iff.mp alike]; exact same_string_iff.mpr rfl
  | float number =>
      obtain ⟨other, rfl, equal⟩ := same_float_iff.mp alike
      exact same_float_iff.mpr ⟨number, rfl, equal.symm⟩
  | @sequence items parts ih =>
      obtain ⟨others, rfl, matched⟩ := same_sequence_iff.mp alike
      cases also with
      | sequence otherParts =>
        rw [List.forall₂_iff_get] at matched
        refine same_sequence_iff.mpr ⟨items, rfl, List.forall₂_iff_get.mpr
          ⟨matched.1.symm, fun index bound otherBound => ?_⟩⟩
        exact ih _ (List.get_mem items _) (otherParts _ (List.get_mem others _))
          (matched.2 index otherBound bound)
  | @mapping entries distinct keys values keysIH valuesIH =>
      obtain ⟨others, rfl, size, matched⟩ := same_mapping_iff.mp alike
      cases also with
      | mapping otherDistinct otherKeys otherValues =>
        -- Two entries with one partner would have the same key.
        have apart : entries.Pairwise fun entry later => ∀ other : Value × Value,
            other ∈ others ∧ same entry.1 other.1 = true ∧ same entry.2 other.2 = true →
            ¬ (other ∈ others ∧ same later.1 other.1 = true ∧ same later.2 other.2 = true) := by
          refine distinct.imp_of_mem fun {entry later} member laterMember differ => ?_
          rintro other ⟨inside, key, _⟩ ⟨_, laterKey, _⟩
          have back := keysIH entry member (otherKeys other inside) key
          rw [(keys later laterMember).same_trans laterKey back] at differ
          cases differ
        have partners : ∀ entry ∈ entries, ∃ other ∈ others,
            other ∈ others ∧ same entry.1 other.1 = true ∧ same entry.2 other.2 = true :=
          fun entry member =>
            (matched entry member).imp fun other found => ⟨found.1, found.1, found.2⟩
        have onto := (length_le_and_exists_of_partners partners apart).2 (Nat.le_of_eq size.symm)
        refine same_mapping_iff.mpr ⟨entries, rfl, size.symm, fun other inside => ?_⟩
        obtain ⟨entry, member, _, key, value⟩ := onto other inside
        exact ⟨entry, member, keysIH entry member (otherKeys other inside) key,
          valuesIH entry member (otherValues other inside) value⟩
  | @tagged tag inner content ih =>
      obtain ⟨other, rfl, equal⟩ := same_tagged_iff.mp alike
      cases also with
      | tagged tag otherContent => exact same_tagged_iff.mpr ⟨inner, rfl, ih otherContent equal⟩

/-- A value is the same as either of two values that are the same, or as neither. -/
theorem Regular.same_congr (regular : Regular first) (also : Regular second)
    (alike : same first second = true) : same first third = same second third := by
  rw [Bool.eq_iff_iff]
  exact ⟨fun next => also.same_trans (regular.same_symm also alike) next,
    fun next => regular.same_trans alike next⟩

end Equivalence

section Lookup

variable {key other value : Value} {entries others : List (Value × Value)}

theorem lookup_append (key : Value) (entries others : List (Value × Value)) :
    lookup key (entries ++ others) = (lookup key entries).or (lookup key others) := by
  induction entries with
  | nil => rfl
  | cons entry rest ih =>
      obtain ⟨first, value⟩ := entry
      rw [List.cons_append, lookup, lookup]
      split
      · rfl
      · exact ih

theorem lookup_eq_none_iff :
    lookup key entries = none ↔ ∀ entry ∈ entries, same key entry.1 = false := by
  induction entries with
  | nil => simp [lookup]
  | cons entry rest ih =>
      obtain ⟨first, value⟩ := entry
      rw [lookup, List.forall_mem_cons]
      cases same key first <;> simp [ih]

theorem exists_of_lookup (found : lookup key entries = some value) :
    ∃ entry ∈ entries, same key entry.1 = true ∧ entry.2 = value := by
  induction entries with
  | nil => cases found
  | cons entry rest ih =>
      obtain ⟨first, here⟩ := entry
      rw [lookup] at found
      split at found
      · rename_i alike
        cases found
        exact ⟨_, List.mem_cons_self, alike, rfl⟩
      · obtain ⟨entry, member, alike⟩ := ih found
        exact ⟨entry, List.mem_cons_of_mem _ member, alike⟩

theorem lookup_congr (regular : Regular key) (also : Regular other)
    (alike : same key other = true) (entries : List (Value × Value)) :
    lookup key entries = lookup other entries := by
  induction entries with
  | nil => rfl
  | cons entry rest ih =>
      obtain ⟨first, value⟩ := entry
      rw [lookup, lookup, regular.same_congr also alike, ih]

theorem lookup_of_mem (distinct : Distinct entries) (keys : ∀ entry ∈ entries, Regular entry.1)
    {entry : Value × Value} (member : entry ∈ entries) : lookup entry.1 entries = some entry.2 := by
  induction entries with
  | nil => cases member
  | cons first rest ih =>
      obtain ⟨key, value⟩ := first
      obtain ⟨apart, later⟩ := List.pairwise_cons.mp distinct
      rw [lookup]
      rcases List.mem_cons.mp member with rfl | inside
      · rw [if_pos (keys _ List.mem_cons_self).same_refl]
      · rw [if_neg (by simp [apart entry inside])]
        exact ih later (fun entry member => keys entry (List.mem_cons_of_mem _ member)) inside

/-- Without the entry under a key there is nothing under the keys that are the same,
and under other keys there is what was there. -/
theorem lookup_remove (regular : Regular key) (also : Regular other)
    (keys : ∀ entry ∈ entries, Regular entry.1) :
    lookup key (remove other entries) = if same key other then none else lookup key entries := by
  cases alike : same key other with
  | true =>
      rw [if_pos rfl, lookup_congr regular also alike, lookup_eq_none_iff]
      intro entry kept
      simpa using (List.mem_filter.mp kept).2
  | false =>
      rw [if_neg Bool.false_ne_true]
      induction entries with
      | nil => rfl
      | cons entry rest ih =>
          obtain ⟨first, value⟩ := entry
          obtain ⟨here, later⟩ := List.forall_mem_cons.mp keys
          rw [remove] at ih ⊢
          cases removed : same other first with
          | false => rw [List.filter_cons_of_pos (by simp [removed]), lookup, lookup, ih later]
          | true =>
              have elsewhere : same key first = false := Bool.eq_false_iff.mpr fun under => by
                have back := also.same_symm here removed
                rw [regular.same_trans under back] at alike
                cases alike
              rw [List.filter_cons_of_neg (by simp [removed]), ih later, lookup,
                if_neg (by simp [elsewhere])]

/-- No key is the same as two keys of one mapping. -/
theorem Distinct.apart (distinct : Distinct entries) (keys : ∀ entry ∈ entries, Regular entry.1) :
    entries.Pairwise fun entry later => ∀ other : Value × Value,
      Regular other.1 ∧ same entry.1 other.1 = true →
        ¬ (Regular other.1 ∧ same later.1 other.1 = true) := by
  refine distinct.imp_of_mem fun {entry later} member laterMember differ => ?_
  rintro other ⟨there, key⟩ ⟨_, laterKey⟩
  have back := (keys entry member).same_symm there key
  rw [(keys later laterMember).same_trans laterKey back] at differ
  cases differ

/-- Two mappings are the same if they have the same values under each key. -/
theorem same_mapping_of_lookup (regular : Regular (mapping entries))
    (also : Regular (mapping others))
    (alike : ∀ key, Regular key → Option.Rel (fun value other => same value other = true)
      (lookup key entries) (lookup key others)) :
    same (mapping entries) (mapping others) = true := by
  obtain ⟨distinct, keys, _⟩ := regular_mapping_iff.mp regular
  obtain ⟨otherDistinct, otherKeys, _⟩ := regular_mapping_iff.mp also
  have matched : ∀ entry ∈ entries, ∃ other ∈ others,
      same entry.1 other.1 = true ∧ same entry.2 other.2 = true := by
    intro entry member
    have both := alike entry.1 (keys entry member)
    rw [lookup_of_mem distinct keys member] at both
    generalize there : lookup entry.1 others = found at both
    cases both with
    | some value =>
        obtain ⟨other, inside, key, rfl⟩ := exists_of_lookup there
        exact ⟨other, inside, key, value⟩
  have reached : ∀ other ∈ others, ∃ entry ∈ entries, same other.1 entry.1 = true := by
    intro other member
    have both := alike other.1 (otherKeys other member)
    rw [lookup_of_mem otherDistinct otherKeys member] at both
    generalize there : lookup other.1 entries = found at both
    cases both with
    | some value =>
        obtain ⟨entry, inside, key, _⟩ := exists_of_lookup there
        exact ⟨entry, inside, key⟩
  have fewer : entries.length ≤ others.length :=
    (length_le_and_exists_of_partners
      (fun entry member => (matched entry member).imp fun other found =>
        ⟨found.1, otherKeys other found.1, found.2.1⟩) (distinct.apart keys)).1
  have enough : others.length ≤ entries.length :=
    (length_le_and_exists_of_partners
      (fun other member => (reached other member).imp fun entry found =>
        ⟨found.1, keys entry found.1, found.2⟩) (otherDistinct.apart otherKeys)).1
  exact same_mapping_iff.mpr ⟨others, rfl, Nat.le_antisymm fewer enough, matched⟩

end Lookup

end Value

namespace Document

open Value (Regular)

variable {document : Document} {node : Node} {value : Value}

theorem Atom.regular {text : String} (atom : Atom text value) : Regular value := by
  cases atom with
  | null => exact .null
  | bool truth => exact .bool truth
  | integer => exact .integer _
  | float number => exact .float number
  | string => exact .string text

theorem ScalarMeans.regular {tag : Option String} {style : ScalarStyle} {text : String}
    (means : ScalarMeans tag style text value) : Regular value := by
  cases means with
  | own _ spelled => exact .tagged _ (atom_of_bareValue? spelled).regular
  | common _ spelled => exact (common_of_commonValue? spelled).atom.regular
  | bare spelled => exact (atom_of_bareValue? spelled).regular

theorem Wraps.regular {tag : Option String} {result : Value} (wraps : Wraps tag value result)
    (content : Regular value) : Regular result := by
  rw [Wraps] at wraps
  split at wraps <;> subst wraps
  · exact .tagged _ content
  · exact content

theorem Wraps.sizeOf_le {tag : Option String} {result : Value} (wraps : Wraps tag value result) :
    sizeOf value ≤ sizeOf result := by
  rw [Wraps] at wraps
  split at wraps <;> subst wraps
  · exact Nat.le_trans (Nat.le_add_left ..) (Nat.le_of_eq (Value.tagged.sizeOf_spec ..).symm)
  · exact Nat.le_refl _

/-- What a node means is regular, since what its parts mean is. -/
theorem Means.regular {value : Value} {node : Node} (means : document.Means node value) :
    Regular value := by
  obtain ⟨actual, _, denotes⟩ := means.denotes
  cases denotes with
  | empty => exact .null
  | scalar means => exact means.regular
  | @sequence tag nodes values value items wraps =>
      have size := wraps.sizeOf_le
      refine wraps.regular (.sequence fun item member => ?_)
      obtain ⟨part, _, there⟩ := exists_mem_left_of_forall₂ items member
      have smaller := List.sizeOf_lt_of_mem member
      exact there.regular
  | @mapping tag nodes values value entries distinct wraps =>
      have size := wraps.sizeOf_le
      have parts : ∀ entry ∈ values, Regular entry.1 ∧ Regular entry.2 := by
        rintro ⟨key, value⟩ member
        obtain ⟨part, _, keyMeans, valueMeans⟩ := exists_mem_left_of_forall₂ entries member
        have smaller := List.sizeOf_lt_of_mem member
        exact ⟨keyMeans.regular, valueMeans.regular⟩
      exact wraps.regular (.mapping distinct (fun entry member => (parts entry member).1)
        fun entry member => (parts entry member).2)
termination_by sizeOf value
decreasing_by
  all_goals
    simp_all only [Value.sequence.sizeOf_spec, Value.mapping.sizeOf_spec, Prod.mk.sizeOf_spec]
    omega

end Document

/-- The value of a document is regular. -/
theorem regular_of_parse {text : String} {value : Value} (parsed : parse text = some value) :
    value.Regular := by
  obtain ⟨document, _, found⟩ := Option.bind_eq_some_iff.mp parsed
  exact (Document.means_root found).regular

end Yaml

end Lineage
