import Lineage.Json.Basic
import Mathlib.Data.List.Nodup
import Mathlib.Data.String.Basic

/-!
# Objects as tables of names

An object means what its names mean.  Neither the order of its fields nor a field that
a later one of the same name replaces has any bearing on it, and its canonical form
keeps just this meaning: two objects have one canonical form exactly when they give the
same names values of one canonical form.
-/

namespace Lineage

namespace Json

variable {name : String} {value : Json} {fields others : List (String × Json)}

theorem lookup_eq_none_iff : lookup name fields = none ↔ ∀ field ∈ fields, field.1 ≠ name := by
  induction fields with
  | nil => simp [lookup]
  | cons field fields ih =>
      rw [List.forall_mem_cons, ← ih, lookup]
      cases lookup name fields with
      | none => simp
      | some later => simp

theorem isSome_lookup_iff : (lookup name fields).isSome ↔ name ∈ fields.map Prod.fst := by
  rw [← not_iff_not, Option.not_isSome_iff_eq_none, lookup_eq_none_iff]
  simp only [List.mem_map, not_exists, not_and, ne_eq]

theorem lookup_cons (field : String × Json) (fields : List (String × Json)) (wanted : String) :
    lookup wanted (field :: fields) =
      (lookup wanted fields).or (if field.1 = wanted then some field.2 else none) := by
  rw [lookup]
  cases lookup wanted fields <;> rfl

/-- What the names of a list of fields stand for when no name is written twice. -/
theorem lookup_eq_some_iff (distinct : (fields.map Prod.fst).Nodup) :
    lookup name fields = some value ↔ (name, value) ∈ fields := by
  induction fields with
  | nil => simp [lookup]
  | cons field fields ih =>
      rw [List.map_cons, List.nodup_cons] at distinct
      rw [lookup_cons, Option.or_eq_some_iff, ih distinct.2, List.mem_cons, or_comm]
      refine or_congr ?_ Iff.rfl
      constructor
      · rintro ⟨-, found⟩
        split at found
        · rename_i same
          cases found
          rw [← same]
        · cases found
      · rintro rfl
        refine ⟨lookup_eq_none_iff.mpr fun other member same => ?_, if_pos rfl⟩
        exact distinct.1 (List.mem_map.mpr ⟨other, member, same⟩)

/-- The order of fields has no bearing on what their names stand for. -/
theorem lookup_perm (same : fields.Perm others) (distinct : (fields.map Prod.fst).Nodup)
    (name : String) : lookup name fields = lookup name others := by
  have distinctOthers : (others.map Prod.fst).Nodup := (same.map Prod.fst).nodup_iff.mp distinct
  ext value
  rw [lookup_eq_some_iff distinct, lookup_eq_some_iff distinctOthers, same.mem_iff]

section Sorting

/-- Fields in increasing order of their names, so that no name is written twice. -/
def Ordered (fields : List (String × Json)) : Prop :=
  fields.Pairwise fun field later => field.1 < later.1

theorem Ordered.distinct (ordered : Ordered fields) : (fields.map Prod.fst).Nodup := by
  rw [List.Nodup, List.pairwise_map]
  exact ordered.imp ne_of_lt

theorem mem_insertSorted {field : String × Json} (member : field ∈ insertSorted name value fields) :
    field = (name, value) ∨ field ∈ fields := by
  fun_induction insertSorted name value fields <;> grind

theorem Ordered.insertSorted (ordered : Ordered fields) (name : String) (value : Json) :
    Ordered (insertSorted name value fields) := by
  fun_induction Json.insertSorted name value fields with
  | case1 => exact List.pairwise_singleton _ _
  | case2 other present rest before =>
      refine List.pairwise_cons.mpr ⟨List.forall_mem_cons.mpr ⟨before, ?_⟩, ordered⟩
      intro field member
      exact before.trans (List.rel_of_pairwise_cons ordered member)
  | case3 present rest notBefore =>
      exact List.pairwise_cons.mpr (List.pairwise_cons.mp ordered)
  | case4 other present rest notBefore different ih =>
      obtain ⟨above, later⟩ := List.pairwise_cons.mp ordered
      refine List.pairwise_cons.mpr ⟨fun field member => ?_, ih later⟩
      obtain rfl | old := mem_insertSorted member
      · exact lt_of_le_of_ne (not_lt.mp notBefore) (Ne.symm different)
      · exact above field old

theorem lookup_insertSorted (ordered : Ordered fields) (name wanted : String) (value : Json) :
    lookup wanted (insertSorted name value fields) =
      if name = wanted then some value else lookup wanted fields := by
  by_cases same : name = wanted
  · subst same
    rw [if_pos rfl, lookup_eq_some_iff (ordered.insertSorted _ _).distinct]
    fun_induction insertSorted name value fields <;> grind [Ordered]
  · rw [if_neg same]
    fun_induction insertSorted name value fields <;> grind [Ordered, lookup_cons]

theorem Ordered.canonicalFields {sorted : List (String × Json)} (ordered : Ordered sorted)
    (fields : List (String × Json)) : Ordered (canonicalFields sorted fields) := by
  induction fields generalizing sorted with
  | nil => exact ordered
  | cons field fields ih => exact ih (ordered.insertSorted _ _)

theorem lookup_canonicalFields {sorted : List (String × Json)} (ordered : Ordered sorted)
    (fields : List (String × Json)) (wanted : String) :
    lookup wanted (canonicalFields sorted fields) =
      ((lookup wanted fields).map canonical).or (lookup wanted sorted) := by
  induction fields generalizing sorted with
  | nil => rfl
  | cons field fields ih =>
      rw [canonicalFields, ih (ordered.insertSorted _ _), lookup_insertSorted ordered, lookup_cons]
      split <;> cases lookup wanted fields <;> rfl

/-- Ordered fields are determined by what their names stand for. -/
theorem Ordered.ext (ordered : Ordered fields) (orderedOthers : Ordered others)
    (same : ∀ name, lookup name fields = lookup name others) : fields = others := by
  have members : fields.Perm others := by
    refine (List.perm_ext_iff_of_nodup ordered.distinct.of_map orderedOthers.distinct.of_map).mpr ?_
    rintro ⟨name, value⟩
    rw [← lookup_eq_some_iff ordered.distinct, ← lookup_eq_some_iff orderedOthers.distinct, same]
  refine members.eq_of_pairwise ?_ ordered orderedOthers
  intro field other _ _ before after
  exact absurd before (lt_asymm after)

end Sorting

/-- Canonical forms keep what the names of an object stand for, and nothing else. -/
theorem canonical_object_eq_iff :
    canonical (object fields) = canonical (object others) ↔
      ∀ name, (lookup name fields).map canonical = (lookup name others).map canonical := by
  have void : Ordered [] := List.Pairwise.nil
  have meaning (fields : List (String × Json)) (name : String) :
      lookup name (canonicalFields [] fields) = (lookup name fields).map canonical := by
    rw [lookup_canonicalFields void, lookup, Option.or_none]
  rw [canonical, canonical, object.injEq]
  constructor
  · intro same name
    rw [← meaning, ← meaning, same]
  · intro same
    refine (void.canonicalFields fields).ext (void.canonicalFields others) fun name => ?_
    rw [meaning, meaning, same]

end Json

end Lineage
