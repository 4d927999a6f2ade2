import Lineage.Index
import Mathlib.Algebra.BigOperators.Group.Finset.Basic
import Mathlib.Data.List.Nodup

/-!
# Lookups in an index

The lookups of an index determine what it means.  An index that is made from a
list answers with the mappings of the list that belong to a group and a kind, in
their order and each of them once.

An index is tidy when its buckets belong to different pairs of group and kind and
hold their own mappings only, each once.  In a tidy index the order of the
buckets does not matter, the mappings of a group hold those of every kind in the
order in which they are looked up, and the size is the number of all mappings
that lookups find.
-/

namespace Lineage

namespace Index

section Distinct

variable {α : Type} [DecidableEq α]

/-- A list without repetition has nothing to drop. -/
theorem eraseDups_of_nodup {items : List α} (distinct : items.Nodup) :
    items.eraseDups = items := by
  induction items with
  | nil => rfl
  | cons item items ih =>
      obtain ⟨fresh, rest⟩ := List.nodup_cons.mp distinct
      have kept : items.filter (fun other => !other == item) = items := by
        rw [List.filter_eq_self]
        intro other member
        have different : other ≠ item := fun same => fresh (same ▸ member)
        simpa using different
      rw [List.eraseDups_cons, kept, ih rest]

theorem eraseDups_concat (items : List α) (item : α) :
    (items ++ [item]).eraseDups =
      if item ∈ items then items.eraseDups else items.eraseDups ++ [item] := by
  have single : [item].eraseDups = [item] := rfl
  rw [List.eraseDups_append]
  by_cases member : item ∈ items
  · simp [List.removeAll, member]
  · simp [List.removeAll, member, single]

end Distinct

theorem addOnce_eraseDups (mappings : List Mapping) (mapping : Mapping) :
    addOnce mappings.eraseDups mapping = (mappings ++ [mapping]).eraseDups := by
  simp only [addOnce, eraseDups_concat, List.mem_eraseDups]

theorem addOnce_nodup {mappings : List Mapping} (distinct : mappings.Nodup) (mapping : Mapping) :
    (addOnce mappings mapping).Nodup := by
  unfold addOnce
  split
  · exact distinct
  · rename_i fresh
    exact List.nodup_append.mpr ⟨distinct, List.nodup_singleton mapping, by
      rintro member inside other isMapping rfl
      exact fresh (List.mem_singleton.mp isMapping ▸ inside)⟩

theorem mem_addOnce {mappings : List Mapping} {mapping member : Mapping} :
    member ∈ addOnce mappings mapping ↔ member ∈ mappings ∨ member = mapping := by
  unfold addOnce
  split
  · rename_i inside
    exact ⟨.inl, fun found => found.elim id fun same => same ▸ inside⟩
  · simp

section Lookup

@[simp]
theorem lookup_nil (group kind : String) : lookup ⟨[]⟩ group kind = [] :=
  rfl

theorem serves_iff {bucket : Bucket} {group kind : String} :
    serves bucket group kind = true ↔ bucket.group = group ∧ bucket.kind = kind := by
  simp [serves]

theorem lookup_cons (bucket : Bucket) (rest : List Bucket) (group kind : String) :
    lookup ⟨bucket :: rest⟩ group kind =
      if bucket.group = group ∧ bucket.kind = kind then bucket.mappings
      else lookup ⟨rest⟩ group kind := by
  simp only [← serves_iff]
  cases served : serves bucket group kind with
  | true => simp [lookup, served]
  | false => simp [lookup, served]

theorem insertBucket_cons (mapping : Mapping) (bucket : Bucket) (rest : List Bucket) :
    insertBucket mapping (bucket :: rest) =
      if bucket.group = mapping.group ∧ bucket.kind = mapping.kind then
        { bucket with mappings := addOnce bucket.mappings mapping } :: rest
      else bucket :: insertBucket mapping rest := by
  simp only [insertBucket, serves_iff]

/-- A lookup that finds something finds a bucket of the group and kind. -/
theorem exists_bucket_or_lookup_eq_nil (index : Index) (group kind : String) :
    (∃ bucket ∈ index.buckets, bucket.group = group ∧ bucket.kind = kind) ∨
      index.lookup group kind = [] := by
  unfold lookup
  split
  · rename_i bucket found
    have served : serves bucket group kind = true := by
      simpa using List.find?_some found
    exact .inl ⟨bucket, List.mem_of_find?_eq_some found, serves_iff.mp served⟩
  · exact .inr rfl

/-- Adding a mapping changes the lookup of its own group and kind only. -/
theorem lookup_insert (index : Index) (mapping : Mapping) (group kind : String) :
    (index.insert mapping).lookup group kind =
      if mapping.group = group ∧ mapping.kind = kind
      then addOnce (index.lookup group kind) mapping
      else index.lookup group kind := by
  obtain ⟨buckets⟩ := index
  induction buckets with
  | nil => simp [insert, insertBucket, lookup_cons, addOnce]
  | cons bucket rest ih =>
      simp only [insert, insertBucket_cons] at ih ⊢
      by_cases served : bucket.group = mapping.group ∧ bucket.kind = mapping.kind
      · rw [if_pos served, lookup_cons, lookup_cons]
        obtain ⟨sameGroup, sameKind⟩ := served
        simp only [sameGroup, sameKind]
        split
        · rfl
        · rfl
      · rw [if_neg served, lookup_cons, lookup_cons, ih]
        by_cases asked : bucket.group = group ∧ bucket.kind = kind
        · obtain ⟨rfl, rfl⟩ := asked
          have other : ¬ (mapping.group = bucket.group ∧ mapping.kind = bucket.kind) :=
            fun same => served ⟨same.1.symm, same.2.symm⟩
          simp [other]
        · simp [asked]

/-- A bucket has the group and kind of a bucket before or of the mapping that is
added. -/
theorem pair_of_mem_insertBucket {mapping : Mapping} {buckets : List Bucket} {bucket : Bucket}
    (member : bucket ∈ insertBucket mapping buckets) :
    (∃ old ∈ buckets, old.group = bucket.group ∧ old.kind = bucket.kind) ∨
      (bucket.group = mapping.group ∧ bucket.kind = mapping.kind) := by
  induction buckets with
  | nil =>
      rw [insertBucket, List.mem_singleton] at member
      rw [member]
      exact .inr ⟨rfl, rfl⟩
  | cons first rest ih =>
      rw [insertBucket_cons] at member
      split at member
      · rcases List.mem_cons.mp member with rfl | inside
        · exact .inl ⟨first, List.mem_cons_self, rfl, rfl⟩
        · exact .inl ⟨bucket, List.mem_cons_of_mem first inside, rfl, rfl⟩
      · rcases List.mem_cons.mp member with rfl | inside
        · exact .inl ⟨bucket, List.mem_cons_self, rfl, rfl⟩
        · rcases ih inside with ⟨old, member, same⟩ | new
          · exact .inl ⟨old, List.mem_cons_of_mem first member, same⟩
          · exact .inr new

theorem ofList_concat (mappings : List Mapping) (mapping : Mapping) :
    ofList (mappings ++ [mapping]) = (ofList mappings).insert mapping := by
  rw [ofList, ofList, List.foldl_concat]

/-- An index that is made from a list answers with the mappings of the list that
belong to a group and a kind, in order, without repetition. -/
theorem lookup_ofList (mappings : List Mapping) (group kind : String) :
    (ofList mappings).lookup group kind =
      (mappings.filter fun mapping => mapping.group = group ∧ mapping.kind = kind).eraseDups := by
  induction mappings using List.reverseRecOn with
  | nil => rfl
  | append_singleton mappings mapping ih =>
      rw [ofList_concat, lookup_insert, ih, List.filter_append]
      by_cases belongs : mapping.group = group ∧ mapping.kind = kind
      · simp [belongs, addOnce_eraseDups]
      · simp [belongs]

end Lookup

/-- An index whose buckets belong to different groups and kinds and hold only
mappings of their own, each once. -/
structure Tidy (index : Index) : Prop where
  distinct : (index.buckets.map fun bucket => (bucket.group, bucket.kind)).Nodup
  owned : ∀ bucket ∈ index.buckets, ∀ mapping ∈ bucket.mappings,
    mapping.group = bucket.group ∧ mapping.kind = bucket.kind
  once : ∀ bucket ∈ index.buckets, bucket.mappings.Nodup

namespace Tidy

variable {index : Index} {group kind : String}

theorem empty : Tidy Index.empty where
  distinct := List.nodup_nil
  owned := by
    intro bucket member
    cases member
  once := by
    intro bucket member
    cases member

theorem tail {bucket : Bucket} {rest : List Bucket} (tidy : Tidy ⟨bucket :: rest⟩) :
    Tidy ⟨rest⟩ where
  distinct := (List.nodup_cons.mp tidy.distinct).2
  owned := fun other member => tidy.owned other (List.mem_cons_of_mem bucket member)
  once := fun other member => tidy.once other (List.mem_cons_of_mem bucket member)

theorem cons {bucket : Bucket} {rest : List Bucket} (tidy : Tidy ⟨rest⟩)
    (fresh : ∀ other ∈ rest, ¬ (other.group = bucket.group ∧ other.kind = bucket.kind))
    (owned : ∀ mapping ∈ bucket.mappings,
      mapping.group = bucket.group ∧ mapping.kind = bucket.kind)
    (once : bucket.mappings.Nodup) : Tidy ⟨bucket :: rest⟩ where
  distinct := by
    rw [List.map_cons, List.nodup_cons]
    refine ⟨?_, tidy.distinct⟩
    intro repeated
    obtain ⟨other, member, same⟩ := List.mem_map.mp repeated
    exact fresh other member (Prod.mk.injEq .. ▸ same)
  owned := List.forall_mem_cons.mpr ⟨owned, tidy.owned⟩
  once := List.forall_mem_cons.mpr ⟨once, tidy.once⟩

/-- No later bucket has the first bucket's group and kind. -/
theorem fresh_tail {bucket other : Bucket} {rest : List Bucket} (tidy : Tidy ⟨bucket :: rest⟩)
    (member : other ∈ rest) : ¬ (other.group = bucket.group ∧ other.kind = bucket.kind) := by
  have fresh := (List.nodup_cons.mp tidy.distinct).1
  rintro ⟨sameGroup, sameKind⟩
  exact fresh (List.mem_map.mpr ⟨other, member, by rw [sameGroup, sameKind]⟩)

/-- The lookup of a bucket's group and kind gives what the bucket holds. -/
theorem lookup_of_mem (tidy : index.Tidy) {bucket : Bucket} (member : bucket ∈ index.buckets) :
    index.lookup bucket.group bucket.kind = bucket.mappings := by
  obtain ⟨buckets⟩ := index
  induction buckets with
  | nil => cases member
  | cons first rest ih =>
      rw [lookup_cons]
      rcases List.mem_cons.mp member with rfl | later
      · rw [if_pos ⟨rfl, rfl⟩]
      · have other : ¬ (first.group = bucket.group ∧ first.kind = bucket.kind) := by
          rintro ⟨sameGroup, sameKind⟩
          exact tidy.fresh_tail later ⟨sameGroup.symm, sameKind.symm⟩
        rw [if_neg other]
        exact ih tidy.tail later

theorem lookup_nodup (tidy : index.Tidy) (group kind : String) :
    (index.lookup group kind).Nodup := by
  rcases exists_bucket_or_lookup_eq_nil index group kind with ⟨bucket, member, rfl, rfl⟩ | nothing
  · rw [tidy.lookup_of_mem member]
    exact tidy.once bucket member
  · rw [nothing]
    exact List.nodup_nil

theorem insert (tidy : index.Tidy) (mapping : Mapping) : (index.insert mapping).Tidy := by
  obtain ⟨buckets⟩ := index
  induction buckets with
  | nil =>
      refine Tidy.empty.cons (by intro other member; cases member) ?_ (List.nodup_singleton _)
      intro member inside
      rw [List.mem_singleton.mp inside]
      exact ⟨rfl, rfl⟩
  | cons bucket rest ih =>
      have owned := tidy.owned bucket List.mem_cons_self
      have once := tidy.once bucket List.mem_cons_self
      simp only [Index.insert, insertBucket_cons] at ih ⊢
      by_cases served : bucket.group = mapping.group ∧ bucket.kind = mapping.kind
      · rw [if_pos served]
        refine tidy.tail.cons (fun other => tidy.fresh_tail) ?_ (addOnce_nodup once mapping)
        intro member inside
        rcases mem_addOnce.mp inside with inside | rfl
        · exact owned member inside
        · exact ⟨served.1.symm, served.2.symm⟩
      · rw [if_neg served]
        refine (ih tidy.tail).cons ?_ owned once
        rintro other member ⟨sameGroup, sameKind⟩
        rcases pair_of_mem_insertBucket member with ⟨old, inside, oldGroup, oldKind⟩ | new
        · exact tidy.fresh_tail inside ⟨oldGroup.trans sameGroup, oldKind.trans sameKind⟩
        · exact served ⟨sameGroup.symm.trans new.1, sameKind.symm.trans new.2⟩

/-- An index that is made from a list is tidy. -/
theorem ofList (mappings : List Mapping) : (Index.ofList mappings).Tidy := by
  induction mappings using List.reverseRecOn with
  | nil => exact Tidy.empty
  | append_singleton mappings mapping ih =>
      rw [ofList_concat]
      exact ih.insert mapping

/-- The mappings of a group hold those of each kind in the order of its lookup. -/
theorem group_filter_kind (tidy : index.Tidy) (group kind : String) :
    ((index.group group).filter fun mapping => mapping.kind = kind) = index.lookup group kind := by
  obtain ⟨buckets⟩ := index
  induction buckets with
  | nil => rfl
  | cons bucket rest ih =>
      have restLookup := ih tidy.tail
      have owned := tidy.owned bucket List.mem_cons_self
      simp only [Index.group] at restLookup ⊢
      rw [lookup_cons, List.filter_cons]
      by_cases sameGroup : bucket.group = group
      · have ownKind : (bucket.mappings.filter fun mapping => mapping.kind = kind) =
            if bucket.kind = kind then bucket.mappings else [] := by
          split
          · rename_i sameKind
            exact List.filter_eq_self.mpr fun mapping member => by
              simp [owned mapping member, sameKind]
          · rename_i otherKind
            exact List.filter_eq_nil_iff.mpr fun mapping member => by
              simp [owned mapping member, otherKind]
        rw [if_pos (by simpa using sameGroup), List.flatMap_cons, List.filter_append, ownKind,
          restLookup]
        by_cases sameKind : bucket.kind = kind
        · obtain ⟨rfl, rfl⟩ := And.intro sameGroup sameKind
          have alone : lookup ⟨rest⟩ bucket.group bucket.kind = [] :=
            (exists_bucket_or_lookup_eq_nil ⟨rest⟩ _ _).resolve_left fun ⟨other, member, same⟩ =>
              tidy.fresh_tail member same
          simp [alone]
        · simp [sameKind]
      · rw [if_neg (by simpa using sameGroup), restLookup, if_neg (fun same => sameGroup same.1)]

/-- An index stays tidy when its buckets are rearranged. -/
theorem perm {other : Index} (tidy : index.Tidy)
    (rearranged : index.buckets.Perm other.buckets) : other.Tidy where
  distinct := ((rearranged.map fun bucket => (bucket.group, bucket.kind)).nodup_iff).mp
    tidy.distinct
  owned := fun bucket member => tidy.owned bucket (rearranged.mem_iff.mpr member)
  once := fun bucket member => tidy.once bucket (rearranged.mem_iff.mpr member)

/-- The order of the buckets does not matter to lookups. -/
theorem lookup_perm {other : Index} (tidy : index.Tidy)
    (rearranged : index.buckets.Perm other.buckets) (group kind : String) :
    other.lookup group kind = index.lookup group kind := by
  have otherTidy := tidy.perm rearranged
  rcases exists_bucket_or_lookup_eq_nil index group kind with ⟨bucket, member, rfl, rfl⟩ | nothing
  · rw [tidy.lookup_of_mem member, otherTidy.lookup_of_mem (rearranged.mem_iff.mp member)]
  · rcases exists_bucket_or_lookup_eq_nil other group kind with
      ⟨bucket, member, rfl, rfl⟩ | neither
    · rw [otherTidy.lookup_of_mem member]
      exact (tidy.lookup_of_mem (rearranged.mem_iff.mpr member)).symm
    · rw [nothing, neither]

/-- The size of an index is the number of the mappings that lookups find. -/
theorem size_eq_sum (tidy : index.Tidy) :
    ∃ pairs : Finset (String × String),
      (∀ group kind, (group, kind) ∉ pairs → index.lookup group kind = []) ∧
      index.size = ∑ pair ∈ pairs, (index.lookup pair.1 pair.2).length := by
  refine ⟨(index.buckets.map fun bucket => (bucket.group, bucket.kind)).toFinset, ?_, ?_⟩
  · intro group kind absent
    rcases exists_bucket_or_lookup_eq_nil index group kind with
      ⟨bucket, member, rfl, rfl⟩ | nothing
    · exact absurd (List.mem_toFinset.mpr (List.mem_map.mpr ⟨bucket, member, rfl⟩)) absent
    · exact nothing
  · have counted : (index.buckets.map fun bucket => bucket.mappings.length) =
        (index.buckets.map fun bucket => (bucket.group, bucket.kind)).map fun pair =>
          (index.lookup pair.1 pair.2).length := by
      rw [List.map_map]
      exact List.map_congr_left fun bucket member => by
        rw [Function.comp_apply, tidy.lookup_of_mem member]
    rw [size, contents, List.length_flatMap, counted, List.sum_toFinset _ tidy.distinct]

end Tidy

end Index

end Lineage
