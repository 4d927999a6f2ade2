import Lineage.Proofs.Survey

/-!
# Indexes of a list

An index stands for a list of mappings if it answers for every group and kind
with the mappings of the list that belong to them, in their order and each of
them once.  The index that is made from a list stands for it, and so does every
rearrangement of its buckets.  All that can be asked of an index is settled by
the list for which it stands, apart from the order of the kinds of a group.

The mappings of all groups, taken from an index in whatever order its buckets
are, make an index that stands for the same list again.
-/

namespace Lineage

namespace Index

section Distinct

variable {α : Type} [DecidableEq α]

/-- A list that is met any number of times is kept once. -/
theorem eraseDups_flatMap_ite (names : List String) (name : String) (items : List α) :
    (names.flatMap fun other => if other = name then items else []).eraseDups =
      if name ∈ names then items.eraseDups else [] := by
  induction names with
  | nil => rfl
  | cons first names ih =>
      rw [List.flatMap_cons]
      by_cases here : first = name
      · have again : ∀ item ∈ names.flatMap fun other => if other = name then items else [],
            item ∈ items := by
          intro item member
          obtain ⟨other, _, inside⟩ := List.mem_flatMap.mp member
          split at inside
          · exact inside
          · cases inside
        have nothing : (names.flatMap fun other => if other = name then items else []).removeAll
            items = [] := by
          rw [List.removeAll, List.filter_eq_nil_iff]
          intro item member
          simp [again item member]
        rw [if_pos here, List.eraseDups_append, nothing, if_pos (by simp [here]),
          List.eraseDups_nil, List.append_nil]
      · rw [if_neg here, List.nil_append, ih]
        simp [Ne.symm here]

end Distinct

/-- No mapping is added to a bucket that is empty. -/
theorem mappings_ne_nil_of_mem_insertBucket {mapping : Mapping} {buckets : List Bucket}
    (filled : ∀ bucket ∈ buckets, bucket.mappings ≠ []) :
    ∀ bucket ∈ insertBucket mapping buckets, bucket.mappings ≠ [] := by
  induction buckets with
  | nil => simp [insertBucket]
  | cons first rest ih =>
      obtain ⟨firstFilled, restFilled⟩ := List.forall_mem_cons.mp filled
      rw [insertBucket_cons]
      split
      · refine List.forall_mem_cons.mpr ⟨?_, restFilled⟩
        have member : mapping ∈ addOnce first.mappings mapping := mem_addOnce.mpr (.inr rfl)
        exact List.ne_nil_of_mem member
      · exact List.forall_mem_cons.mpr ⟨firstFilled, ih restFilled⟩

namespace Tidy

variable {index : Index}

theorem nodup_contents (tidy : index.Tidy) : index.contents.Nodup := by
  refine List.nodup_flatMap.mpr ⟨tidy.once, ?_⟩
  have apart := List.pairwise_map.mp tidy.distinct
  refine apart.imp_of_mem fun {first second} firstMember secondMember differ => ?_
  intro mapping inFirst inSecond
  obtain ⟨firstGroup, firstKind⟩ := tidy.owned first firstMember mapping inFirst
  obtain ⟨secondGroup, secondKind⟩ := tidy.owned second secondMember mapping inSecond
  exact differ (by rw [← firstGroup, ← firstKind, secondGroup, secondKind])

theorem mem_contents (tidy : index.Tidy) {mapping : Mapping} :
    mapping ∈ index.contents ↔ mapping ∈ index.lookup mapping.group mapping.kind := by
  rw [contents, List.mem_flatMap]
  constructor
  · rintro ⟨bucket, member, inside⟩
    obtain ⟨sameGroup, sameKind⟩ := tidy.owned bucket member mapping inside
    rw [sameGroup, sameKind, tidy.lookup_of_mem member]
    exact inside
  · intro found
    rcases exists_bucket_or_lookup_eq_nil index mapping.group mapping.kind with
      ⟨bucket, member, sameGroup, sameKind⟩ | nothing
    · rw [← sameGroup, ← sameKind, tidy.lookup_of_mem member] at found
      exact ⟨bucket, member, found⟩
    · rw [nothing] at found
      cases found

/-- The mappings of a group are those among all mappings that carry its name. -/
theorem group_eq_filter (tidy : index.Tidy) (name : String) :
    index.group name = index.contents.filter fun mapping => mapping.group = name := by
  obtain ⟨buckets⟩ := index
  induction buckets with
  | nil => rfl
  | cons bucket rest ih =>
      have owned := tidy.owned bucket List.mem_cons_self
      have later := ih tidy.tail
      simp only [Index.group, contents] at later ⊢
      rw [List.filter_cons, List.flatMap_cons, List.filter_append, ← later]
      split
      · rename_i named
        have all : (bucket.mappings.filter fun mapping => mapping.group = name) =
            bucket.mappings := List.filter_eq_self.mpr fun mapping inside => by
          simpa [(owned mapping inside).1] using named
        rw [all, List.flatMap_cons]
      · rename_i other
        have none : (bucket.mappings.filter fun mapping => mapping.group = name) = [] :=
          List.filter_eq_nil_iff.mpr fun mapping inside => by
            simpa [(owned mapping inside).1] using other
        rw [none, List.nil_append]

/-- Among the mappings of one group those of a group and kind are what their lookup
gives, or none. -/
theorem filter_group (tidy : index.Tidy) (name group kind : String) :
    ((index.group name).filter fun mapping => mapping.group = group ∧ mapping.kind = kind) =
      if name = group then index.lookup group kind else [] := by
  split
  · rename_i same
    subst same
    rw [← tidy.group_filter_kind]
    exact List.filter_congr fun mapping member => by simp [tidy.group_of_mem_group member]
  · rename_i other
    exact List.filter_eq_nil_iff.mpr fun mapping member => by
      simp [tidy.group_of_mem_group member, other]

end Tidy

/-- An index stands for a list if it has its mappings, in order and each of them
once, and no bucket without a mapping. -/
structure StandsFor (index : Index) (mappings : List Mapping) : Prop where
  tidy : index.Tidy
  filled : ∀ bucket ∈ index.buckets, bucket.mappings ≠ []
  lookup_eq : ∀ group kind, index.lookup group kind =
    (mappings.filter fun mapping => mapping.group = group ∧ mapping.kind = kind).eraseDups

namespace StandsFor

variable {index other : Index} {mappings : List Mapping}

theorem ofList (mappings : List Mapping) : (Index.ofList mappings).StandsFor mappings where
  tidy := Tidy.ofList mappings
  filled := by
    induction mappings using List.reverseRecOn with
    | nil =>
        intro bucket member
        cases member
    | append_singleton mappings mapping ih =>
        rw [ofList_concat]
        exact mappings_ne_nil_of_mem_insertBucket ih
  lookup_eq := lookup_ofList mappings

theorem perm (stands : index.StandsFor mappings) (rearranged : index.buckets.Perm other.buckets) :
    other.StandsFor mappings where
  tidy := stands.tidy.perm rearranged
  filled := fun bucket member => stands.filled bucket (rearranged.mem_iff.mpr member)
  lookup_eq := fun group kind =>
    (stands.tidy.lookup_perm rearranged group kind).trans (stands.lookup_eq group kind)

theorem mem_lookup (stands : index.StandsFor mappings) {mapping : Mapping} {group kind : String} :
    mapping ∈ index.lookup group kind ↔
      mapping ∈ mappings ∧ mapping.group = group ∧ mapping.kind = kind := by
  simp [stands.lookup_eq]

theorem mem_contents (stands : index.StandsFor mappings) {mapping : Mapping} :
    mapping ∈ index.contents ↔ mapping ∈ mappings := by
  simp [stands.tidy.mem_contents, stands.mem_lookup]

theorem mem_group (stands : index.StandsFor mappings) {mapping : Mapping} {name : String} :
    mapping ∈ index.group name ↔ mapping ∈ mappings ∧ mapping.group = name := by
  simp [stands.tidy.group_eq_filter, stands.mem_contents]

theorem nodup_group (stands : index.StandsFor mappings) (name : String) :
    (index.group name).Nodup := by
  rw [stands.tidy.group_eq_filter]
  exact stands.tidy.nodup_contents.filter _

theorem size_eq_card (stands : index.StandsFor mappings) :
    index.size = mappings.toFinset.card := by
  rw [size, ← List.toFinset_card_of_nodup stands.tidy.nodup_contents]
  congr 1
  ext mapping
  simp [stands.mem_contents]

theorem isEmpty_iff (stands : index.StandsFor mappings) :
    index.isEmpty = true ↔ mappings = [] := by
  rw [isEmpty, List.isEmpty_iff]
  constructor
  · intro vacant
    refine List.eq_nil_iff_forall_not_mem.mpr fun mapping member => ?_
    have inside := stands.mem_contents.mpr member
    rw [contents, vacant] at inside
    cases inside
  · rintro rfl
    refine List.eq_nil_iff_forall_not_mem.mpr fun bucket member => ?_
    obtain ⟨mapping, inside⟩ := List.exists_mem_of_ne_nil _ (stands.filled bucket member)
    have listed := stands.mem_contents.mp (List.mem_flatMap.mpr ⟨bucket, member, inside⟩)
    cases listed

/-- The mappings of all groups make an index for the same list, in whatever order
the groups come and whatever the order of the kinds in each of them. -/
theorem rebuild (stands : index.StandsFor mappings) {names : List String}
    (covered : ∀ mapping ∈ mappings, mapping.group ∈ names) {views : String → Index}
    (rearranged : ∀ name ∈ names, index.buckets.Perm (views name).buckets) :
    (Index.ofList (names.flatMap fun name => (views name).group name)).StandsFor mappings where
  tidy := Tidy.ofList _
  filled := (ofList _).filled
  lookup_eq := by
    intro group kind
    have parts : ∀ name ∈ names, (((views name).group name).filter fun mapping =>
        mapping.group = group ∧ mapping.kind = kind) =
          if name = group then index.lookup group kind else [] := by
      intro name member
      rw [(stands.perm (rearranged name member)).tidy.filter_group,
        stands.tidy.lookup_perm (rearranged name member)]
    rw [lookup_ofList, List.filter_flatMap, List.flatMap_congr parts, eraseDups_flatMap_ite,
      eraseDups_of_nodup (stands.tidy.lookup_nodup group kind), ← stands.lookup_eq]
    split
    · rfl
    · rename_i unlisted
      refine (List.eq_nil_iff_forall_not_mem.mpr fun mapping found => unlisted ?_).symm
      obtain ⟨member, same, _⟩ := stands.mem_lookup.mp found
      exact same ▸ covered mapping member

theorem perm_group (stands : index.StandsFor mappings) (also : other.StandsFor mappings)
    (name : String) : (index.group name).Perm (other.group name) := by
  rw [List.perm_ext_iff_of_nodup (stands.nodup_group name) (also.nodup_group name)]
  exact fun mapping => stands.mem_group.trans also.mem_group.symm

end StandsFor

/-- The index of a list, with its buckets in any order, answers for every group and
kind with the mappings of the list that belong to them, in order and each of them
once.  Its size is the number of different mappings, it is empty if the list is,
and what it has for a group are the mappings of the group, each once and in order
within each kind.  The mappings of all groups, whatever the order of the groups and
that of the kinds in each of them, make an index that cannot be told from it. -/
theorem rearranged_index_faithful (mappings : List Mapping) (index : Index)
    (rearranged : (ofList mappings).buckets.Perm index.buckets) :
    (∀ group kind,
      index.lookup group kind =
        (mappings.filter fun mapping => mapping.group = group ∧ mapping.kind = kind).eraseDups ∧
      (index.lookup group kind).Nodup ∧
      ∀ mapping ∈ index.lookup group kind, mapping.group = group ∧ mapping.kind = kind) ∧
    index.size = mappings.toFinset.card ∧
    (index.isEmpty = true ↔ index.size = 0) ∧
    (index.size = 0 ↔ mappings = []) ∧
    (∀ name,
      (index.group name).Nodup ∧
      (∀ mapping, mapping ∈ index.group name ↔ mapping ∈ mappings ∧ mapping.group = name) ∧
      ∀ kind, ((index.group name).filter fun mapping => mapping.kind = kind) =
        index.lookup name kind) ∧
    ∀ (names : List String) (views : String → Index) (rebuilt : Index),
      (∀ mapping ∈ mappings, mapping.group ∈ names) →
      (∀ name ∈ names, index.buckets.Perm (views name).buckets) →
      (ofList (names.flatMap fun name => (views name).group name)).buckets.Perm rebuilt.buckets →
      (∀ group kind, rebuilt.lookup group kind = index.lookup group kind) ∧
      (∀ name, (rebuilt.group name).Perm (index.group name)) ∧
      rebuilt.size = index.size ∧
      rebuilt.isEmpty = index.isEmpty := by
  have stands := (StandsFor.ofList mappings).perm rearranged
  have unsized : index.size = 0 ↔ mappings = [] := by
    rw [stands.size_eq_card, Finset.card_eq_zero, List.toFinset_eq_empty_iff]
  refine ⟨?_, stands.size_eq_card, stands.isEmpty_iff.trans unsized.symm, unsized, ?_, ?_⟩
  · intro group kind
    exact ⟨stands.lookup_eq group kind, stands.tidy.lookup_nodup group kind,
      fun mapping found => (stands.mem_lookup.mp found).2⟩
  · intro name
    exact ⟨stands.nodup_group name, fun mapping => stands.mem_group,
      stands.tidy.group_filter_kind name⟩
  · intro names views rebuilt covered arranged again
    have afresh := (stands.rebuild covered arranged).perm again
    refine ⟨?_, afresh.perm_group stands, ?_, ?_⟩
    · intro group kind
      rw [afresh.lookup_eq, stands.lookup_eq]
    · rw [afresh.size_eq_card, stands.size_eq_card]
    · rw [Bool.eq_iff_iff, afresh.isEmpty_iff, stands.isEmpty_iff]

section Crowded

/-- Mappings of two groups in no order, one of them twice. -/
def crowded : List Mapping :=
  [⟨"example.com", "v2", "widgets", "Widget", true⟩, ⟨"apps", "v1", "scales", "Scale", true⟩,
    ⟨"example.com", "v1", "gadgets", "Gadget", false⟩,
    ⟨"example.com", "v1", "widgets", "Widget", true⟩,
    ⟨"example.com", "v2", "widgets", "Widget", true⟩]

def crowdedBackwards : Index :=
  ⟨(ofList crowded).buckets.reverse⟩

/-- Widgets are found in their order after the index has been taken apart into its
groups and put together again, with the groups and the kinds in another order. -/
theorem rearranged_index_faithful_crowded :
    (ofList crowded).buckets.Perm crowdedBackwards.buckets ∧
      (∀ mapping ∈ crowded, mapping.group ∈ ["apps", "example.com"]) ∧
      crowdedBackwards.size = 4 ∧
      (ofList (["apps", "example.com"].flatMap fun name =>
          crowdedBackwards.group name)).lookup "example.com" "Widget" =
        [⟨"example.com", "v2", "widgets", "Widget", true⟩,
          ⟨"example.com", "v1", "widgets", "Widget", true⟩] := by
  have rearranged : (ofList crowded).buckets.Perm crowdedBackwards.buckets :=
    (List.reverse_perm _).symm
  have covered : ∀ mapping ∈ crowded, mapping.group ∈ ["apps", "example.com"] := by decide
  obtain ⟨answers, size, _, _, _, rebuilds⟩ :=
    rearranged_index_faithful crowded crowdedBackwards rearranged
  have same := rebuilds ["apps", "example.com"] (fun _ => crowdedBackwards) _ covered
    (fun _ _ => List.Perm.refl _) (List.Perm.refl _)
  refine ⟨rearranged, covered, ?_, ?_⟩
  · rw [size]
    decide
  · rw [same.1, (answers "example.com" "Widget").1]
    decide

end Crowded

end Index

end Lineage
