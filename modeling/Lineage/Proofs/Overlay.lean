import Lineage.Proofs.Sameness

/-!
# Documents laid over one another

A place in a document is a path of keys through its mappings.  Where the upper
document has something at a path, the merged one has the same laid over what the
lower one has there; where a mapping of the upper document lacks a key, the merged
one has below it what the lower one has.  So a value of the upper document that is
not a mapping hides everything below it, and no key of a mapping is lost.

Laying a document over itself, or twice over another, changes nothing but the order
of entries.
-/

namespace Lineage

namespace Yaml

namespace Value

/-- What a value has at the end of a path of keys through its mappings. -/
def follow : List Value → Value → Option Value
  | [], value => some value
  | key :: path, mapping entries => (lookup key entries).bind (follow path)
  | _ :: _, _ => none

section Paths

variable {key base other value : Value} {path rest : List Value}
  {entries others : List (Value × Value)}

@[simp]
theorem laidOver_none : laidOver none value = value := rfl

@[simp]
theorem laidOver_some : laidOver (some base) value = merge base value := rfl

theorem merge_of_not_mapping (plain : ∀ entries, other ≠ mapping entries) :
    merge base other = other := by
  cases other with
  | mapping entries => exact absurd rfl (plain entries)
  | _ => rfl

theorem merge_mapping_of_not_mapping (plain : ∀ entries, base ≠ mapping entries) :
    merge base (mapping others) = mapping others := by
  cases base with
  | mapping entries => exact absurd rfl (plain entries)
  | _ => rfl

theorem laidOver_mapping_of_not_mapping {present? : Option Value}
    (plain : ∀ entries, present? ≠ some (mapping entries)) :
    laidOver present? (mapping others) = mapping others := by
  cases present? with
  | none => rfl
  | some present =>
      exact merge_mapping_of_not_mapping fun entries here => plain entries (congrArg some here)

theorem laidOver_of_not_mapping {present? : Option Value}
    (plain : ∀ entries, value ≠ mapping entries) : laidOver present? value = value := by
  cases present? with
  | none => rfl
  | some present => exact merge_of_not_mapping plain

theorem follow_append (path rest : List Value) (value : Value) :
    follow (path ++ rest) value = (follow path value).bind (follow rest) := by
  induction path generalizing value with
  | nil => rfl
  | cons key path ih =>
      cases value with
      | mapping entries =>
          rw [List.cons_append, follow, follow, Option.bind_assoc]
          exact congrArg _ (funext ih)
      | _ => rfl

theorem exists_of_follow_cons (found : follow (key :: path) base = some value) :
    ∃ entries next, base = mapping entries ∧ lookup key entries = some next ∧
      follow path next = some value := by
  cases base with
  | mapping entries =>
      obtain ⟨next, here, later⟩ := Option.bind_eq_some_iff.mp found
      exact ⟨entries, next, rfl, here, later⟩
  | _ => cases found

end Paths

section Regularity

variable {key base other value : Value} {path : List Value} {entries others : List (Value × Value)}

theorem Regular.of_lookup (regular : Regular (.mapping entries))
    (found : lookup key entries = some value) : Regular value := by
  obtain ⟨entry, member, rfl⟩ := exists_mem_of_lookup found
  exact (regular_mapping_iff.mp regular).2.2 entry member

theorem Regular.of_follow (regular : Regular base) (found : follow path base = some value) :
    Regular value := by
  induction path generalizing base with
  | nil =>
      cases found
      exact regular
  | cons key path ih =>
      obtain ⟨entries, next, rfl, here, later⟩ := exists_of_follow_cons found
      exact ih (regular.of_lookup here) later

theorem Regular.empty : Regular (.mapping []) :=
  .mapping .nil nofun nofun

theorem Regular.cons (fresh : ∀ entry ∈ entries, same entry.1 key = false) (under : Regular key)
    (content : Regular value) (rest : Regular (.mapping entries)) :
    Regular (.mapping ((key, value) :: entries)) := by
  obtain ⟨distinct, keys, values⟩ := regular_mapping_iff.mp rest
  exact .mapping (List.pairwise_cons.mpr ⟨fresh, distinct⟩)
    (List.forall_mem_cons.mpr ⟨under, keys⟩) (List.forall_mem_cons.mpr ⟨content, values⟩)

theorem Regular.without_head {entry : Value × Value}
    (regular : Regular (.mapping (entry :: entries))) :
    Regular (.mapping entries) := by
  obtain ⟨distinct, keys, values⟩ := regular_mapping_iff.mp regular
  exact .mapping (List.pairwise_cons.mp distinct).2 (List.forall_mem_cons.mp keys).2
    (List.forall_mem_cons.mp values).2

/-- Replacing the entry under a key leaves the keys different. -/
theorem Regular.replace (regular : Regular (.mapping entries)) (also : Regular key)
    (content : Regular value) : Regular (.mapping (remove key entries ++ [(key, value)])) := by
  obtain ⟨distinct, keys, values⟩ := regular_mapping_iff.mp regular
  refine .mapping (List.pairwise_append.mpr ⟨distinct.filter _, List.pairwise_singleton _ _, ?_⟩)
    ?_ ?_
  · intro entry kept last member
    rw [List.mem_singleton.mp member]
    simpa using (List.mem_filter.mp kept).2
  · rw [List.forall_mem_append, List.forall_mem_singleton]
    exact ⟨fun entry kept => keys entry (List.mem_filter.mp kept).1, also⟩
  · rw [List.forall_mem_append, List.forall_mem_singleton]
    exact ⟨fun entry kept => values entry (List.mem_filter.mp kept).1, content⟩

theorem Regular.mergeEntries (lower : Regular (.mapping entries))
    (upper : Regular (.mapping others))
    (values : ∀ entry ∈ others, ∀ base, Regular base → Regular (merge base entry.2)) :
    Regular (.mapping (mergeEntries entries others)) := by
  induction others generalizing entries with
  | nil => exact lower
  | cons entry rest ih =>
      obtain ⟨key, value⟩ := entry
      obtain ⟨_, keys, contents⟩ := regular_mapping_iff.mp upper
      have laid : Regular (laidOver (lookup key entries) value) := by
        cases found : lookup key entries with
        | none => exact contents _ List.mem_cons_self
        | some present =>
            exact values _ List.mem_cons_self present (lower.of_lookup found)
      rw [mergeEntries_cons]
      exact ih (lower.replace (keys _ List.mem_cons_self) laid) upper.without_head
        (List.forall_mem_cons.mp values).2

/-- Regular documents are merged to a regular one. -/
theorem Regular.merge (lower : Regular base) (upper : Regular other) :
    Regular (merge base other) := by
  induction upper generalizing base with
  | @mapping others distinct keys values keysIH valuesIH =>
      cases base with
      | mapping entries =>
          exact lower.mergeEntries (.mapping distinct keys values)
            fun entry member base regular => valuesIH entry member regular
      | _ => exact .mapping distinct keys values
  | _ => constructor <;> assumption

end Regularity

section Overlay

variable {key base other value : Value} {path rest : List Value}
  {entries others : List (Value × Value)}

/-- What is under a key after entries have been laid over others. -/
theorem lookup_mergeEntries_of_regular (regular : Regular key)
    (keys : ∀ entry ∈ entries, Regular entry.1) (distinct : Distinct others)
    (otherKeys : ∀ entry ∈ others, Regular entry.1) :
    lookup key (mergeEntries entries others) =
      ((lookup key others).map (laidOver (lookup key entries))).or (lookup key entries) := by
  induction others generalizing entries with
  | nil => rfl
  | cons entry rest ih =>
      obtain ⟨first, value⟩ := entry
      obtain ⟨apart, laterDistinct⟩ := List.pairwise_cons.mp distinct
      obtain ⟨here, laterKeys⟩ := List.forall_mem_cons.mp otherKeys
      have replaced : ∀ entry ∈
          remove first entries ++ [(first, laidOver (lookup first entries) value)],
          Regular entry.1 := by
        rw [List.forall_mem_append, List.forall_mem_singleton]
        exact ⟨fun entry kept => keys entry (List.mem_filter.mp kept).1, here⟩
      rw [mergeEntries_cons, ih replaced laterDistinct laterKeys, lookup_append,
        lookup_remove regular here keys, lookup, lookup, lookup]
      cases alike : same key first with
      | false => simp
      | true =>
          -- No later entry is under the same key.
          have absent : lookup key rest = none := by
            refine lookup_eq_none_iff.mpr fun entry member => ?_
            rw [regular.same_congr here alike, Bool.eq_false_iff]
            intro again
            have back := here.same_symm (laterKeys entry member) again
            rw [apart entry member] at back
            cases back
          simp [absent, lookup_congr regular here alike]

/-- What the upper document has at a path is laid over what the lower one has there. -/
theorem follow_merge (lower : Regular base) (upper : Regular other)
    (keys : ∀ key ∈ path, Regular key) (found : follow path other = some value) :
    follow path (merge base other) = some (laidOver (follow path base) value) := by
  induction path generalizing base other with
  | nil =>
      cases found
      rfl
  | cons key path ih =>
      obtain ⟨here, later⟩ := List.forall_mem_cons.mp keys
      obtain ⟨others, next, rfl, under, beyond⟩ := exists_of_follow_cons found
      cases base with
      | mapping entries =>
          obtain ⟨_, lowerKeys, _⟩ := regular_mapping_iff.mp lower
          obtain ⟨distinct, upperKeys, _⟩ := regular_mapping_iff.mp upper
          rw [merge, follow, lookup_mergeEntries_of_regular here lowerKeys distinct upperKeys,
            under, follow]
          cases present : lookup key entries with
          | none => exact beyond
          | some value =>
              exact ih (lower.of_lookup present) (upper.of_lookup under) later beyond
      | _ => exact found

/-- Below a key that a mapping of the upper document lacks there is what the lower
document has. -/
theorem follow_merge_of_absent (lower : Regular base) (upper : Regular (mapping others))
    (regular : Regular key) (absent : lookup key others = none) :
    follow (key :: rest) (merge base (mapping others)) = follow (key :: rest) base := by
  cases base with
  | mapping entries =>
      obtain ⟨_, lowerKeys, _⟩ := regular_mapping_iff.mp lower
      obtain ⟨distinct, upperKeys, _⟩ := regular_mapping_iff.mp upper
      rw [merge, follow, lookup_mergeEntries_of_regular regular lowerKeys distinct upperKeys,
        absent]
      rfl
  | _ =>
      rw [merge_mapping_of_not_mapping (by simp), follow, absent]
      rfl

theorem follow_append_merge_of_absent (lower : Regular base) (upper : Regular other)
    (keys : ∀ key ∈ path, Regular key) (regular : Regular key)
    (found : follow path other = some (mapping others)) (absent : lookup key others = none) :
    follow (path ++ key :: rest) (merge base other) = follow (path ++ key :: rest) base := by
  rw [follow_append, follow_append, follow_merge lower upper keys found]
  cases present : follow path base with
  | none =>
      rw [laidOver_none, Option.bind_some, follow, absent]
      rfl
  | some value =>
      exact follow_merge_of_absent (lower.of_follow present) (upper.of_follow found) regular absent

/-- Where both documents have mappings, the merged one has a mapping with the keys of both. -/
theorem follow_merge_of_mappings (lower : Regular base) (upper : Regular other)
    (keys : ∀ key ∈ path, Regular key) (below : follow path base = some (mapping entries))
    (above : follow path other = some (mapping others)) :
    follow path (merge base other) = some (mapping (mergeEntries entries others)) ∧
      ∀ key, Regular key → (lookup key (mergeEntries entries others)).isSome =
        ((lookup key entries).isSome || (lookup key others).isSome) := by
  obtain ⟨_, lowerKeys, _⟩ := regular_mapping_iff.mp (lower.of_follow below)
  obtain ⟨distinct, upperKeys, _⟩ := regular_mapping_iff.mp (upper.of_follow above)
  constructor
  · rw [follow_merge lower upper keys above, below]
    rfl
  · intro key regular
    rw [lookup_mergeEntries_of_regular regular lowerKeys distinct upperKeys]
    simp [Option.isSome_or, Bool.or_comm]

theorem mergeEntries_eq_append (distinct : Distinct others)
    (absent : ∀ entry ∈ entries, ∀ other ∈ others, same other.1 entry.1 = false) :
    mergeEntries entries others = entries ++ others := by
  induction others generalizing entries with
  | nil => exact (List.append_nil _).symm
  | cons other rest ih =>
      obtain ⟨key, value⟩ := other
      obtain ⟨apart, later⟩ := List.pairwise_cons.mp distinct
      have fresh : ∀ entry ∈ entries, same key entry.1 = false := fun entry member =>
        absent entry member _ List.mem_cons_self
      have kept : remove key entries = entries :=
        List.filter_eq_self.mpr fun entry member => by simp [fresh entry member]
      rw [mergeEntries_cons, lookup_eq_none_iff.mpr fresh, kept, ih later, List.append_assoc]
      · rfl
      · rw [List.forall_mem_append, List.forall_mem_singleton]
        exact ⟨fun entry member other inside =>
          absent entry member other (List.mem_cons_of_mem _ inside), apart⟩

/-- A document that is laid over an empty mapping is left as it is. -/
theorem merge_empty (upper : Regular other) : merge (mapping []) other = other := by
  cases upper with
  | mapping distinct keys values =>
      rw [merge, mergeEntries_eq_append distinct (by simp), List.nil_append]
  | _ => rfl

/-- Laying a document over itself changes nothing but the order of entries. -/
theorem same_merge_self (regular : Regular base) : same (merge base base) base = true := by
  induction regular with
  | @mapping entries distinct keys values keysIH valuesIH =>
      have whole : Regular (.mapping entries) := .mapping distinct keys values
      refine same_mapping_of_lookup (whole.merge whole) whole fun key here => ?_
      rw [lookup_mergeEntries_of_regular here keys distinct keys]
      cases found : lookup key entries with
      | none => exact .none
      | some value =>
          obtain ⟨entry, member, rfl⟩ := exists_mem_of_lookup found
          exact .some (valuesIH entry member)
  | _ => exact Regular.same_refl (by constructor <;> assumption)

/-- Laying a document over another a second time changes nothing but the order of
entries. -/
theorem same_merge_merge (lower : Regular base) (upper : Regular other) :
    same (merge (merge base other) other) (merge base other) = true := by
  induction upper generalizing base with
  | @mapping others distinct keys values keysIH valuesIH =>
      have whole : Regular (.mapping others) := .mapping distinct keys values
      cases base with
      | mapping entries =>
          have once := lower.merge whole
          refine same_mapping_of_lookup (once.merge whole) once fun key here => ?_
          obtain ⟨_, lowerKeys, _⟩ := regular_mapping_iff.mp lower
          obtain ⟨_, onceKeys, _⟩ := regular_mapping_iff.mp once
          have merged := lookup_mergeEntries_of_regular here lowerKeys distinct keys
          rw [lookup_mergeEntries_of_regular here onceKeys distinct keys]
          cases found : lookup key others with
          | none =>
              cases there : lookup key (mergeEntries entries others) with
              | none => exact .none
              | some value => exact .some (once.of_lookup there).same_refl
          | some value =>
              obtain ⟨entry, member, rfl⟩ := exists_mem_of_lookup found
              rw [merged, found]
              cases present : lookup key entries with
              | none => exact .some (same_merge_self (values entry member))
              | some value => exact .some (valuesIH entry member (lower.of_lookup present))
      | _ => exact same_merge_self whole
  | _ => exact Regular.same_refl (by constructor <;> assumption)

end Overlay

section Laws

variable {base other : Value}

/-- What two documents become that are laid over one another, at every path of keys.
What is no mapping replaces whatever the lower document has, a mapping replaces what is
none, two mappings become one with the keys of both, and below a missing key the lower
document shows through.  Empty mappings change nothing, and neither does a document that
is laid over itself or a second time, apart from the order of entries. -/
theorem merge_along_paths (lower : Regular base) (upper : Regular other) :
    (∀ path, (∀ key ∈ path, Regular key) →
      (∀ value, follow path other = some value → (∀ entries, value ≠ mapping entries) →
        follow path (merge base other) = some value) ∧
      ∀ others, follow path other = some (mapping others) →
        ((∀ entries, follow path base ≠ some (mapping entries)) →
          follow path (merge base other) = some (mapping others)) ∧
        (∀ entries, follow path base = some (mapping entries) →
          ∃ merged, follow path (merge base other) = some (mapping merged) ∧
            Distinct merged ∧ ∀ key, Regular key → (lookup key merged).isSome =
              ((lookup key entries).isSome || (lookup key others).isSome)) ∧
        ∀ key rest, Regular key → lookup key others = none →
          follow (path ++ key :: rest) (merge base other) = follow (path ++ key :: rest) base) ∧
    (∀ entries, base = mapping entries → merge base (mapping []) = base) ∧
    merge (mapping []) other = other ∧
    same (merge base base) base = true ∧
    same (merge (merge base other) other) (merge base other) = true := by
  refine ⟨fun path keys => ⟨?replaced, fun others above => ⟨?unopposed, ?both, ?missing⟩⟩, ?_,
    merge_empty upper, same_merge_self lower, same_merge_merge lower upper⟩
  case replaced =>
    intro value above plain
    rw [follow_merge lower upper keys above, laidOver_of_not_mapping plain]
  case unopposed =>
    intro plain
    rw [follow_merge lower upper keys above, laidOver_mapping_of_not_mapping plain]
  case both =>
    intro entries below
    obtain ⟨found, union⟩ := follow_merge_of_mappings lower upper keys below above
    have regular := (lower.merge upper).of_follow found
    exact ⟨_, found, (regular_mapping_iff.mp regular).1, union⟩
  case missing =>
    intro key rest regular absent
    exact follow_append_merge_of_absent lower upper keys regular above absent
  · rintro entries rfl
    rfl

/-- A document with a mapping where another one has null and null where the other one
has a mapping. -/
def lowerExample : Value :=
  mapping [(string "logger", mapping [(string "level", string "info"),
    (string "format", mapping [(string "color", bool true)])]), (string "kinds", null)]

def upperExample : Value :=
  mapping [(string "kinds", mapping [(string "first", string "Pod")]),
    (string "logger", mapping [(string "format", null)])]

theorem regular_lowerExample : Regular lowerExample :=
  .cons (by simp [same]) (.string _)
    (.cons (by simp [same]) (.string _) (.string _)
      (.cons (by simp) (.string _) (.cons (by simp) (.string _) (.bool _) .empty) .empty))
    (.cons (by simp) (.string _) .null .empty)

theorem regular_upperExample : Regular upperExample :=
  .cons (by simp [same]) (.string _) (.cons (by simp) (.string _) (.string _) .empty)
    (.cons (by simp) (.string _) (.cons (by simp) (.string _) .null .empty) .empty)

theorem merge_along_paths_mismatched :
    follow [string "logger", string "format"] (merge lowerExample upperExample) = some null ∧
      follow [string "kinds"] (merge lowerExample upperExample) =
        some (mapping [(string "first", string "Pod")]) ∧
      follow [string "logger", string "level"] (merge lowerExample upperExample) =
        some (string "info") := by
  have laws := (merge_along_paths regular_lowerExample regular_upperExample).1
  have named (names : List String) : ∀ key ∈ names.map string, Regular key := by
    intro key member
    obtain ⟨name, _, rfl⟩ := List.mem_map.mp member
    exact .string name
  refine ⟨?_, ?_, ?_⟩
  · exact (laws [string "logger", string "format"] (named ["logger", "format"])).1 null (by cbv)
      (by simp)
  · have below : follow [string "kinds"] lowerExample = some null := by cbv
    exact ((laws [string "kinds"] (named ["kinds"])).2 _ (by cbv)).1 (by simp [below])
  · have below := ((laws [string "logger"] (named ["logger"])).2 _ (by cbv)).2.2 (string "level") []
      (.string _) (by cbv)
    exact below.trans (by cbv)

end Laws

end Value

end Yaml

end Lineage
