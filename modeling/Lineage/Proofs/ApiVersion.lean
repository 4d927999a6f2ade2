import Lineage.Proofs.Index
import Lineage.Proofs.Parent

/-!
# Reading and writing API versions

Reading an API version cuts it at its only slash, and writing puts the slash back
unless the group is the core group.  So the two agree except on a slash in front,
which says nothing and which writing leaves out.

Every mapping writes its API version by the same rule.  A key that names this API
version and the kind of a mapping therefore leads a lookup to the group in which an
index has filed the mapping, and its scale is one of those that are tried.
-/

namespace Lineage

namespace Text

variable {separator : Char} {characters front back : List Char}

theorem splitFirst_eq_none_iff :
    splitFirst separator characters = none ↔ separator ∉ characters := by
  induction characters with
  | nil => simp [splitFirst]
  | cons character rest ih =>
      by_cases here : character = separator
      · simp [splitFirst, here]
      · simp [splitFirst, here, ih, Ne.symm here]

/-- The cut is at the first separator. -/
theorem splitFirst_eq_some_iff :
    splitFirst separator characters = some (front, back) ↔
      characters = front ++ separator :: back ∧ separator ∉ front := by
  induction characters generalizing front with
  | nil => simp [splitFirst]
  | cons character rest ih =>
      by_cases here : character = separator
      · subst here
        rw [splitFirst, if_pos rfl]
        cases front with
        | nil => simp
        | cons first front =>
            simp only [Option.some.injEq, Prod.mk.injEq, reduceCtorEq, false_and, List.cons_append,
              List.cons.injEq, List.mem_cons, false_iff]
            rintro ⟨⟨rfl, _⟩, fresh⟩
            exact fresh (.inl rfl)
      · rw [splitFirst, if_neg here]
        cases front with
        | nil => simp [here]
        | cons first front =>
            rw [List.mem_cons, not_or, List.cons_append, List.cons.injEq]
            constructor
            · intro cut
              obtain ⟨⟨before, after⟩, found, same⟩ := Option.map_eq_some_iff.mp cut
              cases same
              obtain ⟨rfl, fresh⟩ := ih.mp found
              exact ⟨⟨rfl, rfl⟩, Ne.symm here, fresh⟩
            · rintro ⟨⟨rfl, same⟩, _, fresh⟩
              rw [ih.mpr ⟨same, fresh⟩]
              rfl

theorem splitFirst_join {group version : String} (fresh : separator ∉ group.toList) :
    splitFirst separator (group ++ String.singleton separator ++ version).toList =
      some (group.toList, version.toList) :=
  splitFirst_eq_some_iff.mpr ⟨by simp, fresh⟩

end Text

namespace GroupVersion

variable {groupVersion : GroupVersion} {apiVersion : String}

def SlashFree (groupVersion : GroupVersion) : Prop :=
  '/' ∉ groupVersion.group.toList ∧ '/' ∉ groupVersion.version.toList

/-- Reading finds a version of the core group, or a group and a version on the two
sides of a slash. -/
theorem parse_eq_some_iff :
    parse apiVersion = some groupVersion ↔
      groupVersion.SlashFree ∧
        (groupVersion.group = "" ∧ apiVersion = groupVersion.version ∨
          apiVersion = groupVersion.group ++ "/" ++ groupVersion.version) := by
  obtain ⟨group, version⟩ := groupVersion
  simp only [SlashFree]
  rw [parse]
  cases cut : Text.splitFirst '/' apiVersion.toList with
  | none =>
      have whole := Text.splitFirst_eq_none_iff.mp cut
      simp only [Option.some.injEq, mk.injEq]
      constructor
      · rintro ⟨rfl, rfl⟩
        exact ⟨⟨by simp, whole⟩, .inl ⟨rfl, rfl⟩⟩
      · rintro ⟨_, ⟨rfl, rfl⟩ | rfl⟩
        · exact ⟨rfl, rfl⟩
        · simp at whole
  | some parts =>
      obtain ⟨front, back⟩ := parts
      obtain ⟨same, fresh⟩ := Text.splitFirst_eq_some_iff.mp cut
      have written : apiVersion = String.ofList front ++ "/" ++ String.ofList back := by
        rw [← String.toList_inj, same]
        simp
      by_cases more : '/' ∈ back
      · -- A second slash would have to stand in the group or in the version.
        simp only [List.contains_iff_mem, more, if_true, reduceCtorEq, false_iff]
        rintro ⟨⟨groupFree, versionFree⟩, ⟨_, rfl⟩ | split⟩
        · simp [same] at versionFree
        · rw [split] at cut
          cases cut.symm.trans (Text.splitFirst_join groupFree)
          exact versionFree more
      · simp only [List.contains_iff_mem, more, if_false, Option.some.injEq, mk.injEq]
        constructor
        · rintro ⟨rfl, rfl⟩
          simp [fresh, more, written]
        · rintro ⟨⟨groupFree, versionFree⟩, ⟨_, rfl⟩ | split⟩
          · simp [same] at versionFree
          · rw [split] at cut
            cases cut.symm.trans (Text.splitFirst_join groupFree)
            simp

/-- What is written is read back. -/
theorem parse_text (slashFree : groupVersion.SlashFree) :
    parse groupVersion.text = some groupVersion := by
  refine parse_eq_some_iff.mpr ⟨slashFree, ?_⟩
  rw [text]
  by_cases core : groupVersion.group = ""
  · exact .inl ⟨core, by simp [core]⟩
  · exact .inr (by simp [core])

/-- An API version is read if it has at most one slash. -/
theorem exists_parse_iff :
    (∃ groupVersion, parse apiVersion = some groupVersion) ↔ apiVersion.toList.count '/' ≤ 1 := by
  constructor
  · rintro ⟨groupVersion, read⟩
    obtain ⟨⟨groupFree, versionFree⟩, ⟨_, rfl⟩ | rfl⟩ := parse_eq_some_iff.mp read
    · simp [List.count_eq_zero_of_not_mem versionFree]
    · simp [List.count_eq_zero_of_not_mem groupFree, List.count_eq_zero_of_not_mem versionFree]
  · intro few
    rw [parse]
    cases cut : Text.splitFirst '/' apiVersion.toList with
    | none => exact ⟨_, rfl⟩
    | some parts =>
        obtain ⟨front, back⟩ := parts
        obtain ⟨same, _⟩ := Text.splitFirst_eq_some_iff.mp cut
        have last : '/' ∉ back := by
          rw [same, List.count_append, List.count_cons_self] at few
          exact List.count_eq_zero.mp (by omega)
        simp [last]

/-- Writing gives back what was read, without a slash in front. -/
theorem text_of_parse (read : parse apiVersion = some groupVersion) :
    (apiVersion.toList.head? ≠ some '/' ∧ groupVersion.text = apiVersion) ∨
      apiVersion.toList.head? = some '/' ∧ "/" ++ groupVersion.text = apiVersion := by
  obtain ⟨⟨groupFree, versionFree⟩, ⟨core, rfl⟩ | rfl⟩ := parse_eq_some_iff.mp read
  · refine .inl ⟨?_, by simp [text, core]⟩
    intro slash
    exact versionFree (List.mem_of_mem_head? slash)
  · by_cases core : groupVersion.group = ""
    · exact .inr ⟨by simp [core], by simp [text, core]⟩
    · refine .inl ⟨?_, by simp [text, core]⟩
      have filled : groupVersion.group.toList ≠ [] := by simpa using core
      intro slash
      rw [String.toList_append, String.toList_append, List.append_assoc,
        List.head?_append_of_ne_nil _ filled] at slash
      exact groupFree (List.mem_of_mem_head? slash)

theorem text_eq_iff (read : parse apiVersion = some groupVersion) :
    groupVersion.text = apiVersion ↔ apiVersion.toList.head? ≠ some '/' := by
  rcases text_of_parse read with ⟨bare, same⟩ | ⟨slash, rest⟩
  · exact iff_of_true same bare
  · refine iff_of_false ?_ (by simpa using slash)
    intro same
    have lengths := congrArg String.length (rest.trans same.symm)
    simp at lengths

end GroupVersion

namespace Cluster

variable {σ : Type}

/-- A lookup of the parent of a key asks which mappings serve it and then tries
their scales. -/
def Offers (cluster : Cluster σ) (key : Key) (state : σ) (candidates : List Mapping) : Prop :=
  ∃ group next, cluster.mapped group key.kind state = (.ok candidates, next) ∧
    cluster.servedParent key state =
      let tried := cluster.firstScale key.ns key.name (.noMapping group key.kind) candidates next
      (key.servedReply tried.1, tried.2)

/-- A cluster that finds mappings in an index, whatever its state. -/
def MapsBy (cluster : Cluster σ) (index : Index) : Prop :=
  ∀ group kind state, (cluster.mapped group kind state).1 = .ok (index.lookup group kind)

variable {cluster : Cluster σ} {index : Index} {key : Key}

theorem offers_lookup (maps : cluster.MapsBy index) {groupVersion : GroupVersion}
    (read : GroupVersion.parse key.apiVersion = some groupVersion) (state : σ) :
    cluster.Offers key state (index.lookup groupVersion.group key.kind) := by
  have answer : cluster.mapped groupVersion.group key.kind state =
      (.ok (index.lookup groupVersion.group key.kind),
        (cluster.mapped groupVersion.group key.kind state).2) :=
    Prod.ext (maps _ _ state) rfl
  refine ⟨groupVersion.group, _, answer, ?_⟩
  rw [servedParent_eq cluster read, scaleOwners_mapped answer]

end Cluster

namespace Mapping

/-- An API version is read if it has at most one slash, and then the parts have none.
Writing the parts gives the API version back if it does not begin with a slash, and
without that slash otherwise.  The API version of a mapping whose group and version
have no slash is read as these two, one or both of which may be empty, and is the one
under which its collection is addressed.

So a key of the kind and the API version of a mapping that an index holds is offered
candidates among which the mapping is. -/
theorem apiVersion_round_trip :
    (∀ apiVersion : String,
      ((∃ parts, GroupVersion.parse apiVersion = some parts) ↔
        apiVersion.toList.count '/' ≤ 1) ∧
      ∀ parts, GroupVersion.parse apiVersion = some parts →
        parts.SlashFree ∧
        (parts.text = apiVersion ↔ apiVersion.toList.head? ≠ some '/') ∧
        (apiVersion.toList.head? = some '/' → "/" ++ parts.text = apiVersion)) ∧
    (∀ mapping : Mapping, (Resource.ofMapping mapping).apiVersion = mapping.apiVersion) ∧
    ∀ mapping : Mapping, mapping.groupVersion.SlashFree →
      GroupVersion.parse mapping.apiVersion = some ⟨mapping.group, mapping.version⟩ ∧
      ∀ (mappings : List Mapping) (key : Key), mapping ∈ mappings →
        key.kind = mapping.kind → key.apiVersion = mapping.apiVersion →
        ∀ {σ : Type} (cluster : Cluster σ), cluster.MapsBy (Index.ofList mappings) →
          ∀ state, ∃ candidates, cluster.Offers key state candidates ∧ mapping ∈ candidates := by
  refine ⟨fun apiVersion => ⟨GroupVersion.exists_parse_iff, fun parts read => ?_⟩, ?_, ?_⟩
  · refine ⟨(GroupVersion.parse_eq_some_iff.mp read).1, GroupVersion.text_eq_iff read, ?_⟩
    intro slash
    rcases GroupVersion.text_of_parse read with ⟨bare, _⟩ | ⟨_, rest⟩
    · exact absurd slash bare
    · exact rest
  · intro mapping
    by_cases core : mapping.group = "" <;>
      simp [Resource.ofMapping, apiVersion, groupVersion, GroupVersion.text, core]
  · intro mapping slashFree
    have read : GroupVersion.parse mapping.apiVersion = some ⟨mapping.group, mapping.version⟩ :=
      GroupVersion.parse_text slashFree
    refine ⟨read, ?_⟩
    intro mappings key member sameKind sameVersion σ cluster maps state
    rw [← sameVersion] at read
    refine ⟨_, Cluster.offers_lookup maps read state, ?_⟩
    rw [Index.lookup_ofList, List.mem_eraseDups, List.mem_filter]
    exact ⟨member, by simp [sameKind]⟩

/-- Mappings of one kind in two groups, one of which has a version without a name. -/
def widgets : List Mapping :=
  [⟨"", "v1", "widgets", "Widget", true⟩, ⟨"example.com", "", "widgets", "Widget", true⟩]

/-- A world in which these mappings are known. -/
def widgetWorld : World :=
  ⟨[], .ok (Index.ofList widgets), []⟩

theorem apiVersion_round_trip_widgets :
    GroupVersion.parse "/v1" = some ⟨"", "v1"⟩ ∧ GroupVersion.text ⟨"", "v1"⟩ ≠ "/v1" ∧
      "/" ++ GroupVersion.text ⟨"", "v1"⟩ = "/v1" ∧
      ∀ mapping ∈ widgets, mapping.groupVersion.SlashFree ∧ ∃ candidates,
        widgetWorld.cluster.Offers ⟨"team", "Widget", "w", mapping.apiVersion⟩ () candidates ∧
          mapping ∈ candidates := by
  have read : GroupVersion.parse "/v1" = some ⟨"", "v1"⟩ := by decide +kernel
  obtain ⟨_, differs, restored⟩ := (apiVersion_round_trip.1 "/v1").2 _ read
  refine ⟨read, ?_, restored (by decide), ?_⟩
  · rw [Ne, differs]
    decide
  · intro mapping member
    have slashFree : ∀ mapping ∈ widgets, mapping.groupVersion.SlashFree := by
      unfold GroupVersion.SlashFree
      decide
    have offered := (apiVersion_round_trip.2.2 mapping (slashFree mapping member)).2
    have named : ∀ mapping ∈ widgets, mapping.kind = "Widget" := by decide
    exact ⟨slashFree mapping member, offered widgets _ member (named mapping member).symm rfl
      widgetWorld.cluster (fun _ _ _ => rfl) ()⟩

end Mapping

end Lineage
