import Lineage.Api.Server
import Lineage.Proofs.Following
import Lineage.Proofs.JsonReading
import Lineage.Proofs.Meaning
import Lineage.Proofs.World
import Mathlib.Algebra.Order.BigOperators.Group.List

/-!
# How far a session can search

The owners that a session can meet are those of the objects in its stores and those
that the scales of its server name.  A server says how many of the latter there are
at most; the replies of a scripted server name fewer owners than they have
characters.  So the hops that a session allows are more than a search can make, and
every search comes to an end of its own.
-/

namespace Lineage

theorem Wire.eq_or_lookup_of_field {α : Type} {fields : List (String × Json)} {name : String}
    {decode : Json → Option α} {empty content : α}
    (read : Wire.field fields name decode empty = some content) :
    content = empty ∨
      ∃ value, Json.lookup name fields = some value ∧ decode value = some content := by
  rw [field] at read
  obtain ⟨content?, optional, same⟩ := Option.map_eq_some_iff.mp read
  unfold Wire.optional at optional
  split at optional
  · cases optional
    exact .inl same.symm
  · cases optional
    exact .inl same.symm
  · rename_i value _ found
    obtain ⟨decoded, this, rfl⟩ := Option.map_eq_some_iff.mp optional
    cases same
    exact .inr ⟨value, found, this⟩

theorem Metadata.length_owners_le {value : Json} {metadata : Metadata}
    (decoded : decode? value = some metadata) : metadata.owners.length ≤ value.listed := by
  unfold decode? at decoded
  split at decoded
  · rename_i fields
    simp only [Option.bind_eq_bind, Option.bind_eq_some_iff] at decoded
    obtain ⟨_, _, _, _, _, _, _, _, _, _, _, _, _, _, _, _, owners, read, same⟩ := decoded
    cases same
    rcases Wire.eq_or_lookup_of_field read with rfl | ⟨references, found, listing⟩
    · exact Nat.zero_le _
    · refine le_trans ?_ (Json.listed_le_of_lookup found)
      unfold Wire.list? at listing
      split at listing
      · rename_i items
        rw [← (mapM_eq_some_iff_forall₂.mp listing).length_eq]
        exact Json.length_le_listedItems items
      · cases listing
  · cases decoded

theorem Scale.length_le {value : Json} {owners : List Owner}
    (decoded : decode? value = some owners) : owners.length ≤ value.listed := by
  unfold decode? at decoded
  split at decoded
  · simp only [Option.bind_eq_bind, Option.bind_eq_some_iff] at decoded
    obtain ⟨_, _, _, _, _, _, metadata, read, same⟩ := decoded
    cases same
    rcases Wire.eq_or_lookup_of_field read with rfl | ⟨described, found, decoded⟩
    · exact Nat.zero_le _
    · exact (Metadata.length_owners_le decoded).trans (Json.listed_le_of_lookup found)
  · cases decoded

/-- A reply about a scale names fewer owners than it has characters. -/
theorem Reply.length_scale_le {reply : Reply} {owners : List Owner}
    (read : reply.read Scale.decode? = .ok owners) : owners.length ≤ reply.body.length := by
  rw [Reply.read] at read
  split at read
  · cases read
  · split at read
    · rename_i value found
      cases read
      obtain ⟨content, parsed, decoded⟩ := Option.bind_eq_some_iff.mp found
      exact (Scale.length_le decoded).trans (Json.listed_le_length_of_parse parsed)
    · cases read

namespace Api

variable {σ : Type} {api : Api σ} {origin server : σ}

/-- The states to which requests can lead a server. -/
inductive Requested (api : Api σ) (origin : σ) : σ → Prop
  | origin : Requested api origin origin
  | request {server : σ} (path : String) (earlier : Requested api origin server) :
      Requested api origin (api.request path server).2

theorem Requested.trans {later : σ} (first : api.Requested origin server)
    (second : api.Requested server later) : api.Requested origin later := by
  induction second with
  | origin => exact first
  | request path earlier ih => exact ih.request path

/-- The extent of a server bounds the owners that its scales can report. -/
def Covers (api : Api σ) (origin : σ) : Prop :=
  ∃ names : Finset (String × String × String), names.card ≤ api.extent origin ∧
    ∀ server, api.Requested origin server → ∀ path owners,
      (api.request path server).1.read Scale.decode? = .ok owners →
        ∀ owner ∈ owners, owner.identity ∈ names

/-- A read of an object fails without a request or makes one request. -/
theorem fetchNamed_eq {α : Type} (api : Api σ) (decode : Json → Option α)
    (name address : String) :
    (∃ fault, ∀ server, api.fetchNamed decode name address server = (.error fault, server)) ∨
      ∃ path, Address.path? address = some path ∧
        ∀ server, api.fetchNamed decode name address server =
          ((api.request path server).1.read decode, (api.request path server).2) := by
  unfold fetchNamed fetch
  cases name.isEmpty with
  | true => exact .inl ⟨.emptyName, fun server => rfl⟩
  | false =>
      cases Address.path? address with
      | none => exact .inl ⟨.badAddress, fun server => rfl⟩
      | some path => exact .inr ⟨path, rfl, fun server => rfl⟩

end Api

namespace Server

variable {server later : Server}

def scaleOwners (reply : Reply) : List Owner :=
  match reply.read Scale.decode? with
  | .ok owners => owners
  | .error _ => []

theorem mem_of_mem_remaining {reply : Reply} {replies : List Reply}
    (kept : reply ∈ remaining replies) : reply ∈ replies := by
  unfold remaining at kept
  split at kept
  · exact List.mem_cons_of_mem _ kept
  · exact kept

theorem answer_from_replies (path : String) (server : Server) :
    ((answer path server).1 ∈ server.replies ∨ (answer path server).1 = notFound) ∧
      (answer path server).2.replies ⊆ server.replies := by
  rw [answer]
  split
  · rename_i reply rest found
    obtain ⟨before, after, routes, _⟩ := List.lookup_eq_some_iff.mp found
    have stored : ∀ other ∈ reply :: rest, other ∈ server.replies := by
      intro other member
      refine List.mem_flatMap.mpr ⟨(path, reply :: rest), ?_, member⟩
      rw [routes]
      exact List.mem_append_right _ List.mem_cons_self
    refine ⟨.inl (stored reply List.mem_cons_self), ?_⟩
    intro other member
    rw [replies, route, List.flatMap_cons, List.mem_append] at member
    rcases member with kept | elsewhere
    · exact stored other (mem_of_mem_remaining kept)
    · obtain ⟨entry, inside, member⟩ := List.mem_flatMap.mp elsewhere
      exact List.mem_flatMap.mpr ⟨entry, List.mem_of_mem_filter inside, member⟩
  · exact ⟨.inr rfl, List.Subset.refl _⟩

theorem replies_of_requested (requested : api.Requested server later) :
    later.replies ⊆ server.replies := by
  induction requested with
  | origin => exact List.Subset.refl _
  | request path earlier ih => exact List.Subset.trans (answer_from_replies path _).2 ih

theorem length_scaleOwners_le (reply : Reply) :
    (scaleOwners reply).length ≤ reply.body.length := by
  rw [scaleOwners]
  split
  · rename_i owners read
    exact Reply.length_scale_le read
  · exact Nat.zero_le _

theorem length_owners_le_extent (server : Server) :
    (server.replies.flatMap scaleOwners).length ≤ server.extent := by
  rw [extent, List.length_flatMap, String.length_join, List.map_map]
  exact Nat.le_add_left_of_le (List.sum_le_sum fun reply _ => length_scaleOwners_le reply)

/-- The extent of a scripted server bounds the owners that its scales can report. -/
theorem covers (server : Server) : api.Covers server := by
  refine ⟨((server.replies.flatMap scaleOwners).map Owner.identity).toFinset, ?_, ?_⟩
  · refine (List.toFinset_card_le _).trans ?_
    rw [List.length_map]
    exact server.length_owners_le_extent
  · intro later requested path owners read owner member
    refine List.mem_toFinset.mpr (List.mem_map_of_mem (List.mem_flatMap.mpr ?_))
    rcases (answer_from_replies path later).1 with stored | missing
    · refine ⟨_, replies_of_requested requested stored, ?_⟩
      have answered : (answer path later).1.read Scale.decode? = .ok owners := read
      rw [scaleOwners, answered]
      exact member
    · have answered : (answer path later).1.read Scale.decode? = .ok owners := read
      rw [missing] at answered
      cases answered

end Server

namespace Mirror

theorem mem_references {mirror : Mirror} {kind : WorkloadKind} {ns name : String}
    {workload : Workload} {owner : Owner} (known : mirror.cached kind ns name = .ok (some workload))
    (member : owner ∈ workload.owners) : owner ∈ mirror.references := by
  have stored {ns? : Option String} {object : StoredObject}
      (found : StoredObject.find? (mirror.stores kind).objects ns? name = some object)
      (owned : owner ∈ object.owners) : owner ∈ mirror.references := by
    refine List.mem_flatMap.mpr ⟨kind, by cases kind <;> decide, ?_⟩
    exact List.mem_flatMap.mpr ⟨object, List.mem_of_find?_eq_some found, owned⟩
  rw [cached, get] at known
  split at known
  · rw [Except.map, Except.ok.injEq, Option.map_eq_some_iff] at known
    obtain ⟨object, found, rfl⟩ := known
    rw [Store.get?] at found
    split at found
    · rename_i other placed
      cases found
      exact stored placed member
    · exact stored found member
  · cases known

end Mirror

namespace Live

variable {σ : Type} {api : Api σ} {live state : Live σ}

theorem scaled_eq (api : Api σ) (mapping : Mapping) (ns name : String) :
    (∃ cause, ∀ server, scaled api mapping ns name server = (.error cause, server)) ∨
      ∃ path, ∀ server, scaled api mapping ns name server =
        (((api.request path server).1.read Scale.decode?).mapError Cause.client,
          (api.request path server).2) := by
  rcases api.fetchNamed_eq Scale.decode? name (scaleAddress mapping ns name) with
    ⟨fault, failed⟩ | ⟨path, _, asked⟩
  · refine .inl ⟨.client fault, fun server => ?_⟩
    simp only [scaled, bind, StateT.bind, failed]
    rfl
  · refine .inr ⟨path, fun server => ?_⟩
    simp only [scaled, bind, StateT.bind, asked]
    rfl

theorem requested_scaled (mapping : Mapping) (ns name : String) (server : σ) :
    api.Requested server (scaled api mapping ns name server).2 := by
  rcases scaled_eq api mapping ns name with ⟨cause, failed⟩ | ⟨path, asked⟩
  · rw [failed]
    exact .origin
  · rw [asked]
    exact .request path .origin

theorem served_of_reaches (reached : (cluster api).Reaches live state) :
    ∃ server, api.Requested live.server server ∧ state = { live with server } := by
  induction reached with
  | origin => exact ⟨live.server, .origin, rfl⟩
  | cached kind ns name earlier ih => exact ih
  | mapped group kind earlier ih => exact ih
  | scaled mapping ns name earlier ih =>
      obtain ⟨server, requested, rfl⟩ := ih
      exact ⟨_, requested.trans (requested_scaled mapping ns name server), rfl⟩

theorem mem_references_of_cached {kind : WorkloadKind} {ns name : String} {workload : Workload}
    {owner : Owner} (known : live.cached kind ns name = .ok (some workload))
    (member : owner ∈ workload.owners) :
    owner ∈ live.references := by
  rw [cached] at known
  split at known
  · rename_i mirror present
    rw [references, present]
    exact Mirror.mem_references known member
  · cases known

theorem read_of_scaled {mapping : Mapping} {ns name : String} {server : σ} {owners : List Owner}
    (told : (scaled api mapping ns name server).1 = .ok owners) :
    ∃ path, (api.request path server).1.read Scale.decode? = .ok owners := by
  rcases scaled_eq api mapping ns name with ⟨cause, failed⟩ | ⟨path, asked⟩
  · rw [failed] at told
    cases told
  · rw [asked] at told
    refine ⟨path, ?_⟩
    cases read : (api.request path server).1.read Scale.decode? with
    | error fault =>
        rw [read] at told
        cases told
    | ok found =>
        rw [read] at told
        cases told
        rfl

/-- The owners that a cluster can report are those in its stores and those of which
its server can tell. -/
theorem exists_names (covered : api.Covers live.server) :
    ∃ names : Finset (String × String × String), names.card + 1 ≤ live.hops api ∧
      ∀ server, api.Requested live.server server → ∀ owner,
        (cluster api).Reports { live with server } owner → owner.identity ∈ names := by
  obtain ⟨served, few, told⟩ := covered
  refine ⟨served ∪ (live.references.map Owner.identity).toFinset, ?_, ?_⟩
  · have union := Finset.card_union_le served (live.references.map Owner.identity).toFinset
    have listed := List.toFinset_card_le (live.references.map Owner.identity)
    rw [List.length_map] at listed
    rw [hops]
    omega
  · intro server requested owner reported
    rw [Finset.mem_union]
    cases reported with
    | @cached state kind ns name workload _ reached answer member =>
        obtain ⟨later, _, rfl⟩ := served_of_reaches reached
        refine .inr (List.mem_toFinset.mpr (List.mem_map_of_mem ?_))
        exact mem_references_of_cached answer member
    | @scaled state mapping ns name owners _ reached answer member =>
        obtain ⟨later, between, rfl⟩ := served_of_reaches reached
        obtain ⟨path, read⟩ := read_of_scaled answer
        exact .inl (told later (requested.trans between) path owners read owner member)

/-- No search exhausts its hops. -/
theorem exists_finished_run (covered : api.Covers live.server) (kinds : KindSet) (start : Key)
    {server : σ} (later : api.Requested live.server server) :
    ((cluster api).ascend kinds (live.hops api) start { live with server }).1.ending ≠
      .unfinished := by
  obtain ⟨names, few, reported⟩ := exists_names covered
  obtain ⟨ascent, final, run, finished, _⟩ :=
    (cluster api).exists_finished_run kinds { live with server } start
      fun owner source _ => reported server later owner source
  obtain ⟨extra, enough⟩ := Nat.exists_eq_add_of_le few
  rw [Cluster.ascend, enough, run.climb_eq finished extra]
  exact finished

end Live

end Lineage
