import Lineage.Discovery.Group
import Mathlib.Data.List.Basic

/-!
# Versions in order

The order of versions is total, so items can be put into the order of their
versions.  Items of one version keep their order, so the first of them is still
the first.
-/

namespace Lineage

namespace VersionName

variable {first second third : VersionName}

theorem le_numbered_iff {stability stability' : Stability} {major major' : Nat}
    {minor minor' : Option Nat} :
    le (numbered stability major minor) (numbered stability' major' minor') = true ↔
      rank stability < rank stability' ∨ rank stability = rank stability' ∧
        (major' < major ∨ major = major' ∧ minorKey minor' ≤ minorKey minor) := by
  rw [le]
  split
  · simp only [decide_eq_true_eq]
    omega
  · split
    · simp only [decide_eq_true_eq]
      omega
    · simp only [decide_eq_true_eq]
      omega

theorem le_free_iff {name name' : String} :
    le (free name) (free name') = true ↔ name ≤ name' := by
  rw [le, Bool.not_eq_true', decide_eq_false_iff_not, String.not_lt]

theorem le_total (first second : VersionName) : (le first second || le second first) = true := by
  rw [Bool.or_eq_true]
  cases first with
  | numbered stability major minor =>
      cases second with
      | numbered stability' major' minor' =>
          rw [le_numbered_iff, le_numbered_iff]
          omega
      | free name => exact .inl rfl
  | free name =>
      cases second with
      | numbered stability major minor => exact .inr rfl
      | free name' =>
          rw [le_free_iff, le_free_iff]
          exact String.le_total name name'

theorem le_trans (lower : le first second = true) (upper : le second third = true) :
    le first third = true := by
  cases first with
  | numbered stability major minor =>
      cases third with
      | free name => rfl
      | numbered stability'' major'' minor'' =>
          cases second with
          | free name => cases upper
          | numbered stability' major' minor' =>
              rw [le_numbered_iff] at lower upper ⊢
              omega
  | free name =>
      cases second with
      | numbered stability major minor => cases lower
      | free name' =>
          cases third with
          | numbered stability major minor => cases upper
          | free name'' =>
              rw [le_free_iff] at lower upper ⊢
              exact String.le_trans lower upper

section Sorting

variable {α : Type} (version : α → String) (items : List α)

theorem perm_sortBy : (sortBy version items).Perm items :=
  List.mergeSort_perm items _

theorem map_sortBy : (sortBy version items).map version = sortBy id (items.map version) :=
  List.map_mergeSort fun _ _ _ _ => rfl

/-- Items of one version keep their order. -/
theorem filter_sortBy (name : String) :
    (sortBy version items).filter (fun item => version item = name) =
      items.filter fun item => version item = name := by
  have level : (items.filter fun item => version item = name).Pairwise fun first second =>
      le (ofText (version first)) (ofText (version second)) = true := by
    refine List.pairwise_iff_forall_sublist.mpr fun {first second} inside => ?_
    have named : ∀ item ∈ [first, second], version item = name := fun item member => by
      simpa using (List.mem_filter.mp (inside.subset member)).2
    rw [named first (by simp), named second (by simp)]
    simpa using le_total (ofText name) (ofText name)
  have kept : (items.filter fun item => version item = name).Sublist (sortBy version items) := by
    refine List.sublist_mergeSort ?_ ?_ level List.filter_sublist
    · exact fun _ _ _ lower upper => le_trans lower upper
    · exact fun first second => le_total (ofText (version first)) (ofText (version second))
  have again := kept.filter fun item => version item = name
  rw [List.filter_filter] at again
  simp only [Bool.and_self] at again
  exact (again.eq_of_length
    (((perm_sortBy version items).filter _).length_eq).symm).symm

end Sorting

/-- The first item of a version is found first before and after sorting. -/
theorem lookup_sortBy {α : Type} (catalogues : List (String × α)) (name : String) :
    (sortBy Prod.fst catalogues).lookup name = catalogues.lookup name := by
  have first (catalogues : List (String × α)) : catalogues.lookup name =
      (catalogues.filter fun catalogue => catalogue.1 = name).head?.map Prod.snd := by
    induction catalogues with
    | nil => rfl
    | cons catalogue rest ih =>
        obtain ⟨version, content⟩ := catalogue
        by_cases here : version = name
        · simp [here]
        · have apart : (name == version) = false := beq_eq_false_iff_ne.mpr (Ne.symm here)
          simp [List.lookup_cons, here, apart, ih]
  rw [first, first, filter_sortBy]

end VersionName

end Lineage
