import Lineage.Files.Tree
import Mathlib.Data.List.Basic

/-!
# Frames of changes to files

Writing a file changes what is found at no other place, and making directories
changes nothing but places on the way to them.  A path is followed name by name,
so that paths which have been joined are followed one after the other.
-/

namespace Lineage

namespace Path

variable {base path : String}

theorem names_append (front back : List Char) :
    names (String.ofList (front ++ '/' :: back)) =
      names (String.ofList front) ++ names (String.ofList back) := by
  simp only [names, Text.split, String.toList_ofList, List.splitOn_append_cons_self,
    List.map_append, List.filter_append]

theorem names_join (relative : isAbsolute path = false) :
    names (join base path) = names base ++ names path := by
  rw [join, relative, Bool.false_or]
  by_cases void : base = ""
  · subst void
    rfl
  · rw [if_neg (by rwa [String.isEmpty_iff])]
    split
    · rename_i closed
      obtain ⟨front, same⟩ := List.getLast?_eq_some_iff.mp closed
      have both : base ++ path = String.ofList (front ++ '/' :: path.toList) := by
        rw [← String.toList_inj, String.toList_append, same, String.toList_ofList]
        simp
      have alone : base = String.ofList (front ++ '/' :: []) := by
        rw [← String.toList_inj, same, String.toList_ofList]
      rw [both, alone, names_append, names_append, List.append_assoc, String.ofList_toList]
      rfl
    · have both : base ++ "/" ++ path = String.ofList (base.toList ++ '/' :: path.toList) := by
        rw [← String.toList_inj, String.toList_ofList]
        simp
      rw [both, names_append, String.ofList_toList, String.ofList_toList]

theorem isAbsolute_join (relative : isAbsolute path = false) :
    isAbsolute (join base path) = isAbsolute base := by
  rw [join, relative, Bool.false_or]
  by_cases void : base = ""
  · subst void
    exact relative
  · rw [if_neg (by rwa [String.isEmpty_iff])]
    have filled : base.toList ≠ [] := by simpa using void
    split <;> simp [isAbsolute, List.head?_append, List.head?_eq_some_head filled]

end Path

namespace FileTree

variable {tree other : FileTree} {place target : List String} {entry : FileEntry} {path : String}
  {content : Option String}

theorem at?_put_of_ne (different : target ≠ place) :
    (tree.put place entry).at? target = tree.at? target := by
  rw [at?, at?, put]
  by_cases around : target.isPrefixOf tree.working
  · rw [if_pos around, if_pos around]
  · rw [if_neg around, if_neg around, List.find?_cons_of_neg (by simpa using different.symm),
      List.find?_filter]
    refine congrArg (Option.map Prod.snd) (congrArg (fun test => tree.entries.find? test) ?_)
    funext other
    by_cases here : other.1 = target
    · simp [here, different]
    · simp [here]

/-- Where there is no directory, what is put there is there. -/
theorem at?_put_self (replaced : tree.at? place ≠ some .directory) :
    (tree.put place entry).at? place = some entry := by
  rw [at?] at replaced ⊢
  rw [put]
  split
  · rename_i around
    rw [if_pos around] at replaced
    exact absurd rfl replaced
  · simp

theorem walk_append (front back : List String) :
    tree.walk place (front ++ back) =
      (tree.walk place front).bind fun next => tree.walk next back := by
  induction front generalizing place with
  | nil => rfl
  | cons name rest ih =>
      rw [List.cons_append, walk, walk]
      rcases tree.at? place with _ | _ | _
      · rfl
      · dsimp only
        split <;> exact ih
      · rfl

/-- Without two dots a path leads to its own names. -/
theorem eq_append_of_walk {names : List String} (straight : ".." ∉ names)
    (reached : tree.walk place names = .ok target) : target = place ++ names := by
  induction names generalizing place with
  | nil => simpa [walk] using reached.symm
  | cons name rest ih =>
      rw [List.mem_cons, not_or] at straight
      rw [walk] at reached
      rcases here : tree.at? place with _ | _ | _ <;> rw [here] at reached
      · cases reached
      · rw [if_neg (Ne.symm straight.1)] at reached
        rw [ih straight.2 reached, List.append_assoc, List.singleton_append]
      · cases reached

theorem find_eq (tree : FileTree) (path : String) :
    tree.find path =
      if path.isEmpty then .error .absent
      else
        match tree.walk (tree.origin path) (Path.names path) with
        | .error fault => .error fault
        | .ok place =>
          match tree.at? place with
          | none => .error .absent
          | some .directory => .ok .directory
          | some (.file content) =>
            if Path.endsInDirectory path then .error .notDirectory else .ok (.file content) := by
  rw [find]
  cases path.isEmpty
  · cases tree.walk (tree.origin path) (Path.names path) with
    | error fault => rfl
    | ok place =>
        dsimp only [bind, Except.bind]
        rcases tree.at? place with _ | _ | content <;> rfl
  · rfl

/-- What a path leads to. -/
theorem find_eq_ok_iff {item : FileEntry} :
    tree.find path = .ok item ↔
      path.isEmpty = false ∧ ∃ place, tree.walk (tree.origin path) (Path.names path) = .ok place ∧
        tree.at? place = some item ∧ (item ≠ .directory → Path.endsInDirectory path = false) := by
  rw [find_eq]
  cases path.isEmpty with
  | true => simp
  | false =>
      cases tree.walk (tree.origin path) (Path.names path) with
      | error fault => simp
      | ok place =>
          rcases here : tree.at? place with _ | _ | content
          · simp [here]
          · simp only [Bool.false_eq_true, if_false, Except.ok.injEq, true_and, exists_eq_left',
              here, Option.some.injEq]
            exact ⟨fun same => ⟨same, fun other => absurd same.symm other⟩, And.left⟩
          · cases Path.endsInDirectory path with
            | true =>
                refine iff_of_false (by simp [here]) ?_
                rintro ⟨_, _, ⟨⟩, found, file⟩
                cases here.symm.trans found
                exact absurd (file nofun) nofun
            | false => simp [here]

theorem write_eq (tree : FileTree) (path : String) (content : Option String) :
    tree.write path content =
      if path.isEmpty then .error .absent
      else
        match tree.walk (tree.origin path) (Path.names path) with
        | .error fault => .error fault
        | .ok place =>
          match tree.at? place with
          | some .directory => .error .isDirectory
          | some (.file _) =>
            if Path.endsInDirectory path then .error .notDirectory
            else .ok (tree.put place (.file content))
          | none =>
            if Path.endsInDirectory path then .error .isDirectory
            else .ok (tree.put place (.file content)) := by
  rw [write]
  cases path.isEmpty
  · cases tree.walk (tree.origin path) (Path.names path) with
    | error fault => rfl
    | ok place =>
        dsimp only [bind, Except.bind]
        rcases tree.at? place with _ | _ | old <;> rfl
  · rfl

theorem write_eq_ok_iff :
    tree.write path content = .ok other ↔
      path.isEmpty = false ∧ Path.endsInDirectory path = false ∧
        ∃ place, tree.walk (tree.origin path) (Path.names path) = .ok place ∧
          tree.at? place ≠ some .directory ∧ tree.put place (.file content) = other := by
  rw [write_eq]
  cases path.isEmpty with
  | true => simp
  | false =>
      cases tree.walk (tree.origin path) (Path.names path) with
      | error fault => simp
      | ok place =>
          rcases here : tree.at? place with _ | _ | old <;>
            cases Path.endsInDirectory path <;> simp [here]

section Put

variable (replaced : tree.at? place ≠ some .directory)
include replaced

/-- No path leads through a file, so that the same paths lead on where one is put. -/
theorem walk_put_eq_ok_iff {start : List String} {names : List String} :
    (tree.put place (.file content)).walk start names = .ok target ↔
      tree.walk start names = .ok target := by
  induction names generalizing start with
  | nil => exact Iff.rfl
  | cons name rest ih =>
      rw [walk, walk]
      by_cases here : start = place
      · subst here
        rw [at?_put_self replaced]
        rcases before : tree.at? start with _ | _ | _
        · simp
        · exact absurd before replaced
        · simp
      · rw [at?_put_of_ne here]
        rcases tree.at? start with _ | _ | _
        · rfl
        · dsimp only
          split <;> exact ih
        · rfl

end Put

theorem origin_put : (tree.put place entry).origin path = tree.origin path := rfl

/-- What is written can be read. -/
theorem read_of_write {text : String} (written : tree.write path (some text) = .ok other) :
    other.read path = .ok text := by
  obtain ⟨filled, ends, place, walked, replaced, rfl⟩ := write_eq_ok_iff.mp written
  have found : (tree.put place (.file (some text))).find path = .ok (.file (some text)) := by
    refine find_eq_ok_iff.mpr ⟨filled, place, ?_, at?_put_self replaced, fun _ => ends⟩
    rw [origin_put, walk_put_eq_ok_iff replaced]
    exact walked
  rw [read, found]
  rfl

/-- What other paths lead to remains when a file is written. -/
theorem find_write_eq_ok_iff {elsewhere : String} {item : FileEntry}
    (written : tree.write path content = .ok other)
    (apart : ∀ place, tree.walk (tree.origin path) (Path.names path) = .ok place →
      tree.walk (tree.origin elsewhere) (Path.names elsewhere) ≠ .ok place) :
    other.find elsewhere = .ok item ↔ tree.find elsewhere = .ok item := by
  obtain ⟨_, _, place, walked, replaced, rfl⟩ := write_eq_ok_iff.mp written
  rw [find_eq_ok_iff, find_eq_ok_iff, origin_put]
  refine and_congr_right fun _ => exists_congr fun target => ?_
  rw [walk_put_eq_ok_iff replaced]
  refine and_congr_right fun led => ?_
  have different : target ≠ place := by
    rintro rfl
    exact apart target walked led
  rw [at?_put_of_ne different]

/-- A tree in which everything is in a directory. -/
def Rooted (tree : FileTree) : Prop :=
  ∀ place name, (tree.at? (place ++ [name])).isSome → tree.at? place = some .directory

theorem rooted_of_forall
    (parents : ∀ entry ∈ tree.entries, tree.at? entry.1.dropLast = some .directory) :
    tree.Rooted := by
  intro place name found
  by_cases around : (place ++ [name]).isPrefixOf tree.working
  · rw [at?, if_pos]
    rw [List.isPrefixOf_iff_prefix] at around ⊢
    exact (List.prefix_append place [name]).trans around
  · rw [at?, if_neg around, Option.isSome_map, List.find?_isSome] at found
    obtain ⟨entry, member, here⟩ := found
    have parent := parents entry member
    rwa [of_decide_eq_true here, List.dropLast_concat] at parent

theorem Rooted.directory (rooted : tree.Rooted) {names : List String} (below : names ≠ [])
    (found : (tree.at? (place ++ names)).isSome) : tree.at? place = some .directory := by
  induction names generalizing place with
  | nil => exact absurd rfl below
  | cons name rest ih =>
      cases rest with
      | nil => exact rooted place name found
      | cons next rest =>
          refine rooted place name ?_
          rw [ih (by simp) (by simpa using found)]
          rfl

/-- A path without two dots leads to whatever is at its names. -/
theorem Rooted.walk (rooted : tree.Rooted) {names : List String} (straight : ".." ∉ names)
    (found : (tree.at? (place ++ names)).isSome) :
    tree.walk place names = .ok (place ++ names) := by
  induction names generalizing place with
  | nil => simp [FileTree.walk]
  | cons name rest ih =>
      rw [List.mem_cons, not_or] at straight
      rw [FileTree.walk, rooted.directory (by simp) found]
      dsimp only
      rw [if_neg (Ne.symm straight.1), ih straight.2 (by simpa using found), List.append_assoc,
        List.singleton_append]

/-- Nothing is found at the end of a path that passes a place where nothing is. -/
theorem find_ne_ok_of_missing {front rest : List String} {item : FileEntry}
    (parts : Path.names path = front ++ rest) (straight : ".." ∉ front)
    (missing : tree.at? (tree.origin path ++ front) = none) : tree.find path ≠ .ok item := by
  intro found
  obtain ⟨_, place, walked, here, _⟩ := find_eq_ok_iff.mp found
  rw [parts, walk_append] at walked
  cases first : tree.walk (tree.origin path) front with
  | error fault =>
      rw [first] at walked
      cases walked
  | ok passed =>
      rw [first, eq_append_of_walk straight first] at walked
      change tree.walk (tree.origin path ++ front) rest = .ok place at walked
      cases rest with
      | nil =>
          cases walked
          rw [missing] at here
          cases here
      | cons name rest =>
          rw [FileTree.walk, missing] at walked
          cases walked

/-- Only directories on the way are made. -/
theorem at?_makeWay {hasMade : Bool} {names : List String} (straight : ".." ∉ names)
    (made : tree.makeWay hasMade place names = .ok other) (aside : ¬target <+: place ++ names) :
    other.at? target = tree.at? target := by
  induction names generalizing tree hasMade place with
  | nil =>
      rw [List.append_nil] at aside
      rw [makeWay] at made
      split at made
      · cases made
        rfl
      · cases made
      · cases made
        exact at?_put_of_ne fun same => aside (same ▸ List.prefix_refl _)
  | cons name rest ih =>
      rw [List.mem_cons, not_or] at straight
      have next : ¬target <+: place ++ [name] ++ rest := by simpa using aside
      rw [makeWay, if_neg (Ne.symm straight.1)] at made
      split at made
      · cases made
      · exact ih straight.2 made next
      · rw [ih straight.2 made next]
        exact at?_put_of_ne fun same => aside (same ▸ List.prefix_append _ _)

theorem working_makeWay {hasMade : Bool} {names : List String}
    (made : tree.makeWay hasMade place names = .ok other) : other.working = tree.working := by
  induction names generalizing tree hasMade place with
  | nil =>
      rw [makeWay] at made
      split at made <;> cases made <;> rfl
  | cons name rest ih =>
      rw [makeWay] at made
      split at made
      · cases made
      · exact ih made
      · rw [ih made]
        rfl

end FileTree

end Lineage
