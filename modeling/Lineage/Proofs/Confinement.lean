import Lineage.Proofs.Rewrite

/-!
# Where the file for a context is

The name of a context is any text, and the path of its file is joined from it as it
is.  Resolved by its spelling alone, such a path leads up from the directory for
contexts as often as two dots find no name to take back, and down again from there;
a name that begins with a slash begins anew at the root.

So a name that never leads out of that directory has its file there, and what is
loaded and validated for it comes from this directory and from the file for all
contexts.  Other names can lead to any file whose name ends as that of a file for a
context does, and one of them leads to the file for all contexts.
-/

namespace Lineage

namespace Text

/-- The last piece of a text goes on where the text goes on without a separator. -/
theorem splitOn_append_of_not_mem {separator : Char} {back : List Char}
    (absent : separator ∉ back) (front : List Char) :
    ∃ pieces last, (front ++ back).splitOn separator = pieces ++ [last ++ back] := by
  induction front with
  | nil => exact ⟨[], [], List.splitOn_eq_singleton absent⟩
  | cons character rest ih =>
      obtain ⟨pieces, last, cut⟩ := ih
      rw [List.cons_append, List.splitOn_cons_eq_if_modifyHead, cut]
      split
      · exact ⟨[] :: pieces, last, rfl⟩
      · cases pieces with
        | nil => exact ⟨[], character :: last, rfl⟩
        | cons piece pieces => exact ⟨(character :: piece) :: pieces, last, rfl⟩

end Text

namespace Path

variable {place target : List String} {name path : String}

/-- Where a name leads from a place. -/
def onward (place : List String) (name : String) : List String :=
  if name = ".." then place.dropLast else place ++ [name]

/-- Where names lead from a place by their spelling alone. -/
def resolve (place : List String) (names : List String) : List String :=
  names.foldl onward place

def Below (place target : List String) : Prop :=
  place <+: target ∧ target ≠ place

instance : Decidable (Below place target) :=
  inferInstanceAs (Decidable (_ ∧ _))

/-- How many levels a list of names leads up, and by which names it then leads down. -/
structure Course where
  climbs : Nat
  descent : List String
  deriving DecidableEq

namespace Course

variable {course : Course}

/-- A course continued by a name. -/
def onward (course : Course) (name : String) : Course :=
  if name = ".." then
    if course.descent = [] then { course with climbs := course.climbs + 1 }
    else { course with descent := course.descent.dropLast }
  else { course with descent := course.descent ++ [name] }

def reach (course : Course) (place : List String) : List String :=
  place.take (place.length - course.climbs) ++ course.descent

theorem reach_onward (course : Course) (place : List String) (name : String) :
    (course.onward name).reach place = Path.onward (course.reach place) name := by
  rw [onward, Path.onward]
  split
  · split
    · rename_i bottom
      simp only [reach, bottom, List.append_nil]
      rw [List.dropLast_eq_take, List.take_take, List.length_take]
      congr 1
      omega
    · rename_i below
      simp only [reach]
      rw [List.dropLast_append_of_ne_nil below]
  · simp only [reach]
    rw [List.append_assoc]

theorem below_reach_iff :
    Below place (course.reach place) ↔
      Below (place.drop (place.length - course.climbs)) course.descent := by
  have parts := List.take_append_drop (place.length - course.climbs) place
  rw [Below, Below, reach]
  generalize place.take (place.length - course.climbs) = kept at parts ⊢
  generalize place.drop (place.length - course.climbs) = left at parts ⊢
  subst parts
  rw [List.prefix_append_right_inj, ne_eq, ne_eq, List.append_cancel_left_eq]

theorem below_reach_of_climbs (inside : course.climbs = 0) (filled : course.descent ≠ []) :
    Below place (course.reach place) := by
  rw [below_reach_iff, inside, Nat.sub_zero, List.drop_length]
  exact ⟨List.nil_prefix, filled⟩

end Course

/-- The course of a list of names. -/
def course (names : List String) : Course :=
  names.foldl Course.onward ⟨0, []⟩

theorem resolve_eq_reach (place names : List String) :
    resolve place names = (course names).reach place := by
  have along : ∀ start : Course,
      names.foldl onward (start.reach place) = (names.foldl Course.onward start).reach place := by
    induction names with
    | nil => exact fun start => rfl
    | cons name rest ih =>
        intro start
        rw [List.foldl_cons, List.foldl_cons, ← Course.reach_onward]
        exact ih _
  have start : Course.reach ⟨0, []⟩ place = place := by
    simp [Course.reach]
  rw [resolve, course, ← along, start]

theorem course_concat (plain : name ≠ "..") (names : List String) :
    course (names ++ [name]) =
      ⟨(course names).climbs, (course names).descent ++ [name]⟩ := by
  rw [course, List.foldl_concat, Course.onward, if_neg plain]
  rfl

theorem course_of_not_mem {names : List String} (straight : ".." ∉ names) :
    course names = ⟨0, names⟩ := by
  induction names using List.reverseRecOn with
  | nil => rfl
  | append_singleton names name ih =>
      rw [List.mem_append, not_or, List.mem_singleton] at straight
      rw [course_concat (Ne.symm straight.2), ih straight.1]

theorem extended_ne {short : String} (isShort : short.length < 5) (text : String) :
    text ++ ".yaml" ≠ short := by
  rintro rfl
  rw [String.length_append] at isShort
  have ending : ".yaml".length = 5 := rfl
  omega

/-- The last name of a path with an ending is a name with that ending. -/
theorem names_extended (text : String) :
    ∃ front last, names (text ++ ".yaml") = front ++ [last ++ ".yaml"] := by
  have slashless : '/' ∉ ".yaml".toList := by
    decide
  obtain ⟨pieces, last, cut⟩ := Text.splitOn_append_of_not_mem slashless text.toList
  refine ⟨(pieces.map String.ofList).filter fun name => !name.isEmpty && name ≠ ".",
    String.ofList last, ?_⟩
  rw [names, Text.split, String.toList_append, cut, List.map_append, List.filter_append]
  have same : String.ofList (last ++ ".yaml".toList) = String.ofList last ++ ".yaml" := by
    rw [String.ofList_append, String.ofList_toList]
  rw [List.map_singleton, same, List.filter_cons_of_pos, List.filter_nil]
  have moving : String.ofList last ++ ".yaml" ≠ "." := extended_ne (by decide) _
  simpa using moving

theorem descent_extended (text : String) :
    ∃ front last, (course (names (text ++ ".yaml"))).descent = front ++ [last ++ ".yaml"] := by
  obtain ⟨front, last, same⟩ := names_extended text
  rw [same, course_concat (extended_ne (by decide) last)]
  exact ⟨_, last, rfl⟩

end Path

namespace FileTree

variable {tree other : FileTree} {place start : List String} {path : String} {item : FileEntry}

/-- The place that a path names by its spelling alone. -/
def destination (tree : FileTree) (path : String) : List String :=
  Path.resolve (tree.origin path) (Path.names path)

theorem walk_cons_eq_ok_iff {name : String} {rest : List String} :
    tree.walk start (name :: rest) = .ok place ↔
      tree.at? start = some .directory ∧ tree.walk (Path.onward start name) rest = .ok place := by
  rw [walk, Path.onward]
  rcases tree.at? start with _ | _ | _
  · simp
  · by_cases up : name = ".." <;> simp [up]
  · simp

/-- Names that can be followed lead where their spelling says. -/
theorem eq_resolve_of_walk {names : List String} (walked : tree.walk start names = .ok place) :
    place = Path.resolve start names := by
  induction names generalizing start with
  | nil => simpa [walk, Path.resolve] using walked.symm
  | cons name rest ih => exact ih (walk_cons_eq_ok_iff.mp walked).2

theorem at?_destination_of_find (found : tree.find path = .ok item) :
    tree.at? (tree.destination path) = some item := by
  obtain ⟨_, place, walked, here, _⟩ := find_eq_ok_iff.mp found
  rwa [destination, ← eq_resolve_of_walk walked]

/-- Trees with the same directories and, at some places, with the same files. -/
structure Agree (places : List String → Prop) (tree other : FileTree) : Prop where
  working : other.working = tree.working
  directories : ∀ place, other.at? place = some .directory ↔ tree.at? place = some .directory
  files : ∀ place, places place → other.at? place = tree.at? place

namespace Agree

variable {places : List String → Prop}

theorem origin (agree : Agree places tree other) (path : String) :
    other.origin path = tree.origin path := by
  rw [FileTree.origin, FileTree.origin, agree.working]

theorem symm (agree : Agree places tree other) : Agree places other tree :=
  ⟨agree.working.symm, fun place => (agree.directories place).symm,
    fun place concerned => (agree.files place concerned).symm⟩

/-- Names are followed through directories only. -/
theorem walk_of_walk (agree : Agree places tree other) {names : List String}
    (walked : tree.walk start names = .ok place) : other.walk start names = .ok place := by
  induction names generalizing start with
  | nil => exact walked
  | cons name rest ih =>
      obtain ⟨here, onward⟩ := walk_cons_eq_ok_iff.mp walked
      exact walk_cons_eq_ok_iff.mpr ⟨(agree.directories start).mpr here, ih onward⟩

theorem find_of_find (agree : Agree places tree other) (concerned : places (tree.destination path))
    (found : tree.find path = .ok item) : other.find path = .ok item := by
  obtain ⟨filled, place, walked, here, ends⟩ := find_eq_ok_iff.mp found
  refine find_eq_ok_iff.mpr ⟨filled, place, ?_, ?_, ends⟩
  · rw [agree.origin]
    exact agree.walk_of_walk walked
  · rw [destination, ← eq_resolve_of_walk walked] at concerned
    rw [agree.files place concerned, here]

theorem find_iff (agree : Agree places tree other) (concerned : places (tree.destination path)) :
    other.find path = .ok item ↔ tree.find path = .ok item := by
  refine ⟨agree.symm.find_of_find ?_, agree.find_of_find concerned⟩
  rwa [destination, agree.origin]

end Agree

/-- A file that is written anywhere else makes no difference. -/
theorem agree_of_write {places : List String → Prop} {content : Option String}
    (written : tree.write path content = .ok other) (aside : ¬places (tree.destination path)) :
    Agree places tree other := by
  obtain ⟨_, _, place, walked, replaced, rfl⟩ := write_eq_ok_iff.mp written
  rw [destination, ← eq_resolve_of_walk walked] at aside
  refine ⟨rfl, fun target => ?_, fun target concerned => ?_⟩
  · by_cases here : target = place
    · subst here
      rw [at?_put_self replaced]
      exact iff_of_false nofun replaced
    · rw [at?_put_of_ne here]
  · apply at?_put_of_ne
    rintro rfl
    exact aside concerned

end FileTree

namespace Settings

open Lineage.Path (Below Course)

variable {environment : Environment} {tree other : FileTree} {context : String}

def contextsDirectory (environment : Environment) : String :=
  Path.join (directory environment) "contexts"

/-- The course from the directory for contexts to the file for one of them. -/
def courseOf (context : String) : Course :=
  Path.course (Path.names (context ++ ".yaml"))

/-- The name of a context never leads out of the directory for contexts. -/
def Stays (context : String) : Prop :=
  Path.isAbsolute context = false ∧ (courseOf context).climbs = 0

/-- A place is that of the file for all contexts or below the directory for contexts. -/
def Consulted (environment : Environment) (tree : FileTree) (place : List String) : Prop :=
  place = tree.destination (rootFile environment) ∨
    Below (tree.destination (contextsDirectory environment)) place

theorem destination_join {base name : String} (relative : Path.isAbsolute name = false) :
    tree.destination (Path.join base name) =
      Path.resolve (tree.destination base) (Path.names name) := by
  rw [FileTree.destination, FileTree.destination, FileTree.origin, Path.isAbsolute_join relative,
    Path.names_join relative, Path.resolve, List.foldl_append]
  rfl

theorem destination_contextsDirectory (tree : FileTree) (environment : Environment) :
    tree.destination (contextsDirectory environment) =
      tree.destination (directory environment) ++ ["contexts"] := by
  rw [contextsDirectory, destination_join (by decide)]
  rfl

theorem destination_rootFile (tree : FileTree) (environment : Environment) :
    tree.destination (rootFile environment) =
      tree.destination (directory environment) ++ ["config.yaml"] := by
  rw [rootFile, destination_join (by decide)]
  rfl

theorem destination_contextFile (relative : Path.isAbsolute context = false) :
    tree.destination (contextFile environment context) =
      (courseOf context).reach (tree.destination (contextsDirectory environment)) := by
  rw [contextFile, destination_join (by rwa [isAbsolute_append]), Path.resolve_eq_reach]
  rfl

theorem destination_contextFile_of_absolute (absolute : Path.isAbsolute context = true) :
    tree.destination (contextFile environment context) =
      Path.resolve [] (Path.names (context ++ ".yaml")) := by
  have replaced : Path.isAbsolute (context ++ ".yaml") = true := by
    rwa [isAbsolute_append]
  rw [contextFile, Path.join, replaced, Bool.true_or, if_pos rfl, FileTree.destination,
    FileTree.origin, if_pos replaced]

/-- One name leads to the file for all contexts, wherever the settings are kept. -/
theorem destination_contextFile_config (tree : FileTree) (environment : Environment) :
    tree.destination (contextFile environment "../config") =
      tree.destination (rootFile environment) := by
  have climbing : courseOf "../config" = ⟨1, ["config.yaml"]⟩ := by
    decide
  rw [destination_contextFile (by decide), climbing, destination_contextsDirectory,
    destination_rootFile, Course.reach, List.length_append]
  simp

theorem destination_rootFile_not_below :
    ¬Below (tree.destination (contextsDirectory environment))
      (tree.destination (rootFile environment)) := by
  rw [destination_contextsDirectory, destination_rootFile, Below, List.prefix_append_right_inj]
  rintro ⟨⟨rest, same⟩, _⟩
  exact absurd (List.cons.inj same).1 (by decide)

theorem stays_of_not_mem (relative : Path.isAbsolute context = false)
    (straight : ".." ∉ Path.names (context ++ ".yaml")) : Stays context := by
  rw [Stays, courseOf, Path.course_of_not_mem straight]
  exact ⟨relative, rfl⟩

theorem Stays.below (stays : Stays context) :
    Below (tree.destination (contextsDirectory environment))
      (tree.destination (contextFile environment context)) := by
  rw [destination_contextFile stays.1]
  apply Course.below_reach_of_climbs stays.2
  obtain ⟨front, last, same⟩ := Path.descent_extended context
  rw [courseOf, same]
  exact List.append_ne_nil_of_right_ne_nil front (by simp)

section Congr

variable {context? : Option String} {path : String}

/-- Paths lead to the same things in both trees. -/
def Alike (tree other : FileTree) (path : String) : Prop :=
  ∀ item, other.find path = .ok item ↔ tree.find path = .ok item

theorem Alike.eq_or_error (alike : Alike tree other path) :
    other.find path = tree.find path ∨
      ∃ after before, other.find path = .error after ∧ tree.find path = .error before := by
  cases before : tree.find path with
  | ok item => exact .inl ((alike item).mpr before)
  | error fault =>
      cases after : other.find path with
      | error other => exact .inr ⟨other, fault, rfl, rfl⟩
      | ok item => exact absurd (before.symm.trans ((alike item).mp after)) nofun

theorem Alike.exists? (alike : Alike tree other path) : other.exists? path = tree.exists? path := by
  rw [FileTree.exists?, FileTree.exists?]
  rcases alike.eq_or_error with same | ⟨after, before, missing, absent⟩
  · rw [same]
  · rw [missing, absent]
    rfl

theorem Alike.loadFile (alike : Alike tree other path) :
    loadFile other path = loadFile tree path := by
  rw [Settings.loadFile, Settings.loadFile, alike.exists?, readFile, readFile, FileTree.read,
    FileTree.read]
  rcases alike.eq_or_error with same | ⟨after, before, missing, absent⟩
  · rw [same]
  · rw [FileTree.exists?, absent]
    rfl

theorem load_congr (root : Alike tree other (rootFile environment))
    (upper : Alike tree other (contextFile environment context)) :
    load environment other (some context) = load environment tree (some context) := by
  rw [load, load, Option.map_some, loadLayers, loadLayers, loadLayer_congr root]
  dsimp only
  rw [loadLayer_congr upper]

theorem validate_congr (root : Alike tree other (rootFile environment))
    (upper : Alike tree other (contextFile environment context)) :
    validate environment other (some context) = validate environment tree (some context) := by
  rw [validate, validate, checkFiles, checkFiles, root.exists?, root.loadFile,
    load_congr root upper]
  dsimp only
  rw [upper.exists?, upper.loadFile]

end Congr

/-- Where the file for a context is, and what is read for it.

A name that does not begin with a slash leads from the directory for contexts by
its course, and so below that directory exactly if what it leads down begins with
what it climbed and goes on; a name that begins with a slash leads from the root,
whatever that directory is.  Whatever is found for the context is at this place.

A name that never leads out of the directory for contexts leads to a place below
it.  Where the file is below that directory it is not the file for all contexts, and
what is loaded and what is validated depend on nothing but the files in this
directory and the file for all contexts. -/
theorem contextFile_confined {environment : Environment} {tree : FileTree} {context : String} :
    (Path.isAbsolute context = false →
      tree.destination (contextFile environment context) =
          (courseOf context).reach (tree.destination (contextsDirectory environment)) ∧
        (Below (tree.destination (contextsDirectory environment))
            (tree.destination (contextFile environment context)) ↔
          Below ((tree.destination (contextsDirectory environment)).drop
              ((tree.destination (contextsDirectory environment)).length -
                (courseOf context).climbs))
            (courseOf context).descent)) ∧
    (Path.isAbsolute context = true →
      tree.destination (contextFile environment context) =
        Path.resolve [] (Path.names (context ++ ".yaml"))) ∧
    (∀ item, tree.find (contextFile environment context) = .ok item →
      tree.at? (tree.destination (contextFile environment context)) = some item) ∧
    (Stays context → Below (tree.destination (contextsDirectory environment))
      (tree.destination (contextFile environment context))) ∧
    (Below (tree.destination (contextsDirectory environment))
        (tree.destination (contextFile environment context)) →
      tree.destination (contextFile environment context) ≠
          tree.destination (rootFile environment) ∧
        ∀ other, FileTree.Agree (Consulted environment tree) tree other →
          load environment other (some context) = load environment tree (some context) ∧
            validate environment other (some context) =
              validate environment tree (some context)) := by
  refine ⟨fun relative => ⟨destination_contextFile relative, ?_⟩,
    destination_contextFile_of_absolute, fun item found => FileTree.at?_destination_of_find found,
    Stays.below, fun below => ⟨?_, fun other agree => ?_⟩⟩
  · rw [destination_contextFile relative]
    exact Course.below_reach_iff
  · intro same
    rw [same] at below
    exact destination_rootFile_not_below below
  · have root : Alike tree other (rootFile environment) := fun item => agree.find_iff (.inl rfl)
    have upper : Alike tree other (contextFile environment context) :=
      fun item => agree.find_iff (.inr below)
    exact ⟨load_congr root upper, validate_congr root upper⟩

section Runs

/-- A context has a file in a directory of its own, and another file lies beside the
directory of the settings. -/
def strayTree : FileTree :=
  { entries :=
      [(["work", "cfg"], .directory), (["work", "cfg", "contexts"], .directory),
        (["work", "cfg", "contexts", "team"], .directory),
        (["work", "cfg", "contexts", "team", "dev.yaml"], .file (some "watchNamespace: team\n")),
        (["work", "stray.yaml"], .file (some "watchNamespace: stray\n"))]
    working := ["work"] }

/-- The name of a context can have a slash, and what lies elsewhere is not read. -/
theorem contextFile_confined_team :
    Stays "team/dev" ∧
      load nearby (strayTree.put ["work", "stray.yaml"] (.file none)) (some "team/dev") =
        .ok { default with watchNamespace := "team" } := by
  have stays : Stays "team/dev" := stays_of_not_mem (by decide) (by decide)
  have loaded : load nearby strayTree (some "team/dev") =
      .ok { default with watchNamespace := "team" } := by
    decide +kernel
  refine ⟨stays, ?_⟩
  obtain ⟨_, _, _, inside, frame⟩ := @contextFile_confined nearby strayTree "team/dev"
  have written : strayTree.write "stray.yaml" none =
      .ok (strayTree.put ["work", "stray.yaml"] (.file none)) := by
    decide +kernel
  have aside : ¬Consulted nearby strayTree (strayTree.destination "stray.yaml") := by
    unfold Consulted
    decide +kernel
  have agree := FileTree.agree_of_write written aside
  exact ((frame (inside stays)).2 _ agree).1.trans loaded

/-- The name of a context can lead to the file for all contexts and to files beside
the directory of the settings, and it can name any place from the root. -/
theorem contextFile_escapes :
    strayTree.destination (contextFile nearby "../config") =
        strayTree.destination (rootFile nearby) ∧
      (¬Below (strayTree.destination (contextsDirectory nearby))
          (strayTree.destination (contextFile nearby "../../stray")) ∧
        load nearby strayTree (some "../../stray") =
          .ok { default with watchNamespace := "stray" }) ∧
      ¬Below (strayTree.destination (contextsDirectory nearby))
          (strayTree.destination (contextFile nearby "/work/stray")) ∧
        load nearby strayTree (some "/work/stray") =
          .ok { default with watchNamespace := "stray" } := by
  decide +kernel

end Runs

end Settings

end Lineage
