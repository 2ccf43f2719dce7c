import AngularAtlas.Proofs.FileTree.Reading
import AngularAtlas.Proofs.Text.Search
import AngularAtlas.Proofs.Workspace.Listing
import AngularAtlas.Workspace.Scan

namespace AngularAtlas

open FileKind (isRouting isTypeScript)

/-- A text from which routes can be read declares a table. -/
theorem Source.declaresRoutes_of_parseRoutes {s : List Char} (h : parseRoutes s ≠ []) :
    declaresRoutes s = true := by
  by_contra silent
  have nowhere : Text.findFirst? tableStart? (Text.removeComments s) = none := by
    simpa [declaresRoutes] using silent
  have noTables : routeTables (Text.removeComments s) = [] :=
    Text.findAll_eq_nil_of_findFirst? nowhere
  rw [parseRoutes, noTables] at h
  exact h rfl

namespace Workspace

/-- A file below the root that no excluded name leads to, not even that of the root. Its own name
does not matter. -/
def HasFile (w : Workspace) (place : Location) : Prop :=
  (∀ name ∈ w.root.getLast?, name ∉ w.excludes) ∧ ∃ names ≠ [], place = w.root ++ names ∧
    (∀ name ∈ names.dropLast, name ∉ w.excludes) ∧
      ∃ content, w.tree.root.at? place = some (.file content)

/-- The file can be read, and its text declares a route table. -/
def Declares (w : Workspace) (path : String) : Prop :=
  ∃ text, w.tree.readSource path = .ok text ∧ Source.declaresRoutes text.toList = true

/-- What the files with route tables are. -/
structure ListsRouting (w : Workspace) : Prop where
  mem_iff : ∀ path, path ∈ w.routingFiles ↔ ∃ place, w.HasFile place ∧ path = place.path ∧
    (isRouting path = true ∨ isTypeScript path = true ∧ w.Declares path)
  nodup : w.routingFiles.Nodup
  /-- Those that are named for it come first. -/
  order : ∃ named declaring : List Location,
    w.routingFiles = named.map Location.path ++ declaring.map Location.path ∧
      named.Pairwise Location.Before ∧ declaring.Pairwise Location.Before ∧
      (∀ place ∈ named, isRouting place.path = true) ∧
      ∀ place ∈ declaring, isRouting place.path = false
  /-- No file with routes is missed. -/
  routed : ∀ place text, w.HasFile place → isTypeScript place.path = true →
    w.tree.readSource place.path = .ok text → Source.parseRoutes text.toList ≠ [] →
      place.path ∈ w.routingFiles

variable {w : Workspace} {place : Location} {entries : List (String × Entry)}

/-- The places of the files of a kind. -/
def filePlaces (w : Workspace) (kind : String → Bool) : List Location :=
  (w.visits.filter fun v => !v.isDirectory && kind v.location.path).map (·.location)

theorem files_eq_map_filePlaces (w : Workspace) (kind : String → Bool) :
    w.files kind = (w.filePlaces kind).map Location.path := by
  rw [files, filePlaces, List.filter_map, List.filter_filter, List.map_map]
  simp only [Bool.and_comm, Function.comp_def]

theorem mem_filePlaces {kind : String → Bool} :
    place ∈ w.filePlaces kind ↔ ⟨place, false⟩ ∈ w.visits ∧ kind place.path = true := by
  simp only [filePlaces, List.mem_map, List.mem_filter, Bool.and_eq_true, Bool.not_eq_true']
  constructor
  · rintro ⟨⟨_, _⟩, ⟨met, rfl, isKind⟩, rfl⟩
    exact ⟨met, isKind⟩
  · rintro ⟨met, isKind⟩
    exact ⟨_, ⟨met, rfl, isKind⟩, rfl⟩

theorem pairwise_filePlaces (proper : w.tree.root.Proper) (kind : String → Bool) :
    (w.filePlaces kind).Pairwise Location.Before :=
  List.pairwise_map.2 ((ordered_visits proper).filter _)

theorem mem_visits_iff_hasFile (proper : w.tree.root.Proper)
    (found : w.tree.root.at? w.root = some (.directory entries)) :
    ⟨place, false⟩ ∈ w.visits ↔ w.HasFile place := by
  by_cases allowed : ∀ name ∈ w.root.getLast?, name ∉ w.excludes
  · rw [mem_visits_iff proper found allowed, HasFile, stands_false]
    simp only [Passable, isExcluded, List.contains_eq_mem, decide_eq_false_iff_not, if_false,
      Bool.false_eq_true]
    exact (and_iff_right allowed).symm
  · rw [visits_of_excluded (by simpa using allowed)]
    exact iff_of_false List.not_mem_nil fun h => allowed h.1

theorem nodup_files (proper : w.tree.root.Proper)
    (found : w.tree.root.at? w.root = some (.directory entries)) (kind : String → Bool) :
    (w.files kind).Nodup := by
  by_cases allowed : ∀ name ∈ w.root.getLast?, name ∉ w.excludes
  · exact (lists proper found allowed).nodup_files kind
  · rw [files, visits_of_excluded (by simpa using allowed)]
    exact List.nodup_nil

/-- The files that are listed second are those of a kind, too. -/
theorem exists_routingFiles_eq (w : Workspace) : ∃ kind : String → Bool,
    w.routingFiles = w.files isRouting ++ w.files kind ∧
      ∀ path, kind path = true ↔
        isRouting path = false ∧ isTypeScript path = true ∧ w.Declares path := by
  refine ⟨_, congrArg (w.files isRouting ++ ·) (List.filter_filter ..), fun path => ?_⟩
  simp only [Bool.and_eq_true, Bool.not_eq_true', Declares]
  cases w.tree.readSource path with
  | error e => simp
  | ok text =>
    simp only [Except.ok.injEq, exists_eq_left']
    constructor
    · rintro ⟨declares, typeScript, other⟩
      exact ⟨other, typeScript, declares⟩
    · rintro ⟨other, typeScript, declares⟩
      exact ⟨declares, typeScript, other⟩

theorem mem_routingFiles_iff (proper : w.tree.root.Proper)
    (found : w.tree.root.at? w.root = some (.directory entries)) {path : String} :
    path ∈ w.routingFiles ↔ ∃ place, w.HasFile place ∧ path = place.path ∧
      (isRouting path = true ∨ isTypeScript path = true ∧ w.Declares path) := by
  obtain ⟨kind, parts, isKind⟩ := w.exists_routingFiles_eq
  rw [parts, List.mem_append, mem_files, mem_files, isKind]
  simp only [mem_visits_iff_hasFile proper found]
  constructor
  · rintro (⟨named, place, file, rfl⟩ | ⟨⟨-, declaring⟩, place, file, rfl⟩)
    · exact ⟨place, file, rfl, .inl named⟩
    · exact ⟨place, file, rfl, .inr declaring⟩
  · rintro ⟨place, file, rfl, declaring⟩
    cases named : isRouting place.path with
    | true => exact .inl ⟨rfl, place, file, rfl⟩
    | false =>
      rw [named] at declaring
      exact .inr ⟨⟨rfl, declaring.resolve_left Bool.false_ne_true⟩, place, file, rfl⟩

theorem nodup_routingFiles (proper : w.tree.root.Proper)
    (found : w.tree.root.at? w.root = some (.directory entries)) : w.routingFiles.Nodup := by
  obtain ⟨kind, parts, isKind⟩ := w.exists_routingFiles_eq
  rw [parts, List.nodup_append]
  refine ⟨nodup_files proper found _, nodup_files proper found _, ?_⟩
  -- the names of the files in the second part are none for routes
  rintro path named _ declaring rfl
  have named := (mem_files.1 named).1
  have other := ((isKind path).1 (mem_files.1 declaring).1).1
  rw [named] at other
  cases other

theorem listsRouting (proper : w.tree.root.Proper)
    (found : w.tree.root.at? w.root = some (.directory entries)) : w.ListsRouting where
  mem_iff _ := mem_routingFiles_iff proper found
  nodup := nodup_routingFiles proper found
  order := by
    obtain ⟨kind, parts, isKind⟩ := w.exists_routingFiles_eq
    refine ⟨w.filePlaces isRouting, w.filePlaces kind, ?_, pairwise_filePlaces proper _,
      pairwise_filePlaces proper _, fun place mem => (mem_filePlaces.1 mem).2,
      fun place mem => ((isKind _).1 (mem_filePlaces.1 mem).2).1⟩
    rw [parts, files_eq_map_filePlaces, files_eq_map_filePlaces]
  routed place text file typeScript read routes := by
    have declared := Source.declaresRoutes_of_parseRoutes routes
    exact (mem_routingFiles_iff proper found).2
      ⟨place, file, rfl, .inr ⟨typeScript, text, read, declared⟩⟩

/-- In a proper file system every directory can be a root, and whatever is excluded, the files with
route tables below it are listed. -/
theorem listsRouting_of_canonical {tree : FileTree} {path : String} {root : Location}
    (proper : tree.root.Proper)
    (found : tree.canonical path = .ok (.found root (.directory entries)))
    (excludes : List String) :
    open? tree path excludes = .ok ⟨tree, root, excludes⟩ ∧
      (⟨tree, root, excludes⟩ : Workspace).ListsRouting := by
  refine ⟨?_, listsRouting (w := ⟨tree, root, excludes⟩) proper (FileTree.at?_of_canonical found)⟩
  rw [open?, found]

def tableText : String := "const routes: Routes = [{ component: Nav }];"

/-- A directory `app` with a file that declares routes, one that is named for them, and one in an
excluded directory. -/
def routedTree : FileTree :=
  ({} : FileTree).put ["app", "dist", "old.routes.ts"] (.file tableText.toUTF8)
    |>.put ["app", "nav.routes.ts"] (.file .empty)
    |>.put ["app", "main.ts"] (.file tableText.toUTF8)

theorem proper_routedTree : routedTree.root.Proper :=
  Entry.proper_empty.put (by decide) (.file _)
    |>.put (by decide) (.file _)
    |>.put (by decide) (.file _)

theorem readSource_routedTree : routedTree.readSource "/app/main.ts" = .ok tableText := by
  have : routedTree.Holds "/app/main.ts" ["app", "main.ts"] tableText.toUTF8 :=
    ⟨by decide +kernel, by decide +kernel, by decide, by decide +kernel, rfl⟩
  exact this.readSource_eq

theorem listsRouting_routedTree : ∃ w, open? routedTree "/app" ["dist"] = .ok w ∧
    w.ListsRouting ∧ w.routingFiles = ["/app/nav.routes.ts", "/app/main.ts"] ∧
      Source.parseRoutes tableText.toList ≠ [] := by
  obtain ⟨entries, app⟩ : ∃ entries, routedTree.root.child? "app" = some (.directory entries) :=
    ⟨_, rfl⟩
  have here : routedTree.root.lookup "app" = .ok (some (.directory entries)) := by
    rw [Entry.lookup, if_neg (by decide), app]
  have found : routedTree.canonical "/app" = .ok (.found ["app"] (.directory entries)) :=
    FileTree.canonical_of_directory rfl rfl here
  obtain ⟨opened, routing⟩ := listsRouting_of_canonical proper_routedTree found ["dist"]
  refine ⟨_, opened, routing, ?_, by decide +kernel⟩
  have named : (⟨routedTree, ["app"], ["dist"]⟩ : Workspace).files isRouting =
      ["/app/nav.routes.ts"] := by decide +kernel
  have others : ((⟨routedTree, ["app"], ["dist"]⟩ : Workspace).files fun path =>
      isTypeScript path && !isRouting path) = ["/app/main.ts"] := by decide +kernel
  have declares : Source.declaresRoutes tableText.toList = true := by decide +kernel
  rw [routingFiles, named, others]
  simp [readSource_routedTree, declares]

end Workspace

end AngularAtlas
