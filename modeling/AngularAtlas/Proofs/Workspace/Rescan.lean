import AngularAtlas.Proofs.FileTree.Growth
import AngularAtlas.Proofs.Workspace.Listing
import AngularAtlas.Workspace.Scan

namespace AngularAtlas

open FileTree (Grows)

variable {t t' : FileTree} {root place : Location} {written : Set Location} {content : ByteArray}
  {e : Entry} {w : Workspace}

/-- The names of a place are steps down from the root: none is a step of another kind. -/
structure IsPlain (place : Location) : Prop where
  isNames : ∀ name ∈ place, IsName name
  no_here : "." ∉ place
  no_up : ".." ∉ place

/-- Paths can lead to all that is in a file system. -/
structure FileTree.IsOrdinary (t : FileTree) : Prop where
  directory : t.root.isDirectory = true
  proper : t.root.Proper
  plain : ∀ place e, t.root.at? place = some e → IsPlain place

theorem IsPlain.stepOf? (plain : IsPlain place) {name : String} (mem : name ∈ place) :
    Path.stepOf? name.toList = some (.name name) := by
  have isHere : name.toList ≠ ['.'] := by
    intro same
    obtain rfl : name = "." := String.toList_inj.1 same
    exact plain.no_here mem
  have isUp : name.toList ≠ ['.', '.'] := by
    intro same
    obtain rfl : name = ".." := String.toList_inj.1 same
    exact plain.no_up mem
  have isEmpty : name.toList ≠ [] := by simpa using (plain.isNames name mem).ne_empty
  rw [Path.stepOf?, if_neg isEmpty, if_neg isHere, if_neg isUp, String.ofList_toList]

theorem Location.steps_path (plain : IsPlain place) :
    Path.steps place.path = .root :: place.map .name := by
  have absolute : Path.isAbsolute place.path = true := by
    simp [Path.isAbsolute, Location.toList_path]
  rw [Path.steps, if_pos absolute, Location.toList_path, List.splitOn_cons_eq_if_modifyHead,
    if_pos (beq_self_eq_true _), List.filterMap_cons_none rfl]
  congr 1
  by_cases ne : place = []
  · rw [ne]
    rfl
  · rw [List.splitOn_intercalate, List.filterMap_map, ← List.filterMap_eq_map]
    · exact List.filterMap_congr fun name mem => plain.stepOf? mem
    · intro piece mem
      obtain ⟨name, hname, rfl⟩ := List.mem_map.1 mem
      exact (plain.isNames name hname).no_slash
    · simpa using ne

namespace FileTree

theorem isDirectory_of_child? {name : String} {child : Entry} (found : e.child? name = some child) :
    e.isDirectory = true := by
  obtain ⟨entries, rfl, -⟩ := Entry.exists_of_child? found
  rfl

theorem follow_names_congr {root root' : Entry} {links : Nat} {slash : Bool}
    {trail trail' : Trail} {names : List String} (same : trail'.location = trail.location)
    (here : (trail.entry root).at? names = some (.file content))
    (here' : (trail'.entry root').at? names = some (.file content)) :
    follow root' false links slash trail' (names.map .name) =
      follow root false links slash trail (names.map .name) := by
  induction names generalizing trail trail' with
  | nil =>
    obtain entry := Option.some.inj here
    obtain entry' := Option.some.inj here'
    simp only [List.map_nil, follow, same, entry, entry']
  | cons name names ih =>
    obtain ⟨child, found, below⟩ := Option.bind_eq_some_iff.1 here
    obtain ⟨child', found', below'⟩ := Option.bind_eq_some_iff.1 here'
    have inside := isDirectory_of_child? found
    have inside' := isDirectory_of_child? found'
    rw [List.map_cons, follow, follow, inside, inside']
    by_cases long : Entry.maxNameSize < name.utf8ByteSize
    · simp [Entry.lookup, long]
    rw [Entry.lookup, Entry.lookup, if_neg long, if_neg long, found, found', same]
    cases names with
    | nil =>
      obtain rfl := Option.some.inj below
      obtain rfl := Option.some.inj below'
      rfl
    | cons next rest =>
      obtain ⟨_, deeper, -⟩ := Option.bind_eq_some_iff.1 below
      obtain ⟨_, deeper', -⟩ := Option.bind_eq_some_iff.1 below'
      obtain ⟨entries, rfl, -⟩ := Entry.exists_of_child? deeper
      obtain ⟨entries', rfl, -⟩ := Entry.exists_of_child? deeper'
      have step := @ih ((name, .directory entries) :: trail) ((name, .directory entries') :: trail')
        (by simp [Trail.location_cons, same]) below below'
      simpa using step

/-- A file that was not written is read as before. -/
theorem Grows.readSource_path (grows : Grows written t t') (plain : IsPlain place)
    (here : t.root.at? place = some (.file content)) (unwritten : place ∉ written) :
    t'.readSource place.path = t.readSource place.path := by
  have here' := (grows.at?_eq_file_iff unwritten).2 here
  have steps : t'.boundedSteps place.path = t.boundedSteps place.path := by
    rw [boundedSteps, boundedSteps, stepsOf, stepsOf, grows.workingDirectory]
  have resolved : t'.resolve false place.path = t.resolve false place.path := by
    rw [resolve, resolve, steps]
    cases taken : t.boundedSteps place.path with
    | error => rfl
    | ok taken' =>
      have joined : Path.join t.workingDirectory place.path = place.path := by
        simp [Path.join, Path.isAbsolute, Location.toList_path]
      rw [(boundedSteps_eq_ok taken).1, joined, Location.steps_path plain]
      change follow _ _ _ _ _ _ = follow _ _ _ _ _ _
      rw [follow, follow]
      exact follow_names_congr rfl here here'
  rw [readSource, readSource, read, read, locate, locate, resolved]

end FileTree

namespace Workspace

theorem visits_of_no_directory (here : w.tree.root.at? w.root = some e)
    (other : ∀ entries, e ≠ .directory entries) : w.visits = [] := by
  rw [visits, here]
  cases e with
  | directory entries => exact absurd rfl (other entries)
  | file | link => exact ite_self _

/-- What is met stands there. -/
theorem stands_of_mem_visits {isDirectory : Bool} (proper : w.tree.root.Proper)
    (met : ⟨place, isDirectory⟩ ∈ w.visits) : Stands w.tree.root place isDirectory := by
  by_cases allowed : ∀ name ∈ w.root.getLast?, name ∉ w.excludes
  · cases here : w.tree.root.at? w.root with
    | none => simp [visits, here] at met
    | some e =>
      cases e with
      | directory entries =>
        obtain ⟨_, -, -, -, stands⟩ := (mem_visits_iff proper here allowed).1 met
        exact stands
      | file | link => simp [visits, here] at met
  · rw [visits_of_excluded (by simpa using allowed)] at met
    cases met

/-- Walks that meet the same places meet them in the same order. -/
theorem filter_visits_eq {w w' : Workspace} {kind : Visit → Bool} (proper : w.tree.root.Proper)
    (proper' : w'.tree.root.Proper)
    (same : ∀ v, kind v = true → (v ∈ w'.visits ↔ v ∈ w.visits)) :
    w'.visits.filter kind = w.visits.filter kind := by
  have ordered := (ordered_visits proper).filter kind
  have ordered' := (ordered_visits proper').filter kind
  have before_asymm {a b : Visit} (ab : a.location.Before b.location)
      (ba : b.location.Before a.location) : a = b := absurd ba (List.lt_asymm ab)
  refine List.Perm.eq_of_pairwise (fun a b _ _ ab ba => before_asymm ab ba) ordered' ordered ?_
  refine (List.perm_ext_iff_of_nodup (ordered'.imp fun ab => ?_) (ordered.imp fun ab => ?_)).2
    fun v => ?_
  · rintro rfl
    exact ab.ne rfl
  · rintro rfl
    exact ab.ne rfl
  · simp only [List.mem_filter]
    exact and_congr_left fun isKind => same v isKind

variable {excludes : List String} (proper : t.root.Proper) (here : t.root.at? root = some e)
  (grows : Grows written t t')

include proper here grows

/-- Where the same stands as before, a walk meets the same as before. -/
theorem mem_visits_after {isDirectory : Bool}
    (same : Stands t'.root place isDirectory ↔ Stands t.root place isDirectory) :
    ⟨place, isDirectory⟩ ∈ (⟨t', root, excludes⟩ : Workspace).visits ↔
      ⟨place, isDirectory⟩ ∈ (⟨t, root, excludes⟩ : Workspace).visits := by
  by_cases allowed : ∀ name ∈ root.getLast?, name ∉ excludes
  · cases e with
    | directory entries =>
      obtain ⟨entries', here'⟩ := grows.stays.exists_directory here
      rw [mem_visits_iff (w := ⟨t', root, excludes⟩) (grows.proper proper) here' allowed,
        mem_visits_iff (w := ⟨t, root, excludes⟩) proper here allowed]
      simp only [same]
      exact Iff.rfl
    | file content =>
      obtain ⟨content', here', -⟩ := grows.at?_file here
      rw [visits_of_no_directory (w := ⟨t', root, excludes⟩) here' (by rintro _ ⟨⟩),
        visits_of_no_directory (w := ⟨t, root, excludes⟩) here (by rintro _ ⟨⟩)]
    | link target =>
      have here' := grows.stays.at?_link here
      rw [visits_of_no_directory (w := ⟨t', root, excludes⟩) here' (by rintro _ ⟨⟩),
        visits_of_no_directory (w := ⟨t, root, excludes⟩) here (by rintro _ ⟨⟩)]
  · have excluded : ∃ name ∈ root.getLast?, name ∈ excludes := by simpa using allowed
    rw [visits_of_excluded (w := ⟨t', root, excludes⟩) excluded,
      visits_of_excluded (w := ⟨t, root, excludes⟩) excluded]

theorem mem_visits_file_after (unwritten : place ∉ written) :
    ⟨place, false⟩ ∈ (⟨t', root, excludes⟩ : Workspace).visits ↔
      ⟨place, false⟩ ∈ (⟨t, root, excludes⟩ : Workspace).visits := by
  refine mem_visits_after proper here grows ?_
  simp only [stands_false, grows.at?_eq_file_iff unwritten]

theorem mem_visits_directory_after
    (met : ⟨place, true⟩ ∈ (⟨t, root, excludes⟩ : Workspace).visits) :
    ⟨place, true⟩ ∈ (⟨t', root, excludes⟩ : Workspace).visits := by
  have stands : Stands t.root place true := stands_of_mem_visits proper met
  obtain ⟨entries, directory⟩ := stands_true.1 stands
  have stands' := stands_true.2 (grows.stays.exists_directory directory)
  exact (mem_visits_after proper here grows (iff_of_true stands' stands)).2 met

theorem files_after {kind : String → Bool}
    (otherKind : ∀ place ∈ written, kind place.path = false) :
    (⟨t', root, excludes⟩ : Workspace).files kind =
      (⟨t, root, excludes⟩ : Workspace).files kind := by
  have files_eq (w : Workspace) : w.files kind =
      (w.visits.filter fun v => !v.isDirectory && kind v.location.path).map
        (·.location.path) := by
    rw [files, List.filter_map, List.filter_filter]
    simp only [Bool.and_comm, Function.comp_def]
  rw [files_eq, files_eq]
  refine congrArg _ (filter_visits_eq proper (grows.proper proper) fun v isKind => ?_)
  obtain ⟨place, _ | _⟩ := v
  · refine mem_visits_file_after proper here grows fun isWritten => ?_
    rw [otherKind place isWritten] at isKind
    cases isKind
  · cases isKind

omit here in
/-- The files of a kind are read as before when no file of this kind was written. -/
theorem readSource_after {kind : String → Bool} {path : String}
    (plain : ∀ place e, t.root.at? place = some e → IsPlain place)
    (otherKind : ∀ place ∈ written, kind place.path = false)
    (mem : path ∈ (⟨t, root, excludes⟩ : Workspace).files kind) :
    t'.readSource path = t.readSource path := by
  obtain ⟨isKind, place, met, rfl⟩ := mem_files.1 mem
  obtain ⟨content, found⟩ := stands_false.1 (stands_of_mem_visits proper met)
  refine grows.readSource_path (plain place _ found) found fun isWritten => ?_
  rw [otherKind place isWritten] at isKind
  cases isKind

/-- No directory is lost, and where none is new in the end, none was new in between. -/
theorem directories_between {t'' : FileTree} {written' : Set Location}
    (later : Grows written' t' t'')
    (same : (⟨t'', root, excludes⟩ : Workspace).directories =
      (⟨t, root, excludes⟩ : Workspace).directories) :
    (⟨t', root, excludes⟩ : Workspace).directories =
      (⟨t, root, excludes⟩ : Workspace).directories := by
  have proper' := grows.proper proper
  obtain ⟨e', here'⟩ := grows.exists_at? here
  have visits : (⟨t', root, excludes⟩ : Workspace).visits.filter (·.isDirectory) =
      (⟨t, root, excludes⟩ : Workspace).visits.filter (·.isDirectory) := by
    refine filter_visits_eq proper proper' fun v isDirectory => ?_
    obtain ⟨place, _ | _⟩ := v
    · cases isDirectory
    refine ⟨fun met => ?_, mem_visits_directory_after proper here grows⟩
    have met' := mem_visits_directory_after proper' here' later met
    have listed := mem_directories.2 ⟨place, met', rfl⟩
    rw [same] at listed
    obtain ⟨other, met'', samePath⟩ := mem_directories.1 listed
    have isNames {w : Workspace} (proper : w.tree.root.Proper) {place : Location}
        (met : ⟨place, true⟩ ∈ w.visits) : ∀ name ∈ place, IsName name := by
      obtain ⟨_, found⟩ := stands_true.1 (stands_of_mem_visits proper met)
      exact (proper.of_at? found).1
    rwa [Location.eq_of_path_eq (isNames proper met'') (isNames proper' met) samePath] at met''
  rw [directories, directories, visits]

theorem importCensus_after
    (plain : ∀ place e, t.root.at? place = some e → IsPlain place)
    (otherKind : ∀ place ∈ written, FileKind.isTypeScript place.path = false) :
    (⟨t', root, excludes⟩ : Workspace).importCensus =
      (⟨t, root, excludes⟩ : Workspace).importCensus := by
  rw [importCensus, importCensus, files_after proper here grows otherKind]
  refine congrArg _ (List.filterMap_congr fun path mem => ?_)
  exact congrArg _ (readSource_after proper grows plain otherKind mem)

theorem scanPackages_after
    (plain : ∀ place e, t.root.at? place = some e → IsPlain place)
    (otherKind : ∀ place ∈ written, FileKind.isManifest place.path = false) :
    (⟨t', root, excludes⟩ : Workspace).scanPackages =
      (⟨t, root, excludes⟩ : Workspace).scanPackages := by
  rw [scanPackages, scanPackages, files_after proper here grows otherKind]
  refine List.foldl_ext _ _ _ fun s path mem => ?_
  have read : t'.readSource path = t.readSource path :=
    readSource_after proper grows plain otherKind mem
  simp only [addManifestFile, read]

end Workspace

end AngularAtlas
