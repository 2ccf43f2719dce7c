import AngularAtlas.Proofs.FileTree.Steps
import AngularAtlas.Proofs.Results
import Mathlib.Data.Set.Insert

/-!
File systems that grow: files are written, and directories made for them. Main statement: after a
file is written to a path, the path leads to it in every file system that has grown since, and the
file holds its text as long as nothing else is written to its place.
-/

namespace AngularAtlas

open Entry (Takes IsBare)

/-- What can stand later where something, or nothing, stands: a directory can be made, and a file
can be written where files may be written. -/
inductive Becomes (mayBeWritten : Prop) : Option Entry → Option Entry → Prop
  | same (e : Option Entry) : Becomes mayBeWritten e e
  | directory : Becomes mayBeWritten none (some (.directory []))
  | file {old : Option Entry} (content : ByteArray) : mayBeWritten →
      (∀ e ∈ old, ∃ content, e = .file content) → Becomes mayBeWritten old (some (.file content))

namespace Becomes

variable {p q : Prop} {first second third : Option Entry}

theorem imp (h : Becomes p first second) (weaker : p → q) : Becomes q first second := by
  cases h with
  | same => exact .same _
  | directory => exact .directory
  | file content written replaces => exact .file content (weaker written) replaces

theorem trans (h : Becomes p first second) (h' : Becomes p second third) :
    Becomes p first third := by
  cases h' with
  | same => exact h
  | directory =>
    cases h with
    | same => exact .directory
  | file content written replaces =>
    cases h with
    | same => exact .file content written replaces
    | directory =>
      obtain ⟨content, wrong⟩ := replaces _ rfl
      cases wrong
    | file content' _ replaced => exact .file content written replaced

end Becomes

namespace FileTree

/-- Files may have been written to some places, and directories made. All else is as it was. -/
structure Grows (written : Set Location) (t t' : FileTree) : Prop where
  workingDirectory : t'.workingDirectory = t.workingDirectory
  becomes : ∀ place, Becomes (place ∈ written) (t.root.seen? place) (t'.root.seen? place)
  proper : t.root.Proper → t'.root.Proper

variable {t t' t'' : FileTree} {written more : Set Location} {place base : Location}
  {name path text : String} {content : ByteArray} {entries : List (String × Entry)}
  {steps : List Segment} {target : Target} {creating : Bool}

namespace Grows

theorem refl (t : FileTree) : Grows written t t := ⟨rfl, fun _ => .same _, id⟩

theorem mono (h : Grows written t t') (sub : written ⊆ more) : Grows more t t' :=
  ⟨h.workingDirectory, fun place => (h.becomes place).imp (@sub place), h.proper⟩

theorem trans (h : Grows written t t') (h' : Grows written t' t'') : Grows written t t'' where
  workingDirectory := h'.workingDirectory.trans h.workingDirectory
  becomes place := (h.becomes place).trans (h'.becomes place)
  proper proper := h'.proper (h.proper proper)

theorem stays (h : Grows written t t') : Stays t.root t'.root := by
  intro place e seen noFile
  have becomes := h.becomes place
  rw [seen] at becomes
  generalize t'.root.seen? place = later at becomes ⊢
  cases becomes with
  | same => rfl
  | file _ _ replaces =>
    obtain ⟨content, wrong⟩ := replaces e rfl
    exact absurd wrong (noFile content)

theorem isDirectory_root (h : Grows written t t') (directory : t.root.isDirectory = true) :
    t'.root.isDirectory = true := by
  obtain ⟨entries, isRoot⟩ := exists_of_isDirectory directory
  have here : t.root.at? [] = some (.directory entries) := congrArg some isRoot
  obtain ⟨entries', here'⟩ := h.stays.exists_directory here
  obtain same : t'.root = .directory entries' := Option.some.inj here'
  rw [same]
  rfl

/-- Nothing is lost. -/
theorem exists_at? {e : Entry} (h : Grows written t t') (here : t.root.at? place = some e) :
    ∃ e', t'.root.at? place = some e' := by
  rw [← Option.ne_none_iff_exists', ne_eq, ← Entry.seen?_eq_none_iff]
  intro nothing
  have becomes := h.becomes place
  rw [nothing, Entry.seen?, here] at becomes
  cases becomes

/-- Where a file stands, one stands later: the same one unless another was written there. -/
theorem at?_file (h : Grows written t t') (here : t.root.at? place = some (.file content)) :
    ∃ content', t'.root.at? place = some (.file content') ∧
      (place ∉ written → content' = content) := by
  have becomes := h.becomes place
  rw [Entry.seen?_eq_file_iff.2 here] at becomes
  cases later : t'.root.seen? place with
  | none =>
    rw [later] at becomes
    cases becomes
  | some e =>
    rw [later] at becomes
    cases becomes with
    | same => exact ⟨content, Entry.seen?_eq_file_iff.1 later, fun _ => rfl⟩
    | file content' isWritten =>
      exact ⟨content', Entry.seen?_eq_file_iff.1 later, fun unwritten => absurd isWritten unwritten⟩

/-- Where nothing was written, no file is new and none is lost. -/
theorem at?_eq_file_iff (h : Grows written t t') (unwritten : place ∉ written) :
    t'.root.at? place = some (.file content) ↔ t.root.at? place = some (.file content) := by
  constructor
  · intro here
    have becomes := h.becomes place
    rw [Entry.seen?_eq_file_iff.2 here] at becomes
    rw [← Entry.seen?_eq_file_iff]
    generalize t.root.seen? place = earlier at becomes ⊢
    cases becomes with
    | same => rfl
    | file _ isWritten => exact absurd isWritten unwritten
  · intro here
    obtain ⟨content', later, same⟩ := h.at?_file here
    rw [later, same unwritten]

end Grows

theorem grows_put_file (takes : t.root.Takes place)
    (isNames : t.root.Proper → ∀ name ∈ place, IsName name) (content : ByteArray) :
    Grows {place} t (t.put place (.file content)) where
  workingDirectory := rfl
  becomes other := by
    have bare : (Entry.file content).IsBare := rfl
    have seen := Entry.seen?_put takes bare other
    change Becomes _ _ ((t.root.put place (.file content)).seen? other)
    rw [seen]
    split
    case isTrue same =>
      obtain rfl := same
      refine .file content rfl fun e here => ?_
      obtain ⟨old, here, shell⟩ := Option.map_eq_some_iff.1 (Option.mem_def.1 here)
      obtain ⟨content, rfl⟩ := takes.replaces old here
      exact ⟨content, shell.symm⟩
    case isFalse => exact .same _
  proper proper := proper.put (isNames proper) (.file content)

theorem grows_put_directory (above : t.root.at? base = some (.directory entries))
    (missing : entries.lookup name = none) (isName : IsName name) :
    Grows ∅ t (t.put (base ++ [name]) (.directory [])) where
  workingDirectory := rfl
  becomes other := by
    have bare : (Entry.directory []).IsBare := rfl
    have seen := Entry.seen?_put (Entry.takes_of_missing above missing) bare other
    change Becomes _ _ ((t.root.put (base ++ [name]) (.directory [])).seen? other)
    rw [seen]
    split
    case isTrue same =>
      have nothing : t.root.seen? other = none := by
        rw [Entry.seen?_eq_none_iff, same, Entry.at?_append, above]
        simp [Entry.at?, Entry.child?, missing]
      rw [nothing]
      exact .directory
    case isFalse => exact .same _
  proper proper := by
    refine proper.put (fun next mem => ?_) Entry.proper_empty
    rcases List.mem_append.1 mem with mem | mem
    · exact (proper.of_at? above).1 next mem
    · rwa [List.mem_singleton.1 mem]

theorem boundedSteps_eq_ok (h : t.boundedSteps path = .ok steps) :
    steps = Path.steps (Path.join t.workingDirectory path) ∧ ¬ maxPathSize < path.utf8ByteSize := by
  obtain ⟨taken, found, h⟩ := exists_of_bind_eq_ok h
  split at h
  case isTrue => cases h
  case isFalse short =>
    rw [stepsOf] at found
    split_ifs at found
    obtain rfl := Except.ok.inj found
    exact ⟨(Except.ok.inj h).symm, short⟩

theorem exists_of_resolve (h : t.resolve creating path = .ok target) :
    ∃ steps, t.boundedSteps path = .ok steps ∧ AreNames steps ∧
      follow t.root creating maxLinks (Path.endsInSlash path) [] steps = .ok target := by
  obtain ⟨steps, taken, followed⟩ := exists_of_bind_eq_ok h
  refine ⟨steps, taken, ?_, followed⟩
  rw [(boundedSteps_eq_ok taken).1]
  exact areNames_steps _

theorem locate_eq_ok_iff {e : Entry} :
    t.locate path = .ok (place, e) ↔ t.resolve false path = .ok (.found place e) := by
  rw [locate]
  cases t.resolve false path with
  | error => simp [bind, Except.bind]
  | ok target =>
    cases target <;>
      simp [bind, Except.bind, pure, Except.pure, throw, throwThe, MonadExceptOf.throw]

theorem at?_of_locate {e : Entry} (h : t.locate path = .ok (place, e)) :
    t.root.at? place = some e := by
  obtain ⟨_, -, -, followed⟩ := exists_of_resolve (locate_eq_ok_iff.1 h)
  have start : Trail.IsFrom t.root [] := trivial
  exact at?_of_follow start followed

/-- Where a path leads to a file, or to where one can be, it leads later to the file that stands
there then. -/
theorem locate_of_resolve (h : t.resolve creating path = .ok target)
    (stays : Stays t.root t'.root) (sameStart : t'.workingDirectory = t.workingDirectory)
    (there : t'.root.at? target.location = some (.file content)) :
    t'.locate path = .ok (target.location, .file content) := by
  obtain ⟨steps, taken, -, followed⟩ := exists_of_resolve h
  have taken' : t'.boundedSteps path = .ok steps := by
    rw [← taken, boundedSteps, boundedSteps, stepsOf, stepsOf, sameStart]
  rw [locate_eq_ok_iff, resolve, taken']
  exact follow_of_stays stays (.nil t.root t'.root) followed there

theorem Grows.exists_locate (h : Grows written t t')
    (led : t.locate path = .ok (place, .file content)) :
    ∃ content', t'.locate path = .ok (place, .file content') ∧
      (place ∉ written → content' = content) := by
  obtain ⟨content', there, same⟩ := h.at?_file (at?_of_locate led)
  exact ⟨content',
    locate_of_resolve (locate_eq_ok_iff.1 led) h.stays h.workingDirectory there, same⟩

/-- Where a path leads for writing, a file can be put, unless a directory stands there. -/
theorem exists_takes_of_resolve (directory : t.root.isDirectory = true)
    (h : t.resolve creating path = .ok target)
    (noDirectory : ∀ location entries, target ≠ .found location (.directory entries)) :
    t.root.Takes target.location ∧
      (t.root.Proper → ∀ name ∈ target.location, IsName name) := by
  obtain ⟨_, -, isNames, followed⟩ := exists_of_resolve h
  have start : Trail.IsFrom t.root [] := trivial
  cases target with
  | vacant location =>
    obtain ⟨base, name, entries, rfl, above, missing, isName⟩ :=
      exists_of_follow_vacant start isNames followed
    refine ⟨Entry.takes_of_missing above missing, fun proper next mem => ?_⟩
    rcases List.mem_append.1 mem with mem | mem
    · exact (proper.of_at? above).1 next mem
    · rwa [List.mem_singleton.1 mem]
  | found location e =>
    have here : t.root.at? location = some e := at?_of_follow start followed
    cases e with
    | directory entries => exact absurd rfl (noDirectory location entries)
    | link link =>
      exact absurd rfl (ne_link_of_follow directory (List.forall_mem_nil _) followed link)
    | file content => exact ⟨Entry.takes_of_file here, fun proper => (proper.of_at? here).1⟩

theorem put_of_writeBytes (h : t.writeBytes path content = .ok t') :
    ∃ target, t.resolve true path = .ok target ∧
      (∀ location entries, target ≠ .found location (.directory entries)) ∧
      t' = t.put target.location (.file content) := by
  obtain ⟨target, led, h⟩ := exists_of_bind_eq_ok h
  refine ⟨target, led, ?_⟩
  cases target with
  | vacant location => exact ⟨by rintro _ _ ⟨⟩, (Except.ok.inj h).symm⟩
  | found location e =>
    cases e with
    | directory => cases h
    | file | link => exact ⟨by rintro _ _ ⟨⟩, (Except.ok.inj h).symm⟩

/-- After a text is written to a path, a file with this text is where the path leads. -/
theorem exists_grows_of_write (directory : t.root.isDirectory = true)
    (h : t.write path text = .ok t') :
    ∃ place, Grows {place} t t' ∧ t'.locate path = .ok (place, .file text.toUTF8) := by
  obtain ⟨target, led, noDirectory, rfl⟩ := put_of_writeBytes h
  obtain ⟨takes, isNames⟩ := exists_takes_of_resolve directory led noDirectory
  have grows := grows_put_file takes isNames text.toUTF8
  refine ⟨target.location, grows, locate_of_resolve led grows.stays rfl ?_⟩
  have bare : (Entry.file text.toUTF8).IsBare := rfl
  rw [← Entry.seen?_eq_file_iff]
  exact (Entry.seen?_put takes bare _).trans (if_pos rfl)

theorem grows_of_createDirectory (h : t.createDirectory path = .ok t') : Grows ∅ t t' := by
  obtain ⟨steps, taken, h⟩ := exists_of_bind_eq_ok h
  obtain ⟨reached, led, h⟩ := exists_of_bind_eq_ok h
  have isNames : AreNames steps := by
    rw [(boundedSteps_eq_ok taken).1]
    exact areNames_steps _
  have start : Trail.IsFrom t.root [] := trivial
  cases reached with
  | vacant => cases h
  | found location e =>
    have here := at?_of_follow start led
    cases e with
    | file | link => cases h
    | directory entries =>
      cases last : steps.getLast? with
      | none => rw [last] at h; cases h
      | some step =>
        rw [last] at h
        cases step with
        | root | here | up => cases h
        | name name =>
          have isName := isNames name (List.mem_of_getLast? last)
          obtain ⟨found, looked, h⟩ := exists_of_bind_eq_ok h
          cases found with
          | some => cases h
          | none =>
            obtain rfl := Except.ok.inj h
            exact grows_put_directory here (Entry.child?_of_lookup looked) isName

theorem grows_of_createDirectoriesWithin {levels : Nat}
    (h : createDirectoriesWithin levels t path = .ok t') : Grows ∅ t t' := by
  fun_induction createDirectoriesWithin levels t path generalizing t' with
  | case2 | case9 =>
    obtain rfl := Except.ok.inj h
    exact .refl _
  | case3 _ _ _ _ _ created =>
    obtain rfl := Except.ok.inj h
    exact grows_of_createDirectory created
  | case6 _ _ _ _ _ _ _ above _ created _ ih =>
    obtain rfl := Except.ok.inj h
    exact (ih above).trans (grows_of_createDirectory created)
  | case7 _ _ _ _ _ _ _ above _ _ _ _ ih =>
    obtain rfl := Except.ok.inj h
    exact ih above
  | case1 | case4 | case5 | case8 | case10 => cases h

theorem grows_of_createDirectories (h : t.createDirectories path = .ok t') : Grows ∅ t t' :=
  grows_of_createDirectoriesWithin h

end FileTree

end AngularAtlas
