import AngularAtlas.Proofs.CommandLine.ReportKinds
import Mathlib.Data.Set.Lattice
import Mathlib.Order.CompletePartialOrder

namespace AngularAtlas.CommandLine

open Run
open FileTree (Grows)

variable {t t' : FileTree} {task : Task} {format : GraphFormat} {session after : Session}
  {p : Project} {h : Hierarchy} {kind : ReportKind} {kinds : List ReportKind}
  {result : Except Failure Unit}

theorem run_orFail_bind {ε α β : Type} (failure : ε → Failure) (outcome : Except ε α)
    (next : α → Run β) (session : Session) :
    (orFail failure outcome >>= next).run session =
      match outcome with
      | .ok a => (next a).run session
      | .error e => (.error (failure e), session) := by
  cases outcome <;> rfl

/-- What is said of a file when a path above it, or its own, cannot be used. -/
def writeFailure (path at? : String) (e : FileError) : Failure :=
  ⟨"Failed to write " ++ path, [fileText at? e, e.message]⟩

/-- The outcome of writing a file where directories need not be made. -/
def saved (isQuiet : Bool) (path text : String) (session : Session) :
    Except Failure Unit × Session :=
  match session.tree.write path text with
  | .ok t => (inform isQuiet ("Wrote " ++ path)).run { session with tree := t }
  | .error e => (.error (writeFailure path path e), session)

theorem run_writeFile (isQuiet : Bool) (path text : String) (session : Session) :
    (writeFile isQuiet path text).run session =
      if (Path.parent? path).getD "" = "" then saved isQuiet path text session
      else match session.tree.createDirectories ((Path.parent? path).getD "") with
        | .ok t => saved isQuiet path text { session with tree := t }
        | .error e => (.error (writeFailure path ((Path.parent? path).getD "") e), session) := by
  have save : ∀ session, (do
      setTree (← orFail (writeFailure path path) ((← tree).write path text))
      inform isQuiet ("Wrote " ++ path)).run session = saved isQuiet path text session := by
    intro session
    rw [saved]
    refine (run_orFail_bind _ _ _ session).trans ?_
    cases session.tree.write path text <;> rfl
  rw [writeFile]
  split
  case h_1 none =>
    rw [none]
    exact save session
  case h_2 none =>
    rw [none]
    exact save session
  case h_3 parent ne isParent =>
    rw [isParent, Option.getD_some, if_neg ne]
    refine (run_orFail_bind _ _ _ session).trans ?_
    cases session.tree.createDirectories parent with
    | ok t => exact save { session with tree := t }
    | error => rfl

/-- How a run that writes a file can end: the file is there, or at most directories were made. -/
inductive Writes (path text : String) (t : FileTree) : Except Failure Unit → FileTree → Prop
  | written {t' : FileTree} (place : Location) : Grows {place} t t' →
      t'.locate path = .ok (place, .file text.toUTF8) → Writes path text t (.ok ()) t'
  | failed {t' : FileTree} (f : Failure) : Grows ∅ t t' → Writes path text t (.error f) t'

theorem Writes.of_grows {path text : String} {t'' : FileTree}
    (writes : Writes path text t' result t'') (grows : Grows ∅ t t') :
    Writes path text t result t'' := by
  cases writes with
  | written place later led =>
    exact .written place ((grows.mono (Set.empty_subset _)).trans later) led
  | failed f later => exact .failed f (grows.trans later)

theorem writes_of_saved {isQuiet : Bool} {path text : String}
    (directory : session.tree.root.isDirectory = true)
    (ran : saved isQuiet path text session = (result, after)) :
    Writes path text session.tree result after.tree := by
  rw [saved] at ran
  cases written : session.tree.write path text with
  | error e =>
    rw [written] at ran
    obtain ⟨rfl, rfl⟩ := Prod.mk.inj ran
    exact .failed _ (.refl _)
  | ok t =>
    rw [written] at ran
    obtain ⟨place, grows, led⟩ := FileTree.exists_grows_of_write directory written
    obtain ⟨messages, said⟩ := gives_inform isQuiet ("Wrote " ++ path) { session with tree := t }
    obtain ⟨rfl, rfl⟩ := Prod.mk.inj (said.symm.trans ran)
    exact .written place grows led

theorem writes_of_writeFile {isQuiet : Bool} {path text : String}
    (directory : session.tree.root.isDirectory = true)
    (ran : (writeFile isQuiet path text).run session = (result, after)) :
    Writes path text session.tree result after.tree := by
  rw [run_writeFile] at ran
  split at ran
  case isTrue => exact writes_of_saved directory ran
  case isFalse =>
    split at ran
    case h_1 t created =>
      have grows := FileTree.grows_of_createDirectories created
      have directory' : ({ session with tree := t } : Session).tree.root.isDirectory = true :=
        grows.isDirectory_root directory
      exact (writes_of_saved directory' ran).of_grows grows
    case h_2 =>
      obtain ⟨rfl, rfl⟩ := Prod.mk.inj ran
      exact .failed _ (.refl _)

theorem exists_run_writeFile_of_ok (isQuiet : Bool) {path text parent : String}
    {made written : FileTree} (isParent : Path.parent? path = some parent) (ne : parent ≠ "")
    (created : session.tree.createDirectories parent = .ok made)
    (wrote : made.write path text = .ok written) :
    ∃ messages, (writeFile isQuiet path text).run session =
      (.ok (), { session with tree := written, messages := messages }) := by
  obtain ⟨messages, said⟩ :=
    gives_inform isQuiet ("Wrote " ++ path) { session with tree := written }
  refine ⟨messages, ?_⟩
  rw [run_writeFile, isParent, Option.getD_some, if_neg ne, created]
  simp only [saved, wrote]
  exact said

namespace Task

/-- Writes a report after the modules and components have been scanned. -/
def writeKind (task : Task) (format : GraphFormat) (p : Project) (h : Hierarchy) :
    ReportKind → Run Unit
  | .modules => task.writeReport {} (task.file format .modules) (Report.modules p)
  | .components => task.writeReport {} (task.file format .components) (Report.components h)
  | .graph kind =>
    task.writeReport {} (task.file format (.graph kind)) (task.graphText format (graphOf p h kind))
  | .imports => task.writeImports {}
  | .directories => task.writeDirectories {}
  | .packages => task.writePackages {}

theorem writeReport_default (task : Task) (file text : String) :
    task.writeReport {} file text = writeFile task.isQuiet (task.outputPath file) text := by
  rw [writeReport]
  exact if_neg Bool.false_ne_true

theorem writeAll_eq (task : Task) (format : GraphFormat) :
    task.writeAll format = (task.scanProject >>= fun p => task.scanComponents >>= fun h =>
      forM ReportKind.all (task.writeKind format p h) >>= fun _ =>
        task.inform ("Reports written to " ++ task.settings.outputDirectory task.root.path)) := by
  simp only [writeAll, ReportKind.all, GraphKind.all, List.map, List.cons_append, List.nil_append]
  refine bind_congr fun p => bind_congr fun h => ?_
  simp only [List.forIn_cons, List.forIn_nil, List.forM_cons, List.forM_nil, bind_assoc, pure_bind]
  rfl

theorem exists_run_writeKind (task : Task) (format : GraphFormat) (p : Project) (h : Hierarchy)
    (kind : ReportKind) (session : Session) :
    ∃ messages, (task.writeKind format p h kind).run session =
      (writeFile task.isQuiet (task.path format kind)
        (task.textFrom format p h session.tree kind)).run
          { session with messages := messages } := by
  cases kind with
  | modules | components | graph =>
    refine ⟨session.messages, ?_⟩
    rw [writeKind, writeReport_default]
    rfl
  | imports =>
    rw [writeKind, writeImports]
    simp only [writeReport_default]
    exact (task.gives_importsReport format session).run_bind _
  | directories =>
    rw [writeKind, writeDirectories]
    simp only [writeReport_default]
    exact (task.gives_directoriesReport format session).run_bind _
  | packages =>
    rw [writeKind, writePackages]
    simp only [writeReport_default]
    exact (task.gives_packagesReport format session).run_bind _

end Task

/-- Some reports are written one after another, each on the files as they are then; at most
directories are made beside this. -/
inductive WritesEach (task : Task) (format : GraphFormat) (p : Project) (h : Hierarchy) :
    List ReportKind → FileTree → FileTree → Prop
  | none {t t' : FileTree} : Grows ∅ t t' → WritesEach task format p h [] t t'
  | next {t middle t' : FileTree} {kind : ReportKind} {kinds : List ReportKind}
      (place : Location) : Grows {place} t middle →
      middle.locate (task.path format kind) =
        .ok (place, .file (task.textFrom format p h t kind).toUTF8) →
      WritesEach task format p h kinds middle t' → WritesEach task format p h (kind :: kinds) t t'

theorem exists_writesEach (directory : session.tree.root.isDirectory = true)
    (ran : (forM kinds (task.writeKind format p h)).run session = (result, after)) :
    ∃ done rest, kinds = done ++ rest ∧
      WritesEach task format p h done session.tree after.tree ∧ (result = .ok () ↔ rest = []) := by
  induction kinds generalizing session with
  | nil =>
    obtain ⟨rfl, rfl⟩ := Prod.mk.inj ran
    exact ⟨[], [], rfl, .none (.refl _), iff_of_true rfl rfl⟩
  | cons kind kinds ih =>
    rw [List.forM_cons] at ran
    obtain ⟨messages, write⟩ := task.exists_run_writeKind format p h kind session
    cases first : (task.writeKind format p h kind).run session with
    | mk outcome middle =>
      have directory' : ({ session with messages := messages } : Session).tree.root.isDirectory =
        true := directory
      have writes := writes_of_writeFile directory' (write.symm.trans first)
      cases writes with
      | written place grows led =>
        rw [run_bind_of_ok first] at ran
        obtain ⟨done, rest, rfl, each, complete⟩ := ih (grows.isDirectory_root directory) ran
        exact ⟨kind :: done, rest, rfl, .next place grows led each, complete⟩
      | failed f grows =>
        rw [run_bind_of_error first] at ran
        obtain ⟨rfl, rfl⟩ := Prod.mk.inj ran
        exact ⟨[], kind :: kinds, rfl, .none grows,
          iff_of_false (by rintro ⟨⟩) (List.cons_ne_nil _ _)⟩

namespace Task

/-- The places of the files to which the paths of some reports lead. -/
def reached (task : Task) (format : GraphFormat) (kinds : List ReportKind) (t : FileTree) :
    Set Location :=
  {place | ∃ kind ∈ kinds, ∃ content, t.locate (task.path format kind) = .ok (place, .file content)}

theorem reached_mono {more : List ReportKind} (sub : kinds ⊆ more) :
    task.reached format kinds t ⊆ task.reached format more t := by
  rintro place ⟨kind, mem, led⟩
  exact ⟨kind, sub mem, led⟩

/-- The reports go to different files, none of which is scanned. -/
structure OutputsApart (task : Task) (format : GraphFormat) (t : FileTree) : Prop where
  apart : ∀ kind other, kind ≠ other →
    Disjoint (task.reached format [kind] t) (task.reached format [other] t)
  spares : SparesSources (task.reached format ReportKind.all t)

end Task

theorem WritesEach.grows (each : WritesEach task format p h kinds t t') :
    Grows (task.reached format kinds t') t t' := by
  induction each with
  | none grows => exact grows.mono (Set.empty_subset _)
  | @next t middle t' kind kinds place grows led later ih =>
    obtain ⟨content, there, -⟩ := ih.exists_locate led
    have isReached : place ∈ task.reached format (kind :: kinds) t' :=
      ⟨kind, List.mem_cons_self, content, there⟩
    exact (grows.mono (Set.singleton_subset_iff.2 isReached)).trans
      (ih.mono (Task.reached_mono (List.subset_cons_self _ _)))

/-- In the end each file has the report on the files as they were when it was written. -/
theorem WritesEach.exists_readText (each : WritesEach task format p h kinds t t')
    (once : kinds.Nodup) (outputs : task.OutputsApart format t') (mem : kind ∈ kinds) :
    ∃ between, Grows (task.reached format kinds t') t between ∧
      Grows (task.reached format kinds t') between t' ∧
      t'.readText (task.path format kind) = .ok (task.textFrom format p h between kind) := by
  induction each with
  | none => cases mem
  | @next t middle t' first kinds place grows led later ih =>
    obtain ⟨isNew, once⟩ := List.nodup_cons.1 once
    have whole := (WritesEach.next place grows led later).grows
    rcases List.mem_cons.1 mem with rfl | mem
    · refine ⟨t, .refl t, whole, ?_⟩
      obtain ⟨content, there, kept⟩ := later.grows.exists_locate led
      have unwritten : place ∉ task.reached format kinds t' := by
        rintro ⟨other, hother, led'⟩
        have differ : kind ≠ other := by
          rintro rfl
          exact isNew hother
        exact Set.disjoint_left.1 (outputs.apart kind other differ)
          ⟨kind, List.mem_singleton_self _, content, there⟩
          ⟨other, List.mem_singleton_self _, led'⟩
      rw [kept unwritten] at there
      exact FileTree.readText_of_locate there
    · obtain ⟨between, before, behind, read⟩ := ih once outputs mem
      have sub : task.reached format kinds t' ⊆ task.reached format (first :: kinds) t' :=
        Task.reached_mono (List.subset_cons_self first kinds)
      obtain ⟨content, there, -⟩ := later.grows.exists_locate led
      have isReached : place ∈ task.reached format (first :: kinds) t' :=
        ⟨first, List.mem_cons_self, content, there⟩
      exact ⟨between, (grows.mono (Set.singleton_subset_iff.2 isReached)).trans (before.mono sub),
        behind.mono sub, read⟩

end AngularAtlas.CommandLine
