import AngularAtlas.Proofs.CommandLine.Writing
import AngularAtlas.Proofs.FileTree.Joining

/-!
All reports at once. Main statement: as long as the reports go to different files, none of which is
scanned, a run for all of them writes what the commands for each of them print before. The list of
directories is an exception: it also shows those that were made for the reports before it.
-/

namespace AngularAtlas.CommandLine

open Run
open FileTree (Grows)

variable {env : Environment} {options : CommonOptions} {t : FileTree} {task : Task}
  {format : GraphFormat}

def allOutcome (env : Environment) (options : CommonOptions) (format : GraphFormat)
    (t : FileTree) : Outcome :=
  (Request.run ⟨.all format, options⟩).outcome env t

def printOutcome (env : Environment) (options : CommonOptions) (format : GraphFormat)
    (t : FileTree) (kind : ReportKind) : Outcome :=
  (Request.run (printInvocation options format kind)).outcome env t

/-- A run that writes all reports, once it has scanned the modules and components. -/
theorem Starts.exists_run_all (starts : Starts env options t task) (format : GraphFormat) :
    ∃ messages, ((⟨.all format, options⟩ : Invocation).run env).run ⟨t, "", ""⟩ =
      (forM ReportKind.all (task.writeKind format (task.workspaceIn t).scanProject.1
          (task.workspaceIn t).scanComponents.1) >>= fun _ =>
        task.inform ("Reports written to " ++
          task.settings.outputDirectory task.root.path)).run ⟨t, "", messages⟩ := by
  obtain ⟨_, first⟩ := (task.gives_scanProject ⟨t, "", ""⟩).run_bind _
  obtain ⟨messages, second⟩ := (task.gives_scanComponents ⟨t, "", _⟩).run_bind _
  refine ⟨messages, ?_⟩
  have begun : ((⟨.all format, options⟩ : Invocation).run env).run ⟨t, "", ""⟩ =
      (task.writeAll format).run ⟨t, "", ""⟩ := run_bind_of_ok starts.run_ofOptions
  rw [begun, Task.writeAll_eq]
  exact first.trans second

theorem Starts.exists_writesEach (starts : Starts env options t task)
    (directory : t.root.isDirectory = true) (format : GraphFormat) :
    ∃ done rest, ReportKind.all = done ++ rest ∧
      WritesEach task format (task.workspaceIn t).scanProject.1
        (task.workspaceIn t).scanComponents.1 done t
        (allOutcome env options format t).session.tree ∧
      ((allOutcome env options format t).exitCode = 0 ↔ rest = []) := by
  obtain ⟨messages, ran⟩ := starts.exists_run_all format
  cases written : (forM ReportKind.all (task.writeKind format (task.workspaceIn t).scanProject.1
    (task.workspaceIn t).scanComponents.1)).run ⟨t, "", messages⟩ with
  | mk result after =>
    have directory' : (⟨t, "", messages⟩ : Session).tree.root.isDirectory = true := directory
    obtain ⟨done, rest, all, each, complete⟩ := CommandLine.exists_writesEach directory' written
    refine ⟨done, rest, all, ?_⟩
    cases result with
    | ok =>
      rw [run_bind_of_ok written] at ran
      obtain ⟨messages, said⟩ := gives_inform task.isQuiet ("Reports written to " ++
          task.settings.outputDirectory task.root.path) after
      rw [allOutcome, outcome_of_ok (ran.trans said)]
      exact ⟨each, iff_of_true rfl (complete.1 rfl)⟩
    | error f =>
      rw [run_bind_of_error written] at ran
      rw [allOutcome, outcome_of_error ran]
      exact ⟨each, iff_of_false (by rintro ⟨⟩) fun whole => by cases complete.2 whole⟩

/-- Each file that is written in a run for all reports has, in the end, what the command for its
report alone prints before. For the list of directories this holds if no directory was made in the
workspace; in any case it lists the directories of some time in between. -/
theorem allOutcome_readText (ordinary : t.IsOrdinary) (starts : Starts env options t task)
    (outputs : task.OutputsApart format (allOutcome env options format t).session.tree) :
    ∃ done rest, ReportKind.all = done ++ rest ∧
      ((allOutcome env options format t).exitCode = 0 ↔ rest = []) ∧
      (∀ kind ∈ done,
        (kind = .directories →
          (task.workspaceIn (allOutcome env options format t).session.tree).directories =
            (task.workspaceIn t).directories) →
        (printOutcome env options format t kind).exitCode = 0 ∧
          (printOutcome env options format t kind).session.tree = t ∧
          (allOutcome env options format t).session.tree.readText (task.path format kind) =
            .ok (printOutcome env options format t kind).session.output) ∧
      (.directories ∈ done → ∃ between, Grows (task.reached format done
          (allOutcome env options format t).session.tree) t between ∧
        Grows (task.reached format done (allOutcome env options format t).session.tree) between
          (allOutcome env options format t).session.tree ∧
        (allOutcome env options format t).session.tree.readText (task.path format .directories) =
          .ok (Report.directories task.root.path (task.workspaceIn between).directories)) := by
  obtain ⟨done, rest, all, each, complete⟩ := starts.exists_writesEach ordinary.directory format
  have once : done.Nodup := (List.nodup_append.1 (all ▸ ReportKind.nodup_all)).1
  obtain ⟨e, here⟩ := starts.exists_at?_root
  refine ⟨done, rest, all, complete, fun kind mem noneMade => ?_,
    each.exists_readText once outputs⟩
  obtain ⟨messages, printed⟩ := starts.printOutcome format kind
  rw [printOutcome, printed]
  refine ⟨rfl, rfl, ?_⟩
  obtain ⟨between, before, behind, read⟩ := each.exists_readText once outputs mem
  have spares : Task.SparesSources (task.reached format done
      (allOutcome env options format t).session.tree) := fun place reached =>
    outputs.spares place (Task.reached_mono (all ▸ List.subset_append_left done rest) reached)
  rw [read]
  refine congrArg Except.ok ?_
  by_cases isListing : kind = .directories
  · subst isListing
    exact Task.textFrom_directories
      (Workspace.directories_between ordinary.proper here before behind (noneMade rfl))
  · exact Task.textFrom_after ordinary.proper here ordinary.plain before spares isListing

variable {entries : List (String × Entry)} {name : String}

def docsWith (entries : List (String × Entry)) : FileTree where
  root := .directory [("ws", .directory [("docs", .directory entries)])]
  workingDirectory := "/ws"

def emptyWorkspace : FileTree where
  root := .directory [("ws", .directory [])]
  workingDirectory := "/ws"

def docsOptions : CommonOptions where
  overrides := { directory := some "docs" }

def docsTask : Task :=
  ⟨["ws"], (Settings.combine []).override docsOptions.overrides, false⟩

theorem settingsFiles_docs :
    settingsFiles homeEnvironment docsOptions emptyWorkspace ["ws"] = .ok [] := by
  have userSteps : (emptyWorkspace.boundedSteps homeEnvironment.userSettings.path).toOption =
      some (.root :: .name "home" :: [.name ".ngmap", .name "config.toml"]) := by
    rfl
  have noUser : emptyWorkspace.pathExists homeEnvironment.userSettings.path = false :=
    FileTree.pathExists_of_missing userSteps rfl rfl
  have steps : (emptyWorkspace.boundedSteps (Settings.localPath (Location.path ["ws"]))).toOption =
      some (.root :: .name "ws" :: .name ".ngmap" :: [.name "config.toml"]) := by
    rfl
  have noLocal : emptyWorkspace.pathExists (Settings.localPath (Location.path ["ws"])) = false :=
    FileTree.pathExists_of_missing_below steps rfl rfl rfl
  have workspace : Settings.loadLocal emptyWorkspace (Location.path ["ws"]) = .ok none := by
    rw [Settings.loadLocal, Settings.readIfPresent, noLocal]
    rfl
  exact settingsFiles_of_no_user rfl noUser workspace

theorem starts_docs : Starts homeEnvironment docsOptions emptyWorkspace docsTask := by
  have located : (workspaceRoot docsOptions).run ⟨emptyWorkspace, "", ""⟩ =
      (.ok ["ws"], ⟨emptyWorkspace, "", ""⟩) := by
    have steps : (emptyWorkspace.boundedSteps emptyWorkspace.workingDirectory).toOption =
        some [.root, .name "ws"] := by
      rfl
    exact run_workspaceRoot_of_locate rfl (FileTree.locate_of_directory steps rfl rfl)
  exact starts_of_steps located
    (run_loadSettings_of_valid ⟨emptyWorkspace, "", ""⟩ settingsFiles_docs rfl)

def AllFiles (entries : List (String × Entry)) : Prop :=
  ∀ e ∈ entries, ∃ content, e.2 = .file content

theorem AllFiles.putEntry (files : AllFiles entries) (name : String) (content : ByteArray) :
    AllFiles (putEntry name (.file content) entries) := by
  intro e mem
  rcases mem_putEntry mem with rfl | mem
  · exact ⟨content, rfl⟩
  · exact files e mem

theorem AllFiles.exists_of_lookup {e : Entry} (files : AllFiles entries)
    (found : entries.lookup name = some e) : ∃ content, e = .file content := by
  obtain ⟨before, later, rfl, -⟩ := List.lookup_eq_some_iff.1 found
  exact files (name, e) (List.mem_append_right _ List.mem_cons_self)

theorem locate_ws (entries : List (String × Entry)) :
    (docsWith entries).locate "/ws" = .ok (["ws"], .directory [("docs", .directory entries)]) := by
  have steps : ((docsWith []).boundedSteps "/ws").toOption = some [.root, .name "ws"] := by rfl
  exact FileTree.locate_of_directory steps rfl rfl

theorem isPathName_docs : IsPathName "docs" := by decide

theorem join_docs : Path.join "/ws" "docs" = "/ws/docs" := by rfl

theorem locate_docs (entries : List (String × Entry)) :
    (docsWith entries).locate "/ws/docs" = .ok (["ws", "docs"], .directory entries) := by
  rw [← join_docs]
  exact FileTree.locate_join_directory (locate_ws entries) isPathName_docs (by decide) rfl

/-- The names of the reports' files. -/
def docsFiles : List String :=
  ["ReadMe-Modules.md", "ComponentHierarchy.md", "ReadMe-ProjectStructure.dot",
    "ReadMe-ComponentHierarchy.dot", "ReadMe-DependencyInjection.dot", "ReadMe-Imports.txt",
    "ReadMe-ProjectDirectoryStructure.md", "ReadMe-PackagesJson.md"]

theorem map_file_docs : ReportKind.all.map (docsTask.file .dot) = docsFiles := by rfl

theorem file_docs_mem (kind : ReportKind) : docsTask.file .dot kind ∈ docsFiles := by
  rw [← map_file_docs]
  exact List.mem_map_of_mem (ReportKind.mem_all kind)

theorem file_docs_injective : Function.Injective (docsTask.file .dot) := by
  have once : (ReportKind.all.map (docsTask.file .dot)).Nodup := by
    rw [map_file_docs]
    decide
  exact fun kind other same =>
    List.inj_on_of_nodup_map once (ReportKind.mem_all kind) (ReportKind.mem_all other) same

theorem isPathName_file_docs (kind : ReportKind) : IsPathName (docsTask.file .dot kind) := by
  have areNames : ∀ name ∈ docsFiles, IsPathName name := by decide
  exact areNames _ (file_docs_mem kind)

/-- The reports go to files of the new directory. -/
theorem path_docs (kind : ReportKind) :
    docsTask.path .dot kind = Path.join "/ws/docs" (docsTask.file .dot kind) := by
  have output : docsTask.settings.outputDirectory docsTask.root.path = "/ws/docs" := by rfl
  rw [Task.path, Task.outputPath, Settings.outputPath, output]

theorem parent?_path_docs (kind : ReportKind) :
    Path.parent? (docsTask.path .dot kind) = some "/ws/docs" := by
  rw [path_docs]
  exact Path.parent?_join isPathName_docs (isPathName_file_docs kind) (by decide)

theorem utf8ByteSize_path_docs (kind : ReportKind) :
    (Path.join "/ws/docs" (docsTask.file .dot kind)).utf8ByteSize ≤ FileTree.maxPathSize := by
  have isName := isPathName_file_docs kind
  calc (Path.join "/ws/docs" (docsTask.file .dot kind)).utf8ByteSize
      ≤ "/ws/docs".utf8ByteSize + 1 + (docsTask.file .dot kind).utf8ByteSize :=
        Path.utf8ByteSize_join_le isName.isAbsolute_eq
    _ ≤ "/ws/docs".utf8ByteSize + 1 + Entry.maxNameSize := Nat.add_le_add_left isName.short _
    _ ≤ FileTree.maxPathSize := by decide

theorem write_docsWith (files : AllFiles entries) (kind : ReportKind) (text : String) :
    (docsWith entries).write (docsTask.path .dot kind) text =
      .ok (docsWith (putEntry (docsTask.file .dot kind) (.file text.toUTF8) entries)) := by
  rw [path_docs, FileTree.write_join (locate_docs entries) (isPathName_file_docs kind)
    (utf8ByteSize_path_docs kind) (fun _ found => files.exists_of_lookup found)]
  simp [FileTree.put, Entry.put, docsWith, putEntry]

/-- Where the path of a report leads. -/
theorem locate_docsWith (files : AllFiles entries) (kind : ReportKind) :
    (docsWith entries).locate (docsTask.path .dot kind) =
      match entries.lookup (docsTask.file .dot kind) with
      | some e => .ok (["ws", "docs", docsTask.file .dot kind], e)
      | none => .error .notFound := by
  rw [path_docs]
  exact FileTree.locate_join (locate_docs entries) (isPathName_file_docs kind)
    (utf8ByteSize_path_docs kind) fun _ found => files.exists_of_lookup found

theorem createDirectories_docsWith (entries : List (String × Entry)) :
    (docsWith entries).createDirectories "/ws/docs" = .ok (docsWith entries) := by
  rw [← join_docs]
  exact FileTree.createDirectories_join_of_directory (locate_ws entries) isPathName_docs
    (by decide) rfl

theorem createDirectories_emptyWorkspace :
    emptyWorkspace.createDirectories "/ws/docs" = .ok (docsWith []) := by
  have steps : (emptyWorkspace.boundedSteps "/ws").toOption = some [.root, .name "ws"] := by rfl
  have ws : emptyWorkspace.locate "/ws" = .ok (["ws"], .directory []) :=
    FileTree.locate_of_directory steps rfl rfl
  rw [← join_docs, FileTree.createDirectories_join_of_missing ws isPathName_docs (by decide) rfl]
  rfl

theorem exists_run_writeKind_docs (kind : ReportKind) (p : Project) (h : Hierarchy)
    {session : Session} (made : session.tree.createDirectories "/ws/docs" = .ok (docsWith entries))
    (files : AllFiles entries) :
    ∃ messages, (docsTask.writeKind .dot p h kind).run session =
      (.ok (), { session with
        tree := docsWith (putEntry (docsTask.file .dot kind)
          (.file (docsTask.textFrom .dot p h session.tree kind).toUTF8) entries)
        messages := messages }) := by
  obtain ⟨said, write⟩ := docsTask.exists_run_writeKind .dot p h kind session
  have written := write_docsWith files kind (docsTask.textFrom .dot p h session.tree kind)
  have made' : ({ session with messages := said } : Session).tree.createDirectories "/ws/docs" =
    .ok (docsWith entries) := made
  obtain ⟨messages, ran⟩ :=
    exists_run_writeFile_of_ok docsTask.isQuiet (parent?_path_docs kind) (by decide) made' written
  exact ⟨messages, write.trans ran⟩

theorem exists_run_writeKinds_docs (kinds : List ReportKind) (p : Project) (h : Hierarchy)
    {session : Session} (made : session.tree.createDirectories "/ws/docs" = .ok (docsWith entries))
    (files : AllFiles entries) (ne : kinds ≠ []) :
    ∃ entries' messages, AllFiles entries' ∧
      (forM kinds (docsTask.writeKind .dot p h)).run session =
        (.ok (), { session with tree := docsWith entries', messages := messages }) := by
  induction kinds generalizing session entries with
  | nil => exact absurd rfl ne
  | cons kind kinds ih =>
    obtain ⟨messages, ran⟩ := exists_run_writeKind_docs kind p h made files
    have files' := files.putEntry (docsTask.file .dot kind)
      (docsTask.textFrom .dot p h session.tree kind).toUTF8
    rw [List.forM_cons, run_bind_of_ok ran]
    generalize putEntry _ _ entries = middle at files'
    rcases eq_or_ne kinds [] with rfl | ne
    · exact ⟨middle, messages, files', rfl⟩
    · have made' : ({ session with tree := docsWith middle, messages := messages } :
          Session).tree.createDirectories "/ws/docs" = .ok (docsWith middle) :=
        createDirectories_docsWith middle
      exact ih made' files' ne

theorem directories_docsWith (files : AllFiles entries) :
    (docsTask.workspaceIn (docsWith entries)).directories = ["/ws/docs"] := by
  have noDirectory (excluded : String → Bool) (location : Location) :
      (walkEntries excluded location entries).filter (·.isDirectory) = [] := by
    rw [List.filter_eq_nil_iff]
    intro v met
    rw [Workspace.walkEntries_eq, List.mem_flatMap] at met
    obtain ⟨entry, mem, met⟩ := met
    obtain ⟨content, isFile⟩ := files entry mem
    rw [isFile, walkEntry, List.mem_singleton] at met
    rw [met]
    exact Bool.false_ne_true
  have here : (docsWith entries).root.at? ["ws"] =
      some (.directory [("docs", .directory entries)]) := rfl
  have ws : docsTask.settings.excludes.contains "ws" = false := by rfl
  have docs : docsTask.settings.excludes.contains "docs" = false := by rfl
  have visits : (docsTask.workspaceIn (docsWith entries)).visits = ⟨["ws", "docs"], true⟩ ::
      walkEntries (docsTask.workspaceIn (docsWith entries)).isExcluded ["ws", "docs"] entries := by
    have root : docsTask.root = ["ws"] := rfl
    simp only [Workspace.visits, Task.workspaceIn, root, here, walkEntries, walkEntry,
      Workspace.isExcluded, ws, docs, List.getLast?_singleton, Option.any_some,
      Bool.false_eq_true, if_false, List.append_nil, List.cons_append, List.nil_append]
  rw [Workspace.directories, visits, List.filter_cons_of_pos rfl, noDirectory]
  rfl

/-- In a run for all reports, the list of directories is written when the new one is there. -/
theorem exists_run_allKinds_docs (p : Project) (h : Hierarchy) (said : String) :
    ∃ entries messages, AllFiles entries ∧
      entries.lookup (docsTask.file .dot .directories) =
        some (.file (Report.directories "/ws" ["/ws/docs"]).toUTF8) ∧
      (forM ReportKind.all (docsTask.writeKind .dot p h)).run ⟨emptyWorkspace, "", said⟩ =
        (.ok (), ⟨docsWith entries, "", messages⟩) := by
  have order : ReportKind.all =
      (ReportKind.modules :: .components :: GraphKind.all.map .graph ++ [.imports]) ++
        [.directories, .packages] := rfl
  have made : (⟨emptyWorkspace, "", said⟩ : Session).tree.createDirectories "/ws/docs" =
      .ok (docsWith []) := createDirectories_emptyWorkspace
  obtain ⟨entries, said, files, first⟩ := exists_run_writeKinds_docs
    (.modules :: .components :: GraphKind.all.map .graph ++ [.imports]) p h made
    (List.forall_mem_nil _) (List.cons_ne_nil _ _)
  have made' : (⟨docsWith entries, "", said⟩ : Session).tree.createDirectories "/ws/docs" =
      .ok (docsWith entries) := createDirectories_docsWith entries
  obtain ⟨said', second⟩ := exists_run_writeKind_docs .directories p h made' files
  have files' := files.putEntry (docsTask.file .dot .directories)
      (docsTask.textFrom .dot p h (docsWith entries) .directories).toUTF8
  have made'' : (⟨docsWith _, "", said'⟩ : Session).tree.createDirectories "/ws/docs" =
      .ok (docsWith _) := createDirectories_docsWith (putEntry (docsTask.file .dot .directories)
        (.file (docsTask.textFrom .dot p h (docsWith entries) .directories).toUTF8) entries)
  obtain ⟨messages, third⟩ := exists_run_writeKind_docs .packages p h made'' files'
  refine ⟨?entries, messages, ?files, ?listed, ?ran⟩
  case ran =>
    rw [order, List.forM_append, run_bind_of_ok first, List.forM_cons, run_bind_of_ok second,
      List.forM_cons, run_bind_of_ok third]
    rfl
  case files => exact files'.putEntry _ _
  case listed =>
    have differ : docsTask.file .dot .directories ≠ docsTask.file .dot .packages :=
      file_docs_injective.ne nofun
    have shown : docsTask.textFrom .dot p h (docsWith entries) .directories =
        Report.directories "/ws" ["/ws/docs"] :=
      congrArg (Report.directories _) (directories_docsWith files)
    rw [Table.lookup_putEntry, if_neg differ, Table.lookup_putEntry, if_pos rfl, shown]

/-- After a run for all reports, the list of directories shows the new one. -/
theorem exists_allOutcome_docs : ∃ entries messages, AllFiles entries ∧
    entries.lookup (docsTask.file .dot .directories) =
      some (.file (Report.directories "/ws" ["/ws/docs"]).toUTF8) ∧
    allOutcome homeEnvironment docsOptions .dot emptyWorkspace =
      ⟨0, ⟨docsWith entries, "", messages⟩⟩ := by
  obtain ⟨said, ran⟩ := starts_docs.exists_run_all .dot
  obtain ⟨entries, said', files, listed, written⟩ := exists_run_allKinds_docs
    (docsTask.workspaceIn emptyWorkspace).scanProject.1
    (docsTask.workspaceIn emptyWorkspace).scanComponents.1 said
  obtain ⟨messages, ended⟩ := gives_inform docsTask.isQuiet ("Reports written to " ++
    docsTask.settings.outputDirectory docsTask.root.path) ⟨docsWith entries, "", said'⟩
  refine ⟨entries, messages, files, listed, outcome_of_ok ?_⟩
  rw [ran, run_bind_of_ok written]
  exact ended

theorem outputsApart_docs (files : AllFiles entries) :
    docsTask.OutputsApart .dot (docsWith entries) := by
  have isPlace {kind : ReportKind} {place : Location} {e : Entry}
      (led : (docsWith entries).locate (docsTask.path .dot kind) = .ok (place, e)) :
      place = ["ws", "docs", docsTask.file .dot kind] := by
    rw [locate_docsWith files] at led
    split at led
    · exact (Prod.mk.inj (Except.ok.inj led)).1.symm
    · cases led
  have spares : ∀ name ∈ docsFiles,
      FileKind.isTypeScript (Location.path ["ws", "docs", name]) = false ∧
        FileKind.isManifest (Location.path ["ws", "docs", name]) = false := by
    decide +kernel
  constructor
  · intro kind other differ
    rw [Set.disjoint_left]
    rintro place ⟨_, same, _, led⟩ ⟨_, same', _, led'⟩
    obtain rfl := List.mem_singleton.1 same
    obtain rfl := List.mem_singleton.1 same'
    have places := (isPlace led).symm.trans (isPlace led')
    exact differ (file_docs_injective (by simpa using places))
  · rintro place ⟨kind, mem, _, led⟩
    rw [isPlace led]
    exact spares _ (file_docs_mem kind)

theorem isOrdinary_emptyWorkspace : emptyWorkspace.IsOrdinary where
  directory := rfl
  proper := .directory (List.pairwise_singleton _ _)
    (List.forall_mem_singleton.2 (by decide)) (List.forall_mem_singleton.2 Entry.proper_empty)
  plain place e here := by
    cases place with
    | nil => exact ⟨List.forall_mem_nil _, List.not_mem_nil, List.not_mem_nil⟩
    | cons name rest =>
      obtain ⟨child, found, below⟩ := Option.bind_eq_some_iff.1 here
      have found : [("ws", Entry.directory [])].lookup name = some child := found
      rw [Table.lookup_cons_eq_ite] at found
      split at found
      case isFalse => cases found
      case isTrue isWs =>
        obtain rfl : name = "ws" := isWs
        obtain rfl := Option.some.inj found
        cases rest with
        | nil => exact ⟨by decide, by decide, by decide⟩
        | cons next rest => cases below

/-- What one would expect of a run for all reports: each of them is what the command for it alone
prints before. -/
def AllAgree : Prop :=
  ∀ (env : Environment) (options : CommonOptions) (format : GraphFormat) (t : FileTree)
    (task : Task) (kind : ReportKind), t.IsOrdinary → Starts env options t task →
    task.OutputsApart format (allOutcome env options format t).session.tree →
    (allOutcome env options format t).exitCode = 0 →
    (allOutcome env options format t).session.tree.readText (task.path format kind) =
      .ok (printOutcome env options format t kind).session.output

theorem allOutcome_readText_docs : ∃ task, Starts homeEnvironment docsOptions emptyWorkspace task ∧
    (allOutcome homeEnvironment docsOptions .dot emptyWorkspace).exitCode = 0 ∧
    (allOutcome homeEnvironment docsOptions .dot emptyWorkspace).session.tree.readText
        (task.path .dot .packages) =
      .ok (printOutcome homeEnvironment docsOptions .dot emptyWorkspace
        .packages).session.output := by
  obtain ⟨entries, messages, files, -, outcome⟩ := exists_allOutcome_docs
  have outputs : docsTask.OutputsApart .dot
      (allOutcome homeEnvironment docsOptions .dot emptyWorkspace).session.tree := by
    rw [outcome]
    exact outputsApart_docs files
  obtain ⟨done, rest, all, complete, agree⟩ :=
    allOutcome_readText isOrdinary_emptyWorkspace starts_docs outputs
  have succeeded : (allOutcome homeEnvironment docsOptions .dot emptyWorkspace).exitCode = 0 := by
    rw [outcome]
  rw [complete.1 succeeded, List.append_nil] at all
  have mem : ReportKind.packages ∈ done := all ▸ ReportKind.mem_all _
  exact ⟨docsTask, starts_docs, succeeded, (agree.1 _ mem (by rintro ⟨⟩)).2.2⟩

theorem not_allAgree : ¬ AllAgree := by
  intro agree
  obtain ⟨entries, messages, files, listed, outcome⟩ := exists_allOutcome_docs
  have read := agree homeEnvironment docsOptions .dot emptyWorkspace docsTask .directories
    isOrdinary_emptyWorkspace starts_docs
  rw [outcome] at read
  have led := locate_docsWith files .directories
  rw [listed] at led
  obtain ⟨_, printed⟩ := starts_docs.printOutcome .dot .directories
  have same := read (outputsApart_docs files) rfl
  rw [FileTree.readText_of_locate led, printOutcome, printed] at same
  have before : docsTask.textOn .dot emptyWorkspace .directories = Report.directories "/ws" [] := by
    rfl
  rw [before] at same
  have differ : Report.directories "/ws" ["/ws/docs"] ≠ Report.directories "/ws" [] := by
    decide
  exact differ (Except.ok.inj same)

end AngularAtlas.CommandLine
