import AngularAtlas.Proofs.CommandLine.Listing
import AngularAtlas.Proofs.Workspace.Rescan

namespace AngularAtlas.CommandLine

open Run
open FileTree (Grows)

/-- The reports and graphs that can be written. -/
inductive ReportKind where
  | modules
  | components
  | graph (kind : GraphKind)
  | imports
  | directories
  | packages
deriving Repr, DecidableEq

namespace ReportKind

/-- All of them, in the order in which they are written. -/
def all : List ReportKind :=
  [.modules, .components] ++ GraphKind.all.map .graph ++ [.imports, .directories, .packages]

theorem mem_all (kind : ReportKind) : kind ∈ all := by
  cases kind with
  | graph kind => cases kind <;> decide
  | _ => decide

theorem nodup_all : all.Nodup := by decide

/-- The command for one of them. -/
def command (format : GraphFormat) (destination : Destination) : ReportKind → Command
  | .modules => .modules destination
  | .components => .components destination
  | .graph kind => .graph kind format none destination
  | .imports => .imports destination
  | .directories => .directories destination
  | .packages => .packages destination

end ReportKind

namespace Task

variable (task : Task) (format : GraphFormat)

/-- The file of a report by the settings. -/
def file : ReportKind → String
  | .modules => task.settings.text .modulesFile
  | .components => task.settings.text .componentsFile
  | .graph kind => task.graphFile kind format
  | .imports => task.settings.text .importsFile
  | .directories => task.settings.text .directoriesFile
  | .packages => task.settings.text .packagesFile

/-- Where a report goes by the settings. -/
def path (kind : ReportKind) : String := task.outputPath (task.file format kind)

/-- The workspace as it is in a file system. -/
def workspaceIn (t : FileTree) : Workspace := ⟨t, task.root, task.settings.excludes⟩

def graphOf (p : Project) (h : Hierarchy) : GraphKind → Graph
  | .modules => .ofModules p
  | .components => .ofHierarchy h
  | .injection => .ofInjection p

/-- The text of a report, from a project and a hierarchy that were found before; the other reports
are on a file system. -/
def textFrom (p : Project) (h : Hierarchy) (t : FileTree) : ReportKind → String
  | .modules => Report.modules p
  | .components => Report.components h
  | .graph kind => task.graphText format (graphOf p h kind)
  | .imports => Report.imports (task.workspaceIn t).rootPath (task.workspaceIn t).importCensus
  | .directories =>
    Report.directories (task.workspaceIn t).rootPath (task.workspaceIn t).directories
  | .packages => Report.packages (task.workspaceIn t).scanPackages

/-- The text of a report on a file system. -/
def textOn (t : FileTree) : ReportKind → String :=
  task.textFrom format (task.workspaceIn t).scanProject.1 (task.workspaceIn t).scanComponents.1 t

end Task

section Scans

variable {α β : Type} {x : Run α} {next : α → Run β} {a : α} {session : Session}

/-- A run gives a value, and all it does beside this is to say something. -/
def Gives (x : Run α) (session : Session) (a : α) : Prop :=
  ∃ messages, x.run session = (.ok a, { session with messages := messages })

theorem Gives.run_bind (gives : Gives x session a) (next : α → Run β) :
    ∃ messages, (x >>= next).run session = (next a).run { session with messages := messages } := by
  obtain ⟨messages, ran⟩ := gives
  exact ⟨messages, run_bind_of_ok ran⟩

theorem gives_inform (isQuiet : Bool) (line : String) (session : Session) :
    Gives (Run.inform isQuiet line) session () := by
  cases isQuiet with
  | true => exact ⟨_, rfl⟩
  | false => exact ⟨_, rfl⟩

/-- A run goes on behind a line that may have been said. -/
theorem exists_run_informIf (p : Prop) [Decidable p] (isQuiet : Bool) (line : String)
    (next : Unit → Run β) (session : Session) :
    ∃ messages, (if p then Run.inform isQuiet line >>= next else next ()).run session =
      (next ()).run { session with messages := messages } := by
  split
  · exact (gives_inform isQuiet line session).run_bind next
  · exact ⟨session.messages, rfl⟩

namespace Task

variable (task : Task) (format : GraphFormat)

theorem gives_scanProject (session : Session) :
    Gives task.scanProject session (task.workspaceIn session.tree).scanProject.1 :=
  ⟨_, rfl⟩

theorem gives_scanComponents (session : Session) :
    Gives task.scanComponents session (task.workspaceIn session.tree).scanComponents.1 :=
  ⟨_, rfl⟩

theorem gives_scanGraph (kind : GraphKind) (session : Session) :
    Gives (task.scanGraph kind) session (graphOf (task.workspaceIn session.tree).scanProject.1
      (task.workspaceIn session.tree).scanComponents.1 kind) := by
  cases kind <;> exact ⟨_, rfl⟩

theorem gives_importsReport (session : Session) :
    Gives task.importsReport session (task.textOn format session.tree .imports) :=
  ⟨_, rfl⟩

theorem gives_directoriesReport (session : Session) :
    Gives task.directoriesReport session (task.textOn format session.tree .directories) :=
  ⟨_, rfl⟩

theorem gives_packagesReport (session : Session) :
    Gives task.packagesReport session (task.textOn format session.tree .packages) :=
  exists_run_informIf _ _ _ (fun _ => pure (task.textOn format session.tree .packages)) _

end Task

end Scans

variable {env : Environment} {options : CommonOptions} {t t' : FileTree} {task : Task}
  {format : GraphFormat} {session : Session} {written : Set Location}

namespace Task

/-- The run of a command for one report. -/
def writeSingle (task : Task) (format : GraphFormat) (destination : Destination) :
    ReportKind → Run Unit
  | .modules => task.writeModules destination
  | .components => task.writeComponents destination
  | .graph kind => task.writeGraph kind format none destination
  | .imports => task.writeImports destination
  | .directories => task.writeDirectories destination
  | .packages => task.writePackages destination

/-- A report that is asked for on the output is printed. -/
theorem exists_run_writeSingle (task : Task) (format : GraphFormat) (kind : ReportKind)
    (session : Session) :
    ∃ messages, (task.writeSingle format { toOutput := true } kind).run session =
      (.ok (), { session with
        output := session.output ++ task.textOn format session.tree kind
        messages := messages }) := by
  have write (kind : ReportKind) (session : Session) :
      (task.writeReport { toOutput := true } (task.file format kind)
        (task.textOn format session.tree kind)).run session = (.ok (), { session with
          output := session.output ++ task.textOn format session.tree kind }) := rfl
  cases kind with
  | modules =>
    obtain ⟨scanned, ran⟩ := (task.gives_scanProject session).run_bind _
    obtain ⟨messages, ran'⟩ := exists_run_informIf
      ((task.workspaceIn session.tree).scanProject.1.modules = []) task.isQuiet
      "No modules found" _ _
    exact ⟨messages, ran.trans (ran'.trans (write .modules _))⟩
  | components =>
    obtain ⟨scanned, ran⟩ := (task.gives_scanComponents session).run_bind _
    obtain ⟨messages, ran'⟩ := exists_run_informIf
      ((task.workspaceIn session.tree).scanComponents.1.components.isEmpty = true) task.isQuiet
      "No components found" _ _
    exact ⟨messages, ran.trans (ran'.trans (write .components _))⟩
  | graph kind =>
    obtain ⟨scanned, ran⟩ := (task.gives_scanGraph kind session).run_bind _
    obtain ⟨messages, ran'⟩ := (gives_inform task.isQuiet _ _).run_bind _
    exact ⟨messages, ran.trans (ran'.trans (write (.graph kind) _))⟩
  | imports =>
    obtain ⟨messages, ran⟩ := (task.gives_importsReport format session).run_bind _
    exact ⟨messages, ran.trans (write .imports _)⟩
  | directories =>
    obtain ⟨messages, ran⟩ := (task.gives_directoriesReport format session).run_bind _
    exact ⟨messages, ran.trans (write .directories _)⟩
  | packages =>
    obtain ⟨messages, ran⟩ := (task.gives_packagesReport format session).run_bind _
    exact ⟨messages, ran.trans (write .packages _)⟩

end Task

/-- A report is asked for on the output. -/
def printInvocation (options : CommonOptions) (format : GraphFormat) (kind : ReportKind) :
    Invocation :=
  ⟨kind.command format { toOutput := true }, options⟩

theorem run_printInvocation (env : Environment) (options : CommonOptions) (format : GraphFormat)
    (kind : ReportKind) :
    (printInvocation options format kind).run env =
      Task.ofOptions env options >>= fun task =>
        task.writeSingle format { toOutput := true } kind := by
  cases kind <;> rfl

theorem Starts.run_ofOptions (starts : Starts env options t task) :
    (Task.ofOptions env options).run ⟨t, "", ""⟩ = (.ok task, ⟨t, "", ""⟩) := by
  obtain ⟨located, loaded⟩ := starts.steps
  obtain ⟨session, ran⟩ := starts
  rw [ran]
  rw [Task.ofOptions, run_bind_of_ok located, run_bind_of_ok loaded] at ran
  exact congrArg _ (Prod.mk.inj ran).2.symm

theorem Starts.printOutcome (starts : Starts env options t task) (format : GraphFormat)
    (kind : ReportKind) :
    ∃ messages, (Request.run (printInvocation options format kind)).outcome env t =
      ⟨0, ⟨t, task.textOn format t kind, messages⟩⟩ := by
  obtain ⟨messages, printed⟩ := task.exists_run_writeSingle format kind ⟨t, "", ""⟩
  refine ⟨messages, outcome_of_ok ?_⟩
  rw [run_printInvocation, run_bind_of_ok starts.run_ofOptions, printed, String.empty_append]

theorem Starts.exists_at?_root (starts : Starts env options t task) :
    ∃ e, t.root.at? task.root = some e := by
  have located := starts.steps.1
  rw [workspaceRoot, run_bind_of_ok (run_tree _)] at located
  split at located
  · split at located
    case h_1 path _ root entries found =>
      obtain rfl := Except.ok.inj (Prod.mk.inj located).1
      exact ⟨_, FileTree.at?_of_locate found⟩
    case h_2 => cases (Prod.mk.inj located).1
  · split at located
    case h_1 root e found =>
      obtain rfl := Except.ok.inj (Prod.mk.inj located).1
      exact ⟨e, FileTree.at?_of_locate found⟩
    case h_2 => cases (Prod.mk.inj located).1

namespace Task

/-- No file of the kinds that are scanned is among some places. -/
def SparesSources (places : Set Location) : Prop :=
  ∀ place ∈ places, FileKind.isTypeScript place.path = false ∧
    FileKind.isManifest place.path = false

variable {e : Entry} {p : Project} {h : Hierarchy} {kind : ReportKind}

theorem textFrom_after (proper : t.root.Proper) (here : t.root.at? task.root = some e)
    (plain : ∀ place e, t.root.at? place = some e → IsPlain place) (grows : Grows written t t')
    (spares : SparesSources written) (other : kind ≠ .directories) :
    task.textFrom format p h t' kind = task.textFrom format p h t kind := by
  cases kind with
  | modules | components | graph => rfl
  | imports =>
    have census : (task.workspaceIn t').importCensus = (task.workspaceIn t).importCensus :=
      Workspace.importCensus_after proper here grows plain fun place mem => (spares place mem).1
    exact congrArg (Report.imports _) census
  | directories => exact absurd rfl other
  | packages =>
    have summary : (task.workspaceIn t').scanPackages = (task.workspaceIn t).scanPackages :=
      Workspace.scanPackages_after proper here grows plain fun place mem => (spares place mem).2
    exact congrArg Report.packages summary

theorem textFrom_directories {t'' : FileTree}
    (same : (task.workspaceIn t').directories = (task.workspaceIn t'').directories) :
    task.textFrom format p h t' .directories = task.textFrom format p h t'' .directories :=
  congrArg (Report.directories _) same

end Task

end AngularAtlas.CommandLine
