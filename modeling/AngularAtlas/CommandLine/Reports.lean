import AngularAtlas.CommandLine.Command
import AngularAtlas.CommandLine.Session
import AngularAtlas.Export.Dot
import AngularAtlas.Export.Network
import AngularAtlas.Export.Report
import AngularAtlas.Graph.Build
import AngularAtlas.Graph.Components
import AngularAtlas.Graph.Layout
import AngularAtlas.Settings.Files
import AngularAtlas.Workspace.Scan

namespace AngularAtlas.CommandLine

open Run

structure Task where
  root : Location
  settings : Settings
  isQuiet : Bool := false
deriving Inhabited

def workspaceRoot (options : CommonOptions) : Run Location := do
  let t ← tree
  match options.workspace with
  | some path =>
    match t.locate path with
    | .ok (root, .directory _) => return root
    | _ => throw ⟨"Workspace '" ++ path ++ "' is not a directory", []⟩
  | none =>
    match t.locate t.workingDirectory with
    | .ok (root, _) => return root
    | .error e => throw ⟨"Failed to get current directory", [e.message]⟩

def settingsFailure (what : String) (e : SettingsError) : Failure :=
  ⟨what, e.message :: e.cause?.toList⟩

def settingsFileFailure (path : String) : SettingsError → Failure :=
  settingsFailure ("Failed to load config file " ++ path)

def Environment.userSettings (env : Environment) : UserSettings where
  directory := Path.join env.home Settings.directoryName

def loadSettings (env : Environment) (options : CommonOptions) (root : Location) :
    Run Settings := do
  let t ← tree
  match options.settingsFile with
  | some path => orFail (settingsFileFailure path) (Settings.loadFile t path options.overrides)
  | none =>
    orFail (settingsFailure "Failed to load configuration")
      (env.userSettings.loadFor t root.path options.overrides).1

def Task.ofOptions (env : Environment) (options : CommonOptions) : Run Task := do
  let root ← workspaceRoot options
  return ⟨root, ← loadSettings env options root, options.isQuiet⟩

namespace Task

def workspace (task : Task) : Run Workspace :=
  return ⟨← tree, task.root, task.settings.excludes⟩

def outputPath (task : Task) (file : String) : String :=
  task.settings.outputPath task.root.path file

def inform (task : Task) (line : String) : Run Unit := Run.inform task.isQuiet line

/-- Writes a report to its destination; `file` is the one for it by the settings. -/
def writeReport (task : Task) (destination : Destination) (file text : String) : Run Unit :=
  if destination.toOutput then print text
  else writeFile task.isQuiet (destination.file.getD (task.outputPath file)) text

def scanProject (task : Task) : Run Project := do
  let (p, issues) := (← task.workspace).scanProject
  warn (Report.issues "modules" issues)
  return p

def scanComponents (task : Task) : Run Hierarchy := do
  let (h, issues) := (← task.workspace).scanComponents
  warn (Report.issues "files" issues)
  return h

def importsReport (task : Task) : Run String := do
  let w ← task.workspace
  return Report.imports w.rootPath w.importCensus

def directoriesReport (task : Task) : Run String := do
  let w ← task.workspace
  return Report.directories w.rootPath w.directories

def packagesReport (task : Task) : Run String := do
  let s := (← task.workspace).scanPackages
  warn (Report.issues "package.json files" s.issues)
  if s.isEmpty then task.inform "No dependencies found"
  return Report.packages s

def graphFile (task : Task) (kind : GraphKind) (format : GraphFormat) : String :=
  let stem := task.settings.text <| match kind with
    | .modules => .moduleGraphFile
    | .components => .componentGraphFile
    | .injection => .injectionGraphFile
  stem ++ "." ++ format.name

def graphText (task : Task) (format : GraphFormat) (g : Graph) : String :=
  match format with
  | .dgml => Dgml.document task.settings.dgmlOptions task.settings.graphStyle g
  | .dot => Dot.document task.settings.graphStyle g
  | .json => Network.document task.settings.graphStyle g

def scanGraph (task : Task) : GraphKind → Run Graph
  | .modules => return .ofModules (← task.scanProject)
  | .components => return .ofHierarchy (← task.scanComponents)
  | .injection => return .ofInjection (← task.scanProject)

def applyLayout (task : Task) (path : String) (g : Graph) : Run Graph := do
  let failure := Failure.mk ("Failed to read layout " ++ path)
  let text ← orFail (fun e => failure [fileText path e, e.message]) ((← tree).readText path)
  match Placement.readAll? text with
  | none => throw (failure ["JSON error: " ++ Manifest.errorText, Manifest.errorText])
  | some layout =>
    let g := g.applyLayout layout
    task.inform ("Applied layout to " ++ toString (g.placedCount layout) ++ " of " ++
      toString g.nodes.length ++ " nodes")
    return g

def writeModules (task : Task) (destination : Destination) : Run Unit := do
  let p ← task.scanProject
  if p.modules = [] then task.inform "No modules found"
  task.writeReport destination (task.settings.text .modulesFile) (Report.modules p)

def writeComponents (task : Task) (destination : Destination) : Run Unit := do
  let h ← task.scanComponents
  if h.components.isEmpty then task.inform "No components found"
  task.writeReport destination (task.settings.text .componentsFile) (Report.components h)

def writeGraph (task : Task) (kind : GraphKind) (format : GraphFormat) (layout : Option String)
    (destination : Destination) : Run Unit := do
  let g ← task.scanGraph kind
  let g ← match layout with
    | none => pure g
    | some path => task.applyLayout path g
  task.inform (g.name ++ ": " ++ toString g.nodes.length ++ " nodes, " ++
    toString g.edges.length ++ " edges")
  task.writeReport destination (task.graphFile kind format) (task.graphText format g)

def writeImports (task : Task) (destination : Destination) : Run Unit := do
  task.writeReport destination (task.settings.text .importsFile) (← task.importsReport)

def writeDirectories (task : Task) (destination : Destination) : Run Unit := do
  task.writeReport destination (task.settings.text .directoriesFile) (← task.directoriesReport)

def writePackages (task : Task) (destination : Destination) : Run Unit := do
  task.writeReport destination (task.settings.text .packagesFile) (← task.packagesReport)

/-- Writes every report and graph. The imports, directories and packages are those after the other
files are written. -/
def writeAll (task : Task) (format : GraphFormat) : Run Unit := do
  let p ← task.scanProject
  let h ← task.scanComponents
  task.writeReport {} (task.settings.text .modulesFile) (Report.modules p)
  task.writeReport {} (task.settings.text .componentsFile) (Report.components h)
  for kind in GraphKind.all do
    let g := match kind with
      | .modules => Graph.ofModules p
      | .components => Graph.ofHierarchy h
      | .injection => Graph.ofInjection p
    task.writeReport {} (task.graphFile kind format) (task.graphText format g)
  task.writeImports {}
  task.writeDirectories {}
  task.writePackages {}
  task.inform ("Reports written to " ++ task.settings.outputDirectory task.root.path)

end Task

end AngularAtlas.CommandLine
