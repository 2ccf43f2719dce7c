import AngularAtlas.Census
import AngularAtlas.Component.Hierarchy
import AngularAtlas.Package
import AngularAtlas.Project
import AngularAtlas.Workspace

namespace AngularAtlas

open Source (ParsedFile)

namespace Workspace

def parseFile (w : Workspace) (path : String) : ParsedFile :=
  match w.tree.readSource path with
  | .ok text => .ofText path text.toList
  | .error e => { issues := [⟨path, e.message⟩] }

/-- The modules and classes of a workspace, and what went wrong. Files are read by the order of
their names. -/
def scanProject (w : Workspace) : Project × List Issue :=
  let found := (Text.sortByBasename (w.files FileKind.isTypeScript)).map w.parseFile
  (found.foldl Project.addFile {}, found.flatMap (·.issues))

/-- The files with route tables: those that are named for it, then those that declare one. -/
def routingFiles (w : Workspace) : List String :=
  w.files FileKind.isRouting ++
    (w.files fun path => FileKind.isTypeScript path && !FileKind.isRouting path).filter fun path =>
      match w.tree.readSource path with
      | .ok text => Source.declaresRoutes text.toList
      | .error _ => false

def addComponentFile (w : Workspace) (state : Hierarchy × List Issue) (path : String) :
    Hierarchy × List Issue :=
  match w.tree.readSource path with
  | .error e => (state.1, state.2 ++ [⟨path, e.message⟩])
  | .ok text =>
    match Component.ofText? path text.toList with
    | none => state
    | some c => (state.1.insert c, state.2)

def scanComponents (w : Workspace) : Hierarchy × List Issue :=
  let (h, issues) :=
    (Text.sortByBasename (w.files FileKind.isComponent)).foldl w.addComponentFile ({}, [])
  let (h, routeIssues) := (h.linkTemplates w.tree).linkRoutes w.tree w.routingFiles
  (h, issues ++ routeIssues)

def importCensus (w : Workspace) : List (String × Nat) :=
  Census.ofSources
    ((w.files FileKind.isTypeScript).filterMap fun path => (w.tree.readSource path).toOption)

def addManifestFile (w : Workspace) (s : PackageSummary) (path : String) : PackageSummary :=
  match w.tree.readSource path with
  | .error e => { s with issues := s.issues ++ [⟨path, e.message⟩] }
  | .ok text =>
    match Manifest.ofText? text with
    | none => { s with issues := s.issues ++ [⟨path, Manifest.errorText⟩] }
    | some m => s.add m

def scanPackages (w : Workspace) : PackageSummary :=
  (w.files FileKind.isManifest).foldl w.addManifestFile {}

end Workspace

end AngularAtlas
