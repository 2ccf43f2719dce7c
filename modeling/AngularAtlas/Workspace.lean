import AngularAtlas.FileTree
import AngularAtlas.Text.Case
import AngularAtlas.Text.Utf8

/-!
Workspaces: the directories and files below a root directory, without those directories whose
names are excluded and all that is in them. Symbolic links are neither followed nor listed.
-/

namespace AngularAtlas

def defaultExcludes : List String :=
  ["bin", "obj", "node_modules", "dist", "packages", ".git", ".vs", ".github"]

inductive ScanError where
  | rootNotFound (path : String)
  | unreadable (path : String) (cause : FileError)
deriving Repr, DecidableEq

def ScanError.message : ScanError → String
  | .rootNotFound path => "Root path does not exist or is not a directory: " ++ path
  | .unreadable path cause => "Failed to read " ++ path ++ ": " ++ cause.message

/-- The text of a source file. Bytes that are no text are replaced. -/
def FileTree.readSource (t : FileTree) (path : String) : Except ScanError String :=
  match t.read path with
  | .ok content => .ok (Text.Utf8.decode content)
  | .error cause => .error (.unreadable path cause)

structure Visit where
  location : Location
  isDirectory : Bool
deriving Repr, DecidableEq

mutual

/-- Walks an entry, a directory before what is in it. -/
def walkEntry (excluded : String → Bool) (location : Location) (name : String) :
    Entry → List Visit
  | .directory entries =>
    if excluded name then []
    else ⟨location ++ [name], true⟩ :: walkEntries excluded (location ++ [name]) entries
  | .file _ => [⟨location ++ [name], false⟩]
  | .link _ => []

def walkEntries (excluded : String → Bool) (location : Location) :
    List (String × Entry) → List Visit
  | [] => []
  | (name, entry) :: rest =>
    walkEntry excluded location name entry ++ walkEntries excluded location rest

end

structure Workspace where
  tree : FileTree
  root : Location
  excludes : List String
deriving Inhabited

namespace Workspace

def open? (tree : FileTree) (path : String) (excludes : List String) :
    Except ScanError Workspace :=
  match tree.canonical path with
  | .ok (.found root (.directory _)) => .ok ⟨tree, root, excludes⟩
  | _ => .error (.rootNotFound path)

def rootPath (w : Workspace) : String := w.root.path

def isExcluded (w : Workspace) (name : String) : Bool := w.excludes.contains name

/-- All that is met on a walk below the root; nothing when the root itself is excluded. -/
def visits (w : Workspace) : List Visit :=
  if w.root.getLast?.any w.isExcluded then []
  else match w.tree.root.at? w.root with
    | some (.directory entries) => walkEntries w.isExcluded w.root entries
    | _ => []

def directories (w : Workspace) : List String :=
  (w.visits.filter (·.isDirectory)).map (·.location.path)

def files (w : Workspace) (kind : String → Bool) : List String :=
  ((w.visits.filter (!·.isDirectory)).map (·.location.path)).filter kind

def relative (w : Workspace) (path : String) : String := Path.relativeTo w.rootPath path

end Workspace

namespace FileKind

def nameOf (path : String) : List Char := ((Path.fileName? path).getD "").toList

def endsWithAny (endings : List String) (name : List Char) : Bool :=
  endings.any fun ending => ending.toList.isSuffixOf name

/-- Sources that may hold decorated classes: no barrels, declarations or tests. -/
def isTypeScript (path : String) : Bool :=
  let name := nameOf path
  endsWithAny [".ts"] name && name != "index.ts".toList && !endsWithAny [".d.ts", ".spec.ts"] name

def isComponent (path : String) : Bool := endsWithAny [".component.ts"] (nameOf path)

def isRouting (path : String) : Bool :=
  let name := nameOf path
  endsWithAny ["-routing.module.ts", ".routing.module.ts", ".routing.ts", ".routes.ts"] name ||
    name == "routes.ts".toList

def isManifest (path : String) : Bool := Text.lower (nameOf path) == "package.json".toList

end FileKind

end AngularAtlas
