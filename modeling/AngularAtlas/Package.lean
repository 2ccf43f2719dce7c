import AngularAtlas.Issue
import AngularAtlas.Json.Reader

namespace AngularAtlas

structure Manifest where
  dependencies : Table Json := .empty
  devDependencies : Table Json := .empty
  peerDependencies : Table Json := .empty

instance : Inhabited Manifest := ⟨{}⟩

namespace Manifest

/-- The levels of nesting that a version may have inside a manifest. -/
def versionDepth : Nat := Json.maxDepth - 2

def versions? : Option Json.Tree → Option (Table Json)
  | none => some .empty
  | some (.object fields) => do
    let fields ← fields.mapM fun (key, t) => do
      return (String.ofList (← Json.decodeUnits? key), ← t.value? versionDepth)
    return .ofList fields
  | some _ => none

def ofText? (text : String) : Option Manifest := do
  let t ← Json.Tree.ofText? text
  match ← t.record? ["dependencies", "devDependencies", "peerDependencies"] with
  | [dependencies, dev, peer] =>
    return {
      dependencies := ← versions? dependencies
      devDependencies := ← versions? dev
      peerDependencies := ← versions? peer }
  | _ => none

def errorText : String := "<json error>"

end Manifest

/-- A version as it is listed: a text as it is, anything else as JSON. -/
def versionText : Json → String
  | .text s => s
  | value => value.compact

def commaPieces : List Char → List (List Char)
  | [] => [[]]
  | ',' :: ' ' :: r => [] :: commaPieces r
  | c :: r => (commaPieces r).modifyHead (c :: ·)

structure PackageSummary where
  dependencies : Table Unit := .empty
  devDependencies : Table Unit := .empty
  peerDependencies : Table Unit := .empty
  /-- The different versions declared for each package, with commas between them. -/
  versions : Table String := .empty
  issues : List Issue := []

instance : Inhabited PackageSummary := ⟨{}⟩

namespace PackageSummary

/-- Takes note of a version, unless it stands among the versions already. -/
def recordVersion (versions : Table String) (package version : String) : Table String :=
  match versions.get? package with
  | none => versions.insert package version
  | some known =>
    if (commaPieces known.toList).contains version.toList then versions
    else versions.insert package (known ++ ", " ++ version)

def recordAll (versions : Table String) (group : Table Json) : Table String :=
  group.entries.foldl (fun t (package, version) => recordVersion t package (versionText version))
    versions

def addNames (names : Table Unit) (group : Table Json) : Table Unit :=
  group.names.foldl (fun t name => t.insert name ()) names

/-- Adds a manifest: development dependencies first, then regular ones, then peers. -/
def add (s : PackageSummary) (m : Manifest) : PackageSummary :=
  { s with
    devDependencies := addNames s.devDependencies m.devDependencies
    dependencies := addNames s.dependencies m.dependencies
    peerDependencies := addNames s.peerDependencies m.peerDependencies
    versions := recordAll (recordAll (recordAll s.versions m.devDependencies) m.dependencies)
      m.peerDependencies }

def version (s : PackageSummary) (package : String) : String :=
  (s.versions.get? package).getD ""

def isEmpty (s : PackageSummary) : Bool :=
  s.dependencies.isEmpty && s.devDependencies.isEmpty && s.peerDependencies.isEmpty

def sortedNames (names : Table Unit) : List String :=
  let key := fun (name : String) => String.ofList (name.toList.filter (· != '@'))
  ((names.names.map fun name => (key name, name)).mergeSort fun a b => decide (a.1 ≤ b.1)).map (·.2)

end PackageSummary

end AngularAtlas
