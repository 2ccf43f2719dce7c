import AngularAtlas.Component.Hierarchy
import AngularAtlas.Package
import AngularAtlas.Project
import AngularAtlas.Text.Basename

namespace AngularAtlas.Report

open Source (NgModule)

def escapeCell (s : String) : String :=
  String.ofList (s.toList.flatMap fun c => if c = '|' then "&#124;".toList else [c])

/-- A list as it is written in a cell of a table, ordered by the last segments of its items. -/
def listCell (items : List String) : String :=
  ",<br>".intercalate ((Text.sortByBasename items).map escapeCell)

def row (cells : List String) : String := "| " ++ " | ".intercalate cells ++ " |\n"

def moduleRow (m : NgModule) : String := row (m.name :: m.counts.map toString)

def moduleLists (m : NgModule) : List (String × List String) :=
  [("Declarations", m.declarations), ("Imports", m.imports), ("Exports", m.exports),
    ("Bootstrap", m.bootstrap), ("Providers", m.providers),
    ("Entry components", m.entryComponents)]

def moduleSection (m : NgModule) : String :=
  "## " ++ m.name ++ "\n\nFilename: " ++ m.file ++ "\n\n" ++
  "| Section | Classes, service, modules |\n| ---- |:-----------|\n" ++
  String.join ((moduleLists m).map fun (label, items) => row [label, listCell items]) ++ "\n"

def modules (p : Project) : String :=
  "# Modules\n\n## Modules in workspace\n\n" ++
  "| Module | Declarations | Imports | Exports | Bootstrap | Providers | Entry points |\n" ++
  "| ---| --- | --- | --- | --- | --- | --- |\n" ++
  String.join (p.modules.map moduleRow) ++ "\n" ++ String.join (p.modules.map moduleSection)

def linkLine (step : Hierarchy.Step) : String :=
  match step.parent with
  | none => ""
  | some (parent, _) => "    " ++ parent.key ++ "-->" ++ step.component.key ++ "\n"

def components (h : Hierarchy) : String :=
  "# Component hierarchy\n\n\x60\x60\x60mermaid\ngraph TD;\n" ++
  String.join (h.walk.map linkLine) ++
  "\x60\x60\x60\n"

def directories (root : String) (paths : List String) : String :=
  "Project Directory Structure\nWorkspace directory: " ++ root ++ "\n\nDirectories:\n" ++
  String.join (paths.map fun path => Path.relativeTo root path ++ "\n")

def imports (root : String) (counts : List (String × Nat)) : String :=
  "Imports for files in workspace: " ++ root ++ "\n" ++
  "The number following each import in the list is the number of occurrences of the package " ++
  "import.\n\n" ++
  String.join (counts.map fun (specifier, n) => specifier ++ ": " ++ toString n ++ "\n")

def packageTable (s : PackageSummary) (title : String) (names : Table Unit) : String :=
  "## " ++ title ++ "\n\n| Name | Local version |\n| ---- |:-----------|\n" ++
  String.join ((PackageSummary.sortedNames names).map fun name =>
    row [escapeCell name, escapeCell (s.version name)])

def packages (s : PackageSummary) : String :=
  "# Package.json\n\n" ++
  "\n".intercalate
    [packageTable s "Dependencies" s.dependencies,
      packageTable s "Dev dependencies" s.devDependencies,
      packageTable s "Peer dependencies" s.peerDependencies]

def issueText (issue : Issue) : String := "Filename: " ++ issue.file ++ "\n" ++ issue.message

/-- What went wrong with some of the things that were read; nothing when all went well. -/
def issues (what : String) (found : List Issue) : String :=
  if found = [] then ""
  else
    "Parsing of " ++ (if 1 < found.length then "some" else "one") ++ " of the " ++ what ++
    " failed.\n\nBelow is a list of the errors.\n" ++
    String.join (found.map fun issue => issueText issue ++ "\n\n")

end AngularAtlas.Report
