import AngularAtlas.Graph.Basic
import AngularAtlas.Project
import AngularAtlas.Text.Search

namespace AngularAtlas

open Source (Decorator DecoratedClass)

def endsWith (name ending : String) : Bool := ending.toList.isSuffixOf name.toList

/-- What a name found in metadata or in a constructor stands for. Known modules and classes
count before the endings by which names are customarily built; a call such as
`SomeModule.forRoot()` stands for a module. -/
def NodeKind.classify (p : Project) (name : String) : NodeKind :=
  if p.isModule name || endsWith name "Module" || Text.contains "Module.".toList name.toList then
    .module
  else if p.components.contains name || endsWith name "Component" then .component
  else if p.directives.contains name || endsWith name "Directive" then .directive
  else if p.pipes.contains name || endsWith name "Pipe" then .pipe
  else if p.injectables.contains name then .injectable
  else .unknown

def NodeKind.ofDecorator : Decorator → NodeKind
  | .ngModule => .module
  | .component => .component
  | .directive => .directive
  | .pipe => .pipe
  | .injectable => .injectable

namespace Graph

def addLinks (p : Project) (g : Graph) (m : Source.NgModule) : Graph :=
  let g := m.imports.foldl (fun g name =>
    (g.addNode (.named name (.classify p name))).addEdge name m.name .imports) g
  m.exports.foldl (fun g name =>
    (g.addNode (.named name (.classify p name))).addEdge m.name name .exports) g

def ofModules (p : Project) : Graph :=
  let g : Graph := { name := "ModuleHierarchy" }
  let g := p.modules.foldl (fun g m =>
    g.addNode { Node.named m.name .module with file := some m.file }) g
  p.modules.foldl (addLinks p) g

def requesterNode (c : DecoratedClass) : Node :=
  c.memberGroups.foldl (fun n (heading, members) =>
      n.setAttribute heading (", ".intercalate members))
    { Node.named c.name (.ofDecorator c.decorator) with file := some c.file }

/-- What a dependency is shown as; one of which nothing is known is taken for an injectable. -/
def dependencyKind (p : Project) (name : String) : NodeKind :=
  match NodeKind.classify p name with
  | .unknown => .injectable
  | kind => kind

def addDependencies (p : Project) (g : Graph) (c : DecoratedClass) : Graph :=
  c.dependencies.foldl (fun g name =>
    (g.addNode (.named name (dependencyKind p name))).addEdge name c.name .injected) g

def ofInjection (p : Project) : Graph :=
  let g : Graph := { name := "DependencyInjection" }
  let g := p.requesters.foldl (fun g c => g.addNode (requesterNode c)) g
  p.requesters.foldl (addDependencies p) g

end Graph

end AngularAtlas
