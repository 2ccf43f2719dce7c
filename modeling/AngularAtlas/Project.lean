import AngularAtlas.Source.DecoratedClass
import AngularAtlas.Table

/-!
A project: the modules and decorated classes of a workspace. Modules keep the order in which
they were found. Classes are known by name within their kind, and the first of a name counts.
-/

namespace AngularAtlas

open Source (NgModule DecoratedClass Decorator ParsedFile)

structure Project where
  modules : List NgModule := []
  components : Table DecoratedClass := .empty
  directives : Table DecoratedClass := .empty
  pipes : Table DecoratedClass := .empty
  injectables : Table DecoratedClass := .empty

instance : Inhabited Project := ⟨{}⟩

namespace Project

/-- The classes with a decorator. Modules are not kept among classes. -/
def classes? (p : Project) : Decorator → Option (Table DecoratedClass)
  | .ngModule => none
  | .component => some p.components
  | .directive => some p.directives
  | .pipe => some p.pipes
  | .injectable => some p.injectables

def addModule (p : Project) (m : NgModule) : Project := { p with modules := p.modules ++ [m] }

/-- A class can be added: it is no module, and none of its kind has its name. -/
def accepts (p : Project) (c : DecoratedClass) : Bool :=
  (p.classes? c.decorator).any fun t => !t.contains c.name

def addClass (p : Project) (c : DecoratedClass) : Project :=
  if p.accepts c then
    match c.decorator with
    | .ngModule => p
    | .component => { p with components := p.components.insert c.name c }
    | .directive => { p with directives := p.directives.insert c.name c }
    | .pipe => { p with pipes := p.pipes.insert c.name c }
    | .injectable => { p with injectables := p.injectables.insert c.name c }
  else p

def addFile (p : Project) (f : ParsedFile) : Project :=
  f.classes.foldl addClass (f.modules.foldl addModule p)

def moduleNames (p : Project) : List String := p.modules.map (·.name)

def module? (p : Project) (name : String) : Option NgModule := p.modules.find? (·.name == name)

def isModule (p : Project) (name : String) : Bool := p.modules.any (·.name == name)

/-- The classes that ask for dependencies: components, directives, pipes and injectables, each in
the order of their names. -/
def requesters (p : Project) : List DecoratedClass :=
  (p.components.values ++ p.directives.values ++ p.pipes.values ++ p.injectables.values).filter
    (·.dependencies ≠ [])

def isEmpty (p : Project) : Bool :=
  p.modules.isEmpty && p.components.isEmpty && p.directives.isEmpty && p.pipes.isEmpty &&
    p.injectables.isEmpty

end Project

end AngularAtlas
