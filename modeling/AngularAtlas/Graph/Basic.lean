import AngularAtlas.Table

/-!
Directed graphs of named things. Each node has an id of its own, and each ordered pair of nodes
is connected at most once. A graph stores its nodes and its edges in the order in which they were
added. An index leads from an id to the place of its node, and the node leads to the places of its
edges.
-/

namespace AngularAtlas

inductive NodeKind where
  | unknown
  | root
  | component
  | module
  | pipe
  | directive
  | injectable
deriving Repr, DecidableEq, Inhabited

namespace NodeKind

def all : List NodeKind :=
  [.unknown, .root, .component, .module, .pipe, .directive, .injectable]

def name : NodeKind → String
  | .unknown => "None"
  | .root => "RootNode"
  | .component => "Component"
  | .module => "Module"
  | .pipe => "Pipe"
  | .directive => "Directive"
  | .injectable => "Injectable"

def ofName? (name : String) : Option NodeKind := all.find? (·.name == name)

end NodeKind

inductive Relation where
  | unspecified
  /-- The target imports the source. -/
  | imports
  /-- The source exports the target. -/
  | exports
  /-- The source is injected into the target. -/
  | injected
  /-- The source uses the target in its template. -/
  | uses
  /-- The source shows the target in its router outlet. -/
  | routes
deriving Repr, DecidableEq, Inhabited

namespace Relation

def all : List Relation := [.unspecified, .imports, .exports, .injected, .uses, .routes]

def name : Relation → String
  | .unspecified => "None"
  | .imports => "Import"
  | .exports => "Export"
  | .injected => "Injectable"
  | .uses => "Uses"
  | .routes => "Route"

def ofName? (name : String) : Option Relation := all.find? (·.name == name)

end Relation

structure Position where
  x : Float
  y : Float
deriving Repr, Inhabited

structure BoundingBox where
  top : Float
  left : Float
  right : Float
  bottom : Float
deriving Repr, Inhabited

def BoundingBox.width (b : BoundingBox) : Float := b.right - b.left

def BoundingBox.height (b : BoundingBox) : Float := b.bottom - b.top

structure Node where
  id : String
  name : String
  kind : NodeKind
  file : Option String := none
  isRoot : Bool := false
  position : Option Position := none
  bounds : Option BoundingBox := none
  /-- Further values with their labels, in the order in which they were first set. -/
  attributes : List (String × String) := []
deriving Repr, Inhabited

namespace Node

def named (name : String) (kind : NodeKind) : Node := { id := name, name, kind }

def asRoot (n : Node) : Node := { n with isRoot := true, kind := .root }

def attribute? (n : Node) (key : String) : Option String := n.attributes.lookup key

/-- Sets an attribute. One that has a value already keeps its place. -/
def setAttribute (n : Node) (key value : String) : Node :=
  { n with
    attributes :=
      if n.attributes.any (·.1 == key) then
        n.attributes.map fun (k, v) => (k, if k = key then value else v)
      else n.attributes ++ [(key, value)] }

end Node

structure Edge where
  number : Nat
  source : String
  target : String
  relation : Relation
deriving Repr, DecidableEq, Inhabited

/-- The id of an edge is the decimal of its number. -/
def Edge.id (e : Edge) : String := toString e.number

def Edge.title (e : Edge) : String :=
  match e.relation with
  | .imports => e.target ++ " imports " ++ e.source
  | .exports => e.source ++ " exports " ++ e.target
  | .injected => e.source ++ " injected into " ++ e.target
  | .uses => e.source ++ " uses " ++ e.target
  | .routes => e.source ++ " routes to " ++ e.target
  | .unspecified => ""

inductive Direction where
  | outgoing
  | incoming
deriving Repr, DecidableEq

namespace Edge

/-- The id at the end from which an edge is seen when edges of a direction are looked for. -/
def near (e : Edge) : Direction → String
  | .outgoing => e.source
  | .incoming => e.target

def far (e : Edge) : Direction → String
  | .outgoing => e.target
  | .incoming => e.source

end Edge

/-- A stored node with the places of its edges, in each direction the most recent first. -/
structure Vertex where
  node : Node
  outgoing : List Nat := []
  incoming : List Nat := []
deriving Repr, Inhabited

namespace Vertex

def arcs (v : Vertex) : Direction → List Nat
  | .outgoing => v.outgoing
  | .incoming => v.incoming

def attach (v : Vertex) (d : Direction) (place : Nat) : Vertex :=
  match d with
  | .outgoing => { v with outgoing := place :: v.outgoing }
  | .incoming => { v with incoming := place :: v.incoming }

end Vertex

structure Arc where
  edge : Edge
  source : Nat
  target : Nat
deriving Repr, DecidableEq, Inhabited

namespace Arc

def near (a : Arc) : Direction → Nat
  | .outgoing => a.source
  | .incoming => a.target

def far (a : Arc) : Direction → Nat
  | .outgoing => a.target
  | .incoming => a.source

end Arc

/-- Places are counted from zero. -/
structure Graph where
  name : String
  index : Table Nat := .empty
  vertices : List Vertex := []
  arcs : List Arc := []
deriving Inhabited

namespace Graph

def nodes (g : Graph) : List Node := g.vertices.map (·.node)

def edges (g : Graph) : List Edge := g.arcs.map (·.edge)

def nodeIndex? (g : Graph) (id : String) : Option Nat := g.index.get? id

def hasNode (g : Graph) (id : String) : Bool := g.index.contains id

def node? (g : Graph) (id : String) : Option Node :=
  (g.nodeIndex? id).bind fun place => g.vertices[place]?.map (·.node)

/-- Adds a node, unless there is one with its id, and gives the place of the node with this id. -/
def appendNode (g : Graph) (n : Node) : Nat × Graph :=
  match g.nodeIndex? n.id with
  | some place => (place, g)
  | none =>
    (g.vertices.length, { g with
      index := g.index.insert n.id g.vertices.length
      vertices := g.vertices ++ [{ node := n }] })

def addNode (g : Graph) (n : Node) : Graph := (g.appendNode n).2

def modifyNode (g : Graph) (id : String) (f : Node → Node) : Graph :=
  match g.nodeIndex? id with
  | some place =>
    { g with vertices := g.vertices.modify place fun v => { v with node := f v.node } }
  | none => g

def roots (g : Graph) : List Node := g.nodes.filter (·.isRoot)

/-- The place of the edge from one node to another, found among the edges that leave the first. -/
def findArc? (g : Graph) (source target : Nat) : Option Nat :=
  g.vertices[source]?.bind fun v =>
    v.outgoing.find? fun place => g.arcs[place]?.any (·.target == target)

def freeEnds? (g : Graph) (source target : String) : Option (Nat × Nat) :=
  match g.nodeIndex? source, g.nodeIndex? target with
  | some i, some j => if (g.findArc? i j).isSome then none else some (i, j)
  | _, _ => none

def canConnect (g : Graph) (source target : String) : Bool := (g.freeEnds? source target).isSome

def connect (g : Graph) (e : Edge) (source target : Nat) : Graph :=
  { g with
    vertices := (g.vertices.modify source (·.attach .outgoing g.arcs.length)).modify target
      (·.attach .incoming g.arcs.length)
    arcs := g.arcs ++ [⟨e, source, target⟩] }

/-- Connects two nodes, where this can be done, and gives the place of the new edge. Edges are
numbered from one. -/
def appendEdge (g : Graph) (source target : String) (relation : Relation) : Option Nat × Graph :=
  match g.freeEnds? source target with
  | some (i, j) =>
    (some g.arcs.length, g.connect ⟨g.arcs.length + 1, source, target, relation⟩ i j)
  | none => (none, g)

def addEdge (g : Graph) (source target : String) (relation : Relation) : Graph :=
  (g.appendEdge source target relation).2

def hasEdge (g : Graph) (source target : String) : Bool :=
  match g.nodeIndex? source, g.nodeIndex? target with
  | some i, some j => (g.findArc? i j).isSome
  | _, _ => false

/-- Two when there is an edge in the opposite direction, else one. -/
def mutualCount (g : Graph) (e : Edge) : Nat := if g.hasEdge e.target e.source then 2 else 1

def arcsAt (g : Graph) (d : Direction) (place : Nat) : List Arc :=
  match g.vertices[place]? with
  | some v => (v.arcs d).filterMap (g.arcs[·]?)
  | none => []

def neighbours (g : Graph) (d : Direction) (id : String) : List (Node × Edge) :=
  match g.nodeIndex? id with
  | some place => (g.arcsAt d place).filterMap fun a =>
      g.vertices[a.far d]?.map fun v => (v.node, a.edge)
  | none => []

def successors (g : Graph) (id : String) : List (Node × Edge) := g.neighbours .outgoing id

def predecessors (g : Graph) (id : String) : List (Node × Edge) := g.neighbours .incoming id

def outgoing (g : Graph) (id : String) : List Edge := (g.successors id).map (·.2)

def incoming (g : Graph) (id : String) : List Edge := (g.predecessors id).map (·.2)

end Graph

end AngularAtlas
