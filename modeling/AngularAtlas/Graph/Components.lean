import AngularAtlas.Component.Hierarchy
import AngularAtlas.Graph.Basic

namespace AngularAtlas

def Relation.ofChildKind : ChildKind → Relation
  | .template => .uses
  | .route => .routes

namespace Graph

def componentNode (c : Component) : Node :=
  { Node.named c.key .component with file := some c.file }

def addStep (g : Graph) (step : Hierarchy.Step) : Graph :=
  match step.parent with
  | none => g.addNode (componentNode step.component).asRoot
  | some (parent, kind) =>
    (g.addNode (componentNode step.component)).addEdge parent.key step.component.key
      (.ofChildKind kind)

def ofHierarchy (h : Hierarchy) : Graph :=
  h.walk.foldl addStep { name := "ComponentHierarchy" }

end Graph

end AngularAtlas
