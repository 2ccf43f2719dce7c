import AngularAtlas.Export.Style
import AngularAtlas.Json.Value

namespace AngularAtlas.Network

open Json (Number)

def nodeData (s : GraphStyle) (n : Node) : Json :=
  .object <|
    [("id", .text n.id), ("label", .text (s.label n.name)),
      ("color", .text (s.nodeColor n.kind))] ++
    ((s.nodeShape? n.kind).map fun shape => ("shape", Json.text shape)).toList ++
    (match n.position with
      | some p => [("x", .number (.float p.x)), ("y", .number (.float p.y))]
      | none => [])

/-- How the line of an edge is drawn: curved when there is another in the opposite direction. -/
def lineData (g : Graph) (e : Edge) : Json :=
  if g.mutualCount e = 2 then
    .object [("type", .text "curvedCW"), ("roundness", .number (.float 0.2))]
  else .bool false

def edgeData (s : GraphStyle) (g : Graph) (e : Edge) : Json :=
  .object
    [("from", .text e.source), ("to", .text e.target),
      ("arrows", .object
        [("to", .object [("enabled", .bool true), ("type", .text s.arrowHead)])]),
      ("color", .text (s.edgeColor e.relation)), ("smooth", lineData g e),
      ("title", .text e.title)]

def data (s : GraphStyle) (g : Graph) : Json :=
  .object
    [("nodes", .array (g.nodes.map (nodeData s))), ("edges", .array (g.edges.map (edgeData s g)))]

def document (s : GraphStyle) (g : Graph) : String := (data s g).pretty

end AngularAtlas.Network
