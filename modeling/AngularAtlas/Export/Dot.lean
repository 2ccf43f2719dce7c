import AngularAtlas.Decimal.Float
import AngularAtlas.Export.Style
import AngularAtlas.Text.Word

namespace AngularAtlas.Dot

def identifier (id : String) : String :=
  String.ofList (id.toList.map fun c => if Text.isWord c then c else '_')

def escapeChar : Char → List Char
  | '&' => "&amp;".toList
  | '<' => "&lt;".toList
  | '>' => "&gt;".toList
  | c => [c]

def escape (s : String) : String := String.ofList (s.toList.flatMap escapeChar)

/-- The statement of a node. Drawings grow downwards and documents upwards, so the height of a
place changes its sign. -/
def nodeStatement (s : GraphStyle) (n : Node) : String :=
  let color := s.nodeColor n.kind
  let attributes :=
    ["label=<" ++ escape (s.label n.name) ++ ">", "shape=\"box\"", "style=\"filled,rounded\""] ++
      (if color = "" then [] else ["color=\"" ++ color ++ "\""]) ++
      (n.position.map fun p =>
        "pos=\"" ++ Decimal.plainText p.x ++ "," ++ Decimal.plainText (-p.y) ++ "\"").toList
  identifier n.id ++ " [" ++ ", ".intercalate attributes ++ "];"

def edgeStatement (s : GraphStyle) (e : Edge) : String :=
  let color := s.edgeColor e.relation
  identifier e.source ++ " -> " ++ identifier e.target ++
    (if color = "" then "" else " [color=\"" ++ color ++ "\"]") ++ ";"

def document (s : GraphStyle) (g : Graph) : String :=
  "digraph " ++ identifier g.name ++ " \x7b\n   " ++
    "\n   ".intercalate (g.nodes.map (nodeStatement s)) ++ "\n   " ++
    "\n   ".intercalate (g.edges.map (edgeStatement s)) ++ "\n\x7d"

end AngularAtlas.Dot
