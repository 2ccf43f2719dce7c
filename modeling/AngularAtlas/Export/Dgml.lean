import AngularAtlas.Decimal.Float
import AngularAtlas.Export.Style
import AngularAtlas.Text.Case

namespace AngularAtlas.Dgml

structure Options where
  direction : String := "LeftToRight"
  layout : String := "Sugiyama"
  zoomLevel : String := "-1"
deriving Repr, DecidableEq, Inhabited

def xmlNamespace : String := "http://schemas.microsoft.com/vs/2009/dgml"

def properties : List (String × String) :=
  [("ComponentFilename", "System.String"),
    ("Background", "System.Windows.Media.Brush"),
    ("GraphDirection", "Microsoft.VisualStudio.Diagrams.Layout.LayoutOrientation"),
    ("GroupLabel", "System.String"),
    ("IsTag", "System.Boolean"),
    ("Label", "System.String"),
    ("Layout", "System.String"),
    ("TargetType", "System.String"),
    ("ValueLabel", "System.String"),
    ("ZoomLevel", "System.String"),
    ("Expression", "System.String")]

def escapeChar : Char → List Char
  | '&' => "&amp;".toList
  | '"' => "&quot;".toList
  | '\'' => "&apos;".toList
  | '<' => "&lt;".toList
  | '>' => "&gt;".toList
  | c => [c]

def escape (s : String) : String := String.ofList (s.toList.flatMap escapeChar)

def element (name : String) (attributes : List (String × String)) : String :=
  "    <" ++ name ++
    String.join (attributes.map fun (key, value) => " " ++ key ++ "=\"" ++ escape value ++ "\"") ++
    " />\n"

def foldId (id : String) : String := String.ofList (Text.lower id.toList)

def firstBy {α κ : Type} [BEq κ] (key : α → κ) : List κ → List α → List α
  | _, [] => []
  | seen, a :: r =>
    if seen.contains (key a) then firstBy key seen r else a :: firstBy key (key a :: seen) r

def shownNodes (g : Graph) : List Node := firstBy (fun n => foldId n.id) [] g.nodes

def shownEdges (g : Graph) : List Edge :=
  firstBy (fun e => (foldId e.source, foldId e.target)) [] g.edges

def boundsText? (n : Node) : Option String := do
  let p ← n.position
  let b ← n.bounds
  return ",".intercalate ([p.x, p.y, b.width, b.height].map Decimal.plainText)

def nodeAttributes (s : GraphStyle) (n : Node) : List (String × String) :=
  [("Label", s.label n.name), ("Id", n.id)] ++
    (match boundsText? n with
      | some bounds => [("Bounds", bounds), ("UseManualLocation", "True")]
      | none => []) ++
    [("Category", n.kind.name)] ++
    (n.file.map fun file => ("ComponentFilename", file)).toList ++
    n.attributes

def linkAttributes (e : Edge) : List (String × String) :=
  [("Source", e.source), ("Target", e.target), ("Category", e.relation.name)]

structure Category where
  id : String
  background : String
  stroke : String
deriving Repr, DecidableEq

/-- The categories in use, in the order in which they are first used: those of all nodes, then
those of all edges. Of two with one id the first counts. -/
def categories (s : GraphStyle) (g : Graph) : List Category :=
  firstBy Category.id []
    (g.nodes.map (fun n => ⟨n.kind.name, s.dgmlNodeColor n.kind, ""⟩) ++
      g.edges.map fun e => ⟨e.relation.name, "", s.edgeColor e.relation⟩)

/-- The element of a category. One without a colour is not written. -/
def categoryElement (c : Category) : String :=
  if c.background = "" ∧ c.stroke = "" then ""
  else
    element "Category" <| [("Id", c.id), ("Label", c.id)] ++
      (if c.background = "" then [] else [("Background", c.background)]) ++
      (if c.stroke = "" then [] else [("Stroke", c.stroke)]) ++
      [("IsTag", "True")]

def part (name : String) (elements : List String) : String :=
  "  <" ++ name ++ ">\n" ++ String.join elements ++ "  </" ++ name ++ ">\n"

def document (o : Options) (s : GraphStyle) (g : Graph) : String :=
  "<?xml version=\"1.0\" encoding=\"utf-8\"?>\n" ++
  "<DirectedGraph GraphDirection=\"" ++ escape o.direction ++ "\" Layout=\"" ++ escape o.layout ++
    "\" ZoomLevel=\"" ++ escape o.zoomLevel ++ "\" xmlns=\"" ++ xmlNamespace ++ "\">\n" ++
  part "Nodes" ((shownNodes g).map fun n => element "Node" (nodeAttributes s n)) ++
  part "Links" ((shownEdges g).map fun e => element "Link" (linkAttributes e)) ++
  part "Categories" ((categories s g).map categoryElement) ++
  part "Properties" (properties.map fun (id, type) =>
    element "Property" [("Id", id), ("DataType", type)]) ++
  "</DirectedGraph>\n"

end AngularAtlas.Dgml
