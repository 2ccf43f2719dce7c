import AngularAtlas.Graph.Basic
import AngularAtlas.Json.Reader

namespace AngularAtlas

structure Placement where
  id : String
  label : Option String := none
  position : Option Position := none
  bounds : Option BoundingBox := none
deriving Repr, Inhabited

namespace Placement

def floats? (names : List String) (t : Json.Tree) : Option (List Float) := do
  (← t.record? names).mapM fun part => part.bind (·.float?)

def position? (t : Json.Tree) : Option Position := do
  match ← floats? ["x", "y"] t with
  | [x, y] => return ⟨x, y⟩
  | _ => none

def bounds? (t : Json.Tree) : Option BoundingBox := do
  match ← floats? ["top", "left", "right", "bottom"] t with
  | [top, left, right, bottom] => return ⟨top, left, right, bottom⟩
  | _ => none

def ofTree? (t : Json.Tree) : Option Placement := do
  match ← t.record? ["id", "label", "position", "boundingBox"] with
  | [id, label, position, bounds] =>
    return {
      id := ← id.bind (·.text?)
      label := ← Json.optional? (·.text?) label
      position := ← Json.optional? position? position
      bounds := ← Json.optional? bounds? bounds }
  | _ => none

def readAll? (text : String) : Option (List Placement) := do
  match ← Json.Tree.ofText? text with
  | .array items => items.mapM ofTree?
  | _ => none

/-- A node as the placement wants it. What the placement does not say, and an empty label, leave
the node as it is. -/
def apply (p : Placement) (n : Node) : Node :=
  { n with
    name := (p.label.filter (· ≠ "")).getD n.name
    position := p.position.or n.position
    bounds := p.bounds.or n.bounds }

end Placement

namespace Graph

def applyLayout (g : Graph) (layout : List Placement) : Graph :=
  layout.foldl (fun g p => g.modifyNode p.id p.apply) g

def placedCount (g : Graph) (layout : List Placement) : Nat :=
  layout.countP fun p => g.hasNode p.id

end Graph

end AngularAtlas
