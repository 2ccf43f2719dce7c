import AngularAtlas.Graph.Basic

namespace AngularAtlas

/-- Colours are written as the document format takes them; an empty colour is none. -/
structure GraphStyle where
  rootColor : String := "#00FF00"
  /-- The colour of roots in DGML documents, where transparency comes first. -/
  dgmlRootColor : String := "#FF00AA00"
  componentColor : String := "#0288d1"
  moduleColor : String := "#e040fb"
  pipeColor : String := "#ff9800"
  directiveColor : String := "#ffc107"
  injectableColor : String := "#b71c1c"
  importColor : String := "#43a047"
  exportColor : String := "#0288d1"
  injectionColor : String := "#ffc107"
  usesColor : String := "#ab47bc"
  routeColor : String := "#ff0000"
  rootShape : String := "box"
  componentShape : String := "box"
  moduleShape : String := "box"
  pipeShape : String := "box"
  directiveShape : String := "box"
  injectableShape : String := "box"
  arrowHead : String := "triangle"
  maxLabelLength : Option Nat := none
deriving Repr, DecidableEq, Inhabited

namespace GraphStyle

def nodeColor (s : GraphStyle) : NodeKind → String
  | .root => s.rootColor
  | .component => s.componentColor
  | .module => s.moduleColor
  | .pipe => s.pipeColor
  | .directive => s.directiveColor
  | .injectable => s.injectableColor
  | .unknown => ""

def dgmlNodeColor (s : GraphStyle) (kind : NodeKind) : String :=
  if kind = .root then s.dgmlRootColor else s.nodeColor kind

def nodeShape? (s : GraphStyle) : NodeKind → Option String
  | .root => some s.rootShape
  | .component => some s.componentShape
  | .module => some s.moduleShape
  | .pipe => some s.pipeShape
  | .directive => some s.directiveShape
  | .injectable => some s.injectableShape
  | .unknown => none

def edgeColor (s : GraphStyle) : Relation → String
  | .imports => s.importColor
  | .exports => s.exportColor
  | .injected => s.injectionColor
  | .uses => s.usesColor
  | .routes => s.routeColor
  | .unspecified => ""

/-- A name as it is shown: what exceeds the greatest length gives way to three dots. -/
def label (s : GraphStyle) (name : String) : String :=
  match s.maxLabelLength with
  | some max => if max < name.length then String.ofList (name.toList.take max) ++ "..." else name
  | none => name

end GraphStyle

end AngularAtlas
