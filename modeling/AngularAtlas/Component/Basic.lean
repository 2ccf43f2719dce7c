import AngularAtlas.Path
import AngularAtlas.Source.DecoratedClass

namespace AngularAtlas

open Text Source

/-- How a component came to be a child of another. -/
inductive ChildKind where
  | template
  | route
deriving Repr, DecidableEq, Inhabited

structure Component where
  name : String := ""
  file : String := ""
  templateFile : Option String := none
  inlineTemplate : Option String := none
  /-- The selector without brackets; empty when there is none. -/
  selector : String := ""
  templateChildren : List String := []
  routeChildren : List String := []
  /-- No other component has it as a child. -/
  isRoot : Bool := true
  hasOutlet : Bool := false
deriving Repr, DecidableEq, Inhabited

namespace Component

/-- What a component is known by: its selector, or its class name when it has none. -/
def key (c : Component) : String := if c.selector = "" then c.name else c.selector

def children (c : Component) : List (String × ChildKind) :=
  c.templateChildren.map (·, .template) ++ c.routeChildren.map (·, .route)

def decoratorStart? : Reader Unit := fun _ s => do
  let s := skipBlanks (← "@Component".toList.isPrefixOf? s)
  guard (s.head? = some '(')
  return ((), s)

def skipWord (word : List Char) (s : List Char) : List Char :=
  ((word.isPrefixOf? s).bind skipBlanks1?).getD s

def exportedClass? : Reader (List Char) := fun _ s => do
  let s ← skipBlanks1? (← "export".toList.isPrefixOf? s)
  let s := skipWord "abstract".toList (skipWord "default".toList s)
  identifier? (← skipBlanks1? (← "class".toList.isPrefixOf? s))

def quotedText? (quote : Char) : List Char → Option (List Char × List Char)
  | [] => none
  | c :: r =>
    if c = quote then some ([], r)
    else if c = '\\' then
      match r with
      | [] => none
      | d :: r => (quotedText? quote r).map fun (a, b) => (c :: d :: a, b)
    else (quotedText? quote r).map fun (a, b) => (c :: a, b)

/-- Reads `template: 'text'` at the start of a word. Backslashes mean nothing between backticks. -/
def inlineTemplate? : Reader (List Char) := fun before s => do
  guard (isBoundary before s)
  let s ← afterChar? ':' (skipBlanks (← "template".toList.isPrefixOf? s))
  match skipBlanks s with
  | [] => none
  | q :: r =>
    if q = '\x60' then
      let rest ← (r.dropWhile (· != '\x60')).tail?
      return (r.takeWhile (· != '\x60'), rest)
    else if q = '\'' ∨ q = '"' then quotedText? q r
    else none

def followStep (path : String) (step : List Char) : String :=
  if step = [] ∨ step = ['.'] then path
  else if step = ['.', '.'] then (Path.parent? path).getD path
  else Path.join path (String.ofList step)

/-- The file of a template, whose address is relative to the directory of the source file. -/
def templatePath (file url : String) : String :=
  (url.toList.splitOnP fun c => c == '/' || c == '\\').foldl followStep
    ((Path.parent? file).getD "")

/-- Reads the component of a source file: the first decorator, and the class exported behind it.
A template file goes before an inline template. -/
def ofText? (file : String) (content : List Char) : Option Component := do
  let (_, s) ← findFirst? decoratorStart? (removeComments content)
  let (metadata, rest) ← balanced? s
  let (name, _) ← findFirst? exportedClass? rest
  let selector := (findFirst? (quotedValue? "selector".toList) metadata).map fun (value, _) =>
    trim (value.filter fun c => c != '[' && c != ']')
  let templateFile := (quotedProperty? "templateUrl" metadata).map (templatePath file)
  return {
    name := String.ofList name
    file
    templateFile
    inlineTemplate :=
      if templateFile.isSome then none
      else (findFirst? inlineTemplate? metadata).map fun (text, _) => String.ofList text
    selector := String.ofList (selector.getD []) }

end Component

end AngularAtlas
