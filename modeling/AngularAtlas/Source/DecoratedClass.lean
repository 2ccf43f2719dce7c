import AngularAtlas.Issue
import AngularAtlas.Source.Injection
import AngularAtlas.Source.Member
import AngularAtlas.Source.NgModule

namespace AngularAtlas.Source

open AngularAtlas.Text

inductive Decorator where
  | ngModule
  | component
  | directive
  | pipe
  | injectable
deriving Repr, DecidableEq, Inhabited

namespace Decorator

def name : Decorator → String
  | .ngModule => "NgModule"
  | .component => "Component"
  | .directive => "Directive"
  | .pipe => "Pipe"
  | .injectable => "Injectable"

def ofClasses : List Decorator := [.component, .directive, .pipe, .injectable]

end Decorator

structure DecoratedClass where
  name : String := ""
  file : String := ""
  decorator : Decorator := .component
  /-- The selector as it is written, brackets included. -/
  selector : Option String := none
  templateUrl : Option String := none
  dependencies : List String := []
  inputs : List String := []
  outputs : List String := []
  viewChild : List String := []
  viewChildren : List String := []
  contentChild : List String := []
  contentChildren : List String := []
deriving Repr, DecidableEq, Inhabited

namespace DecoratedClass

def membersOf (c : DecoratedClass) : MemberKind → List String
  | .input => c.inputs
  | .output => c.outputs
  | .viewChild => c.viewChild
  | .viewChildren => c.viewChildren
  | .contentChild => c.contentChild
  | .contentChildren => c.contentChildren

def memberGroups (c : DecoratedClass) : List (String × List String) :=
  (MemberKind.all.map fun kind => (kind.heading, c.membersOf kind)).filter (·.2 ≠ [])

end DecoratedClass

structure ParsedFile where
  modules : List NgModule := []
  classes : List DecoratedClass := []
  issues : List Issue := []
deriving Repr, Inhabited

def skipKeyword (word : List Char) (s : List Char) : List Char :=
  ((afterIgnoringCase? word s).bind skipBlanks1?).getD s

def classHead? (s : List Char) : Option (List Char × List Char) := do
  let s ← afterChar? ')' (skipBlanks s)
  let s ← afterIgnoringCase? "export".toList (skipBlanks s)
  let s := skipKeyword "default".toList (← skipBlanks1? s)
  let s ← afterIgnoringCase? "class".toList (skipKeyword "abstract".toList s)
  let s ← skipBlanks1? s
  let name := s.takeWhile isWord
  guard (name ≠ [])
  return (name, s.dropWhile isWord)

structure Finding where
  metadata : Option (List Char)
  name : List Char
  rest : List Char

/-- The metadata up to the first closing brace that a class head follows. -/
def metadataThenHead? : List Char → Option Finding
  | [] => none
  | c :: r =>
    match if c = '}' then classHead? r else none with
    | some (name, rest) => some ⟨some ['}'], name, rest⟩
    | none =>
      (metadataThenHead? r).map fun found =>
        { found with metadata := found.metadata.map (c :: ·) }

/-- Reads a decorator with its class head. Metadata is an object literal that is not empty; the
metadata of an injectable may be empty or left out. -/
def decoratedHead? (decorator : Decorator) : Reader Finding := fun _ s => do
  let s ← afterChar? '@' s
  let s ← afterIgnoringCase? decorator.name.toList s
  let s := skipBlanks (← afterChar? '(' (skipBlanks s))
  let found ← match s with
    | '{' :: r =>
      if decorator = .injectable then
        (metadataThenHead? r).map fun found =>
          { found with metadata := found.metadata.map ('{' :: ·) }
      else match r with
        | [] => none
        | c :: r =>
          (metadataThenHead? r).map fun found =>
            { found with metadata := found.metadata.map ('{' :: c :: ·) }
    | s =>
      if decorator = .injectable then
        (classHead? s).map fun (name, rest) => ⟨none, name, rest⟩
      else none
  return (found, found.rest)

def findings (decorator : Decorator) (content : List Char) : List Finding :=
  findAll (decoratedHead? decorator) content

/-- Reads `key: 'value'` at the start of a word. Any quote ends the value. -/
def quotedValue? (key : List Char) : Reader (List Char) := fun before s => do
  guard (isBoundary before s)
  let s ← afterChar? ':' (skipBlanks (← key.isPrefixOf? s))
  match skipBlanks s with
  | [] => none
  | q :: r =>
    guard (isQuote q)
    match r.dropWhile (!isQuote ·) with
    | [] => none
    | _ :: rest => return (r.takeWhile (!isQuote ·), rest)

def quotedProperty? (key : String) (metadata : List Char) : Option String :=
  (findFirst? (quotedValue? key.toList) metadata).map fun (value, _) =>
    String.ofList (trim value)

def classBody? (s : List Char) : Option (List Char) :=
  (balanced? (s.dropWhile (· != '{'))).map (·.1)

def Finding.toClass (found : Finding) (file : String) (decorator : Decorator) : DecoratedClass :=
  let metadata := removeComments (found.metadata.getD [])
  let body := removeComments ((classBody? found.rest).getD [])
  let members := fun kind => (members kind body).map String.ofList
  { name := String.ofList found.name
    file
    decorator
    selector := quotedProperty? "selector" metadata
    templateUrl := quotedProperty? "templateUrl" metadata
    dependencies := (dependencies body).map String.ofList
    inputs := members .input
    outputs := members .output
    viewChild := members .viewChild
    viewChildren := members .viewChildren
    contentChild := members .contentChild
    contentChildren := members .contentChildren }

def Finding.toModule (found : Finding) (file : String) : Except Issue NgModule :=
  let name := String.ofList found.name
  match NgModule.ofMetadata (found.metadata.getD []) with
  | .ok m =>
    .ok { m with
      name
      file
      isRouting := m.isRouting || "RoutingModule".toList.isSuffixOf found.name }
  | .error e => .error ⟨file, "ModuleName: " ++ name ++ "\nException: " ++ e.message⟩

def ParsedFile.ofText (file : String) (content : List Char) : ParsedFile :=
  let modules := (findings .ngModule content).map (·.toModule file)
  { modules := modules.filterMap fun m => m.toOption
    classes := Decorator.ofClasses.flatMap fun decorator =>
      (findings decorator content).map (·.toClass file decorator)
    issues := modules.filterMap fun
      | .ok _ => none
      | .error issue => some issue }

end AngularAtlas.Source
