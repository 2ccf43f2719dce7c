import AngularAtlas.Source.Bracket
import AngularAtlas.Text.Blank
import AngularAtlas.Text.Search
import AngularAtlas.Text.Word

namespace AngularAtlas.Source

open AngularAtlas.Text

inductive MemberKind where
  | input
  | output
  | viewChild
  | viewChildren
  | contentChild
  | contentChildren
deriving Repr, DecidableEq

namespace MemberKind

def all : List MemberKind :=
  [.input, .output, .viewChild, .viewChildren, .contentChild, .contentChildren]

def decorator : MemberKind → String
  | .input => "Input"
  | .output => "Output"
  | .viewChild => "ViewChild"
  | .viewChildren => "ViewChildren"
  | .contentChild => "ContentChild"
  | .contentChildren => "ContentChildren"

def function : MemberKind → String
  | .input => "input"
  | .output => "output"
  | .viewChild => "viewChild"
  | .viewChildren => "viewChildren"
  | .contentChild => "contentChild"
  | .contentChildren => "contentChildren"

def heading : MemberKind → String
  | .input => "Inputs"
  | .output => "Outputs"
  | .viewChild => "ViewChilds"
  | .viewChildren => "ViewChildren"
  | .contentChild => "ContentChilds"
  | .contentChildren => "ContentChildren"

def ofDecorator? (name : String) : Option MemberKind := all.find? (·.decorator == name)

def ofFunction? (name : String) : Option MemberKind := all.find? (·.function == name)

end MemberKind

def memberDecorator? : Reader (MemberKind × List Char) := fun _ s => do
  let s ← afterChar? '@' s
  MemberKind.all.findSome? fun kind => do
    let s := skipBlanks (← kind.decorator.toList.isPrefixOf? s)
    let rest ← afterChar? '(' s
    return ((kind, s), rest)

def modifierWords : List (List Char) :=
  ["public".toList, "private".toList, "protected".toList, "readonly".toList, "override".toList,
    "declare".toList, "static".toList, "accessor".toList, "set".toList, "get".toList]

def modifier? (s : List Char) : Option (List Char × List Char) :=
  modifierWords.findSome? fun word => do
    return (word, ← skipBlanks1? (← word.isPrefixOf? s))

/-- The name after any modifiers. Where no name follows, the last modifier is the name. -/
def nameAfterModifiers? (s : List Char) : Option (List Char) :=
  match _h : modifier? s with
  | some (word, rest) =>
    if _shorter : rest.length < s.length then some ((nameAfterModifiers? rest).getD word) else none
  | none => (identifier? s).map (·.1)
termination_by s.length

def skipArguments (s : List Char) : List Char :=
  match afterChar? '(' s with
  | none => s
  | some r => (afterChar? ')' (r.dropWhile (· != ')'))).getD s

def decorator? (s : List Char) : Option (List Char × List Char) := do
  let s ← afterChar? '@' s
  let word := s.takeWhile isWord
  guard (word ≠ [])
  return (word, skipBlanks (skipArguments (skipBlanks (s.dropWhile isWord))))

/-- The shortest name that ends a decorator's word without being all of it. -/
def nameInside? (word : List Char) : Option (List Char) :=
  match word with
  | [] => none
  | _ :: r => go r
where
  go : List Char → Option (List Char)
    | [] => none
    | c :: r =>
      match go r with
      | some name => some name
      | none => if isNameStart c then some (c :: r) else none

/-- The name of the member declared at the start of the text, after further decorators. Where no
name follows them, the end of the last decorator's own word that can be a name is taken. -/
def memberName? (s : List Char) : Option (List Char) :=
  match _h : decorator? s with
  | some (word, rest) =>
    if _shorter : rest.length < s.length then (memberName? rest).or (nameInside? word) else none
  | none => nameAfterModifiers? s
termination_by s.length

def decoratedMembers (kind : MemberKind) (body : List Char) : List (List Char) :=
  ((findAll memberDecorator? body).filterMap fun (found, s) =>
    if found = kind then (balanced? s).bind fun (_, rest) => memberName? (skipBlanks rest)
    else none).eraseDups

/-- Reads `name = function(` or `name = function<`, possibly with `.required`. -/
def signalMember? : Reader (MemberKind × List Char) := fun _ s => do
  let (name, s) ← identifier? s
  let s ← afterChar? '=' (skipBlanks s)
  let s := skipBlanks s
  MemberKind.all.findSome? fun kind => do
    let s ← kind.function.toList.isPrefixOf? s
    let s := skipBlanks ((".required".toList.isPrefixOf? s).getD s)
    let rest ← (afterChar? '<' s).or (afterChar? '(' s)
    return ((kind, name), rest)

def signalMembers (kind : MemberKind) (body : List Char) : List (List Char) :=
  ((findAll signalMember? body).filterMap fun (found, name) =>
    if found = kind then some name else none).eraseDups

def members (kind : MemberKind) (body : List Char) : List (List Char) :=
  (decoratedMembers kind body ++ signalMembers kind body).eraseDups

end AngularAtlas.Source
