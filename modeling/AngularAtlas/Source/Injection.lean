import AngularAtlas.Source.Bracket
import AngularAtlas.Source.Property
import AngularAtlas.Text.Search

namespace AngularAtlas.Source

open AngularAtlas.Text

def constructorStart? : Reader Unit := fun before s => do
  guard (isBoundary before s)
  let s := skipBlanks (← "constructor".toList.isPrefixOf? s)
  guard (s.head? = some '(')
  return ((), s)

def injectDecorator? : Reader (List Char) := fun _ s => do
  let s ← "@Inject".toList.isPrefixOf? s
  let s ← afterChar? '(' (skipBlanks s)
  match skipBlanks s with
  | [] => none
  | c :: r =>
    guard (isNameStart c)
    let isTokenChar := fun c => isNameChar c || c == '.'
    let s ← afterChar? ')' (skipBlanks (r.dropWhile isTokenChar))
    return (c :: r.takeWhile isTokenChar, s)

def dropArraySuffix (s : List Char) : List Char :=
  (go s.reverse).reverse
where
  go : List Char → List Char
    | ']' :: '[' :: r => go r
    | r => r

/-- The bare dotted name of a type declared: without a default value, further members of a
union, type arguments and array suffixes. -/
def typeName? (declared : List Char) : Option (List Char) :=
  let s := (declared.takeWhile (· != '=')).takeWhile (· != '|')
  let name := trim (dropArraySuffix (stripGenerics s))
  if name ≠ [] ∧ (name.splitOn '.').all isIdentifier then some name else none

/-- What a constructor parameter asks for: the token of its `@Inject`, or else the type after its
last outer colon. -/
def parameterDependency? (parameter : List Char) : Option (List Char) :=
  match findFirst? injectDecorator? parameter with
  | some (token, _) => some token
  | none => (colonSplits 0 parameter).getLast?.bind fun (_, declared) => typeName? declared

/-- What the first constructor of a class body asks for, each once. -/
def constructorDependencies (body : List Char) : List (List Char) :=
  match (findFirst? constructorStart? body).bind fun (_, rest) => balanced? rest with
  | none => []
  | some (parameters, _) => ((elements parameters).filterMap parameterDependency?).eraseDups

def skipTypeArguments? (s : List Char) : Option (List Char) :=
  if s.head? = some '<' then afterChar? '>' (s.dropWhile (· != '>')) else some s

def injectCall? : Reader (List Char) := fun _ s => do
  let s ← afterChar? '=' s
  let s ← "inject".toList.isPrefixOf? (skipBlanks s)
  let s ← skipTypeArguments? (skipBlanks s)
  let s ← afterChar? '(' (skipBlanks s)
  identifier? (skipBlanks s)

def injectCalls (body : List Char) : List (List Char) := (findAll injectCall? body).eraseDups

def dependencies (body : List Char) : List (List Char) :=
  (constructorDependencies body ++ injectCalls body).eraseDups

end AngularAtlas.Source
