import AngularAtlas.Text.Blank
import AngularAtlas.Text.Case
import AngularAtlas.Text.Search

namespace AngularAtlas.Source

open AngularAtlas.Text

/-- Reads a quoted text that is not empty and holds no quote; the quotes need not match. -/
def quotedSpecifier? : List Char → Option (List Char × List Char)
  | [] => none
  | q :: r => do
    let isQuote := fun c => c == '\'' || c == '"'
    guard (isQuote q)
    let specifier := r.takeWhile (!isQuote ·)
    guard (specifier ≠ [])
    let rest ← (r.dropWhile (!isQuote ·)).tail?
    return (specifier, rest)

def requireCall? : Reader (List Char) := fun _ s => do
  let s ← afterIgnoringCase? "require".toList (← skipBlanks1? s)
  let s ← afterChar? '(' (skipBlanks s)
  let (specifier, s) ← quotedSpecifier? (skipBlanks s)
  return (specifier, ← afterChar? ')' (skipBlanks s))

def fromClause? : Reader (List Char) := fun _ s => do
  let s ← afterIgnoringCase? "from".toList (← skipBlanks1? s)
  quotedSpecifier? (← skipBlanks1? s)

/-- The specifier imported on a line. A `require` counts before a `from`. -/
def importOnLine? (line : List Char) : Option (List Char) :=
  ((findFirst? requireCall? line).or (findFirst? fromClause? line)).map (·.1)

def dropReturn (line : List Char) : List Char :=
  if line.getLast? = some '\r' then line.dropLast else line

def textLines (s : List Char) : List (List Char) :=
  let pieces := s.splitOn '\n'
  pieces.dropLast.map dropReturn ++ (pieces.getLast?.filter (· ≠ [])).toList

def importsIn (content : List Char) : List String :=
  ((textLines content).filterMap importOnLine?).map String.ofList

end AngularAtlas.Source
