import AngularAtlas.Source.Bracket
import AngularAtlas.Text.Blank
import AngularAtlas.Text.Case
import AngularAtlas.Text.Search

namespace AngularAtlas.Source

open AngularAtlas.Text

/-- What a text says about a section: nothing, an array that never closes, or an array with the
given text inside. -/
inductive ArraySection where
  | missing
  | unclosed
  | found (body : List Char)

def sectionStart? (key : List Char) : Reader Unit := fun before s => do
  guard (before.all fun c => !isNameChar c)
  let s ← afterChar? ':' (skipBlanks (← afterIgnoringCase? key s))
  let s := skipBlanks s
  guard (s.head? = some '[')
  return ((), s)

/-- The section of a key: the leftmost place that reads like one decides. -/
def findSection (s key : List Char) : ArraySection :=
  match findFirst? (sectionStart? key) s with
  | none => .missing
  | some (_, rest) =>
    match balanced? rest with
    | none => .unclosed
    | some (body, _) => .found body

def ArraySection.body : ArraySection → List Char
  | .found body => body
  | .missing | .unclosed => []

end AngularAtlas.Source
