import AngularAtlas.Text.CaseTable
import AngularAtlas.Text.Word

namespace AngularAtlas.Text

def CaseRun.image? (run : CaseRun) (n : Nat) : Option Nat :=
  if run.first ≤ n ∧ n ≤ run.last ∧ (n - run.first) % run.step = 0 then
    some (n + run.offset).toNat
  else none

def mapCase (runs : List CaseRun) (c : Char) : Char :=
  ((runs.findSome? (·.image? c.toNat)).map Char.ofNat).getD c

/-- The upper case of a character, which may be several characters. -/
def upperChar (c : Char) : List Char :=
  if c.toNat < 128 then [c.toUpper]
  else match upperExpansions.lookup c.toNat with
    | some codes => codes.map Char.ofNat
    | none => [mapCase upperRuns c]

def upper (s : List Char) : List Char := s.flatMap upperChar

def nextIsCased (s : List Char) : Bool :=
  (s.find? fun c => !inRanges caseIgnorableRanges c).any (inRanges casedRanges)

/-- The lower case of a character. A capital sigma at the end of a word, after a cased character
and not before one, has its final form. -/
def lowerChar (before : List Char) (c : Char) (after : List Char) : List Char :=
  if c.toNat < 128 then [c.toLower]
  else if c = 'Σ' then
    if nextIsCased before && !nextIsCased after then ['ς'] else ['σ']
  else if c = 'İ' then ['i', '\u0307']
  else [mapCase lowerRuns c]

def lowerFrom (before : List Char) : List Char → List Char
  | [] => []
  | c :: r => lowerChar before c r ++ lowerFrom (c :: before) r

def lower (s : List Char) : List Char := lowerFrom [] s

/-- The character that stands for all those that equal `c` when case is ignored. -/
def foldChar (c : Char) : Char :=
  if c.toNat < 128 then c.toLower else mapCase foldRuns c

def afterIgnoringCase? : List Char → List Char → Option (List Char)
  | [], s => some s
  | _ :: _, [] => none
  | c :: w, d :: s => if foldChar c = foldChar d then afterIgnoringCase? w s else none

end AngularAtlas.Text
