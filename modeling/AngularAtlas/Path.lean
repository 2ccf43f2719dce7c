/-!
Paths as text. A path is made of segments between slashes; empty segments do not count, nor do
segments `.` other than one at the very start. Two paths are the same when their segments are;
beyond them, a path's text decides how it is shown, and how it is walked in a file system.
-/

namespace AngularAtlas

inductive Segment where
  | root
  | here
  | up
  | name (text : String)
deriving Repr, DecidableEq

def Segment.text : Segment → String
  | .root => "/"
  | .here => "."
  | .up => ".."
  | .name text => text

namespace Path

/-- The step that a piece between slashes is when a path is walked. A `.` counts, since what stands
before it has to be a directory; an empty piece is none. -/
def stepOf? (piece : List Char) : Option Segment :=
  if piece = [] then none
  else if piece = ['.'] then some .here
  else if piece = ['.', '.'] then some .up
  else some (.name (String.ofList piece))

/-- The segment of a piece between slashes, behind the start of a path; an empty piece and `.` are
none. -/
def segmentOf? (piece : List Char) : Option Segment :=
  (stepOf? piece).filter (· != .here)

/-- The segment at the start of a path, if it has one of its own there, and the text after it. -/
def splitStart : List Char → Option Segment × List Char
  | '/' :: r => (some .root, r)
  | ['.'] => (some .here, [])
  | '.' :: '/' :: r => (some .here, '/' :: r)
  | s => (none, s)

def segments (path : String) : List Segment :=
  let (start, body) := splitStart path.toList
  start.toList ++ (body.splitOn '/').filterMap segmentOf?

def isAbsolute (path : String) : Bool := path.toList.head? = some '/'

def steps (path : String) : List Segment :=
  let steps := (path.toList.splitOn '/').filterMap stepOf?
  if isAbsolute path then .root :: steps else steps

def endsInSlash (path : String) : Bool := path.toList.getLast? = some '/'

def fileName? (path : String) : Option String :=
  match (segments path).getLast? with
  | some (.name text) => some text
  | _ => none

def parentSegments? (segments : List Segment) : Option (List Segment) :=
  match segments.getLast? with
  | none | some .root => none
  | some _ => some segments.dropLast

def trimPieces (ps : List (List Char)) : List (List Char) :=
  (ps.reverse.dropWhile fun piece => (segmentOf? piece).isNone).reverse

/-- The text of the directory that holds a path, as far as the path spells it out. -/
def parent? (path : String) : Option String :=
  let (start, body) := splitStart path.toList
  match trimPieces (body.splitOn '/'), start with
  | [], some .here => some ""
  | [], _ => none
  | ps, start =>
    let body := ['/'].intercalate (trimPieces ps.dropLast)
    some ((start.map Segment.text).getD "" ++ String.ofList body)

def join (directory path : String) : String :=
  if isAbsolute path then path
  else if directory = "" ∨ directory.toList.getLast? = some '/' then directory ++ path
  else directory ++ "/" ++ path

def strip? : List Segment → List Segment → Option (List Segment)
  | [], path => some path
  | _ :: _, [] => none
  | s :: start, p :: path => if s = p then strip? start path else none

/-- A path as it is shown within a root directory: `.` stands for the root, and paths outside it
are shown as they are. -/
def relativeTo (root path : String) : String :=
  match strip? (segments root) (segments path) with
  | none => path
  | some [] => "."
  | some rest => "./" ++ "/".intercalate (rest.map Segment.text)

end Path

end AngularAtlas
