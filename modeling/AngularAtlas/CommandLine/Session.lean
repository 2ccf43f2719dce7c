import AngularAtlas.FileTree

/-!
Runs of the program: what they change and print, and how they fail. What was done before a failure
stays done.
-/

namespace AngularAtlas.CommandLine

structure Failure where
  message : String
  causes : List String := []
deriving Repr, DecidableEq

namespace Failure

/-- A text with each line but the first moved to the right. -/
def hang (indent s : String) : String :=
  ("\n" ++ indent).intercalate ((s.toList.splitOn '\n').map String.ofList)

def numbered (n : Nat) : List String → String
  | [] => ""
  | cause :: rest =>
    "\n    " ++ toString n ++ ": " ++ hang "       " cause ++ numbered (n + 1) rest

def report (f : Failure) : String :=
  "Error: " ++ f.message ++
  (match f.causes with
    | [] => ""
    | [cause] => "\n\nCaused by:\n    " ++ hang "    " cause
    | causes => "\n\nCaused by:" ++ numbered 0 causes) ++
  "\n"

end Failure

structure Session where
  tree : FileTree
  output : String := ""
  messages : String := ""
deriving Inhabited

abbrev Run := ExceptT Failure (StateM Session)

namespace Run

def print (text : String) : Run Unit := modify fun s => { s with output := s.output ++ text }

def warn (text : String) : Run Unit := modify fun s => { s with messages := s.messages ++ text }

def inform (isQuiet : Bool) (line : String) : Run Unit :=
  if isQuiet then pure () else warn (line ++ "\n")

def tree : Run FileTree := return (← get).tree

def orFail {ε α : Type} (failure : ε → Failure) : Except ε α → Run α
  | .ok a => pure a
  | .error e => throw (failure e)

def setTree (t : FileTree) : Run Unit := modify fun s => { s with tree := t }

def fileText (path : String) (e : FileError) : String :=
  "Failed to write " ++ path ++ ": " ++ e.message

/-- Writes a file, with the directories above it that are missing. -/
def writeFile (isQuiet : Bool) (path text : String) : Run Unit := do
  let failure := fun (at? : String) (e : FileError) =>
    Failure.mk ("Failed to write " ++ path) [fileText at? e, e.message]
  match Path.parent? path with
  | none | some "" => pure ()
  | some parent => setTree (← orFail (failure parent) ((← tree).createDirectories parent))
  setTree (← orFail (failure path) ((← tree).write path text))
  inform isQuiet ("Wrote " ++ path)

end Run

end AngularAtlas.CommandLine
