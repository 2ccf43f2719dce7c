namespace AngularAtlas.Text

def afterBlockEnd? : List Char → Option (List Char)
  | [] => none
  | c :: r => if c = '*' ∧ r.head? = some '/' then some r.tail else afterBlockEnd? r

theorem afterBlockEnd?_length {s r : List Char} (h : afterBlockEnd? s = some r) :
    r.length < s.length := by
  induction s with
  | nil => simp [afterBlockEnd?] at h
  | cons c s ih =>
    simp only [afterBlockEnd?] at h
    split at h
    · obtain rfl := Option.some.inj h
      simp only [List.length_tail, List.length_cons]
      omega
    · have := ih h
      simp only [List.length_cons]
      omega

def afterBlockComment? : List Char → Option (List Char)
  | '/' :: '*' :: r => afterBlockEnd? r
  | _ => none

theorem afterBlockComment?_length {s r : List Char} (h : afterBlockComment? s = some r) :
    r.length < s.length := by
  unfold afterBlockComment? at h
  split at h
  · have := afterBlockEnd?_length h
    simp only [List.length_cons]
    omega
  · simp at h

/-- The text without its block comments. One that is never closed stays. -/
def removeBlockComments (s : List Char) : List Char :=
  match _h : afterBlockComment? s with
  | some r => removeBlockComments r
  | none =>
    match s with
    | [] => []
    | c :: r => c :: removeBlockComments r
termination_by s.length
decreasing_by
  · exact afterBlockComment?_length _h
  · simp

def startsLineComment (s : List Char) : Bool :=
  ['/', '/'].isPrefixOf (s.dropWhile fun c => c == ' ' || c == '\t')

/-- The line before its comment, without the spaces and tabs in front of it. -/
def cutLineComment : List Char → List Char
  | [] => []
  | c :: r => if startsLineComment (c :: r) then [] else c :: cutLineComment r

/-- The text without its line comments. Lines end at line feeds only. -/
def removeLineComments (s : List Char) : List Char :=
  ['\n'].intercalate ((s.splitOn '\n').map cutLineComment)

def removeComments (s : List Char) : List Char := removeLineComments (removeBlockComments s)

end AngularAtlas.Text
