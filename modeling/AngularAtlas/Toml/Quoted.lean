import AngularAtlas.Json.Literal
import AngularAtlas.Text.Search

namespace AngularAtlas.Toml

def isSpace (c : Char) : Bool := c == ' ' || c == '\t'

def skipSpaces (s : List Char) : List Char := s.dropWhile isSpace

def isControl (c : Char) : Bool :=
  c != '\t' && c != '\n' && (c.toNat < 0x20 || c == '\x7f')

def isPlain (c : Char) : Bool := !isControl c && c != '\n'

def lineBreak? : List Char → Option (List Char)
  | '\n' :: r => some r
  | '\r' :: '\n' :: r => some r
  | _ => none

def skipLines : List Char → List Char
  | [] => []
  | '\r' :: '\n' :: r => skipLines r
  | c :: r => if isSpace c || c == '\n' then skipLines r else c :: r

structure Quoting where
  /-- Between single quotes, where a backslash stands for itself. -/
  isLiteral : Bool
  /-- Between three quotes, where line breaks can stand. -/
  isMultiline : Bool
deriving Repr, DecidableEq

namespace Quoting

def mark (q : Quoting) : Char := if q.isLiteral then '\'' else '"'

def delimiter (q : Quoting) : List Char := List.replicate (if q.isMultiline then 3 else 1) q.mark

end Quoting

def codePoint? (width : Nat) (s : List Char) : Option (Char × List Char) := do
  guard (width ≤ s.length)
  let ds ← (s.take width).mapM Json.hexDigit?
  let n := ds.foldl (fun n d => n * 16 + d) 0
  if h : n.isValidChar then some (Char.ofNatAux n h, s.drop width) else none

def escapedChar? : Char → Option Char
  | 'b' => some '\x08'
  | 't' => some '\t'
  | 'n' => some '\n'
  | 'f' => some '\x0c'
  | 'r' => some '\r'
  | '"' => some '"'
  | '\\' => some '\\'
  | _ => none

def escape? : List Char → Option (Char × List Char)
  | [] => none
  | 'u' :: r => codePoint? 4 r
  | 'U' :: r => codePoint? 8 r
  | c :: r => (escapedChar? c).map fun c => (c, r)

/-- What follows a backslash at the end of a line: the next text, on whatever line it stands. -/
def joinedLine? (s : List Char) : Option (List Char) := (lineBreak? (skipSpaces s)).map skipLines

def unit? (q : Quoting) : List Char → Option (List Char × List Char)
  | [] => none
  | c :: r =>
    if c = '\\' ∧ !q.isLiteral then
      match if q.isMultiline then joinedLine? r else none with
      | some r => some ([], r)
      | none => (escape? r).map fun (c, r) => ([c], r)
    else if isPlain c then some ([c], r)
    else if q.isMultiline then (lineBreak? (c :: r)).map fun r => (['\n'], r)
    else none

/-- Reads the end of a text. Up to two quotes before the last three belong to the text. -/
def ending? (q : Quoting) (s : List Char) : Option (List Char × List Char) :=
  let run := (s.takeWhile (· == q.mark)).length
  if q.isMultiline then
    if 3 ≤ run then
      let extra := min (run - 3) 2
      some (List.replicate extra q.mark, s.drop (extra + 3))
    else none
  else if 1 ≤ run then some ([], s.drop 1)
  else none

def body? (q : Quoting) (s : List Char) : Option (List Char × List Char) :=
  match ending? q s with
  | some found => some found
  | none =>
    match unit? q s with
    | none => none
    | some (cs, rest) =>
      if rest.length < s.length then (body? q rest).map fun (text, r) => (cs ++ text, r)
      else none
termination_by s.length

def opening? : List Char → Option (Quoting × List Char)
  | '"' :: '"' :: '"' :: r => some (⟨false, true⟩, (lineBreak? r).getD r)
  | '"' :: r => some (⟨false, false⟩, r)
  | '\'' :: '\'' :: '\'' :: r => some (⟨true, true⟩, (lineBreak? r).getD r)
  | '\'' :: r => some (⟨true, false⟩, r)
  | _ => none

def quoted? (s : List Char) : Option (List Char × List Char) := do
  let (q, r) ← opening? s
  body? q r

def quotedLine? : List Char → Option (List Char × List Char)
  | '"' :: r => body? ⟨false, false⟩ r
  | '\'' :: r => body? ⟨true, false⟩ r
  | _ => none

def quotingOf (s : List Char) : Quoting :=
  let isClean := !s.any isControl
  let hasBreak := s.contains '\n'
  if isClean && !hasBreak && !s.contains '\\' && !s.contains '"' then ⟨false, false⟩
  else if isClean && !hasBreak && !s.contains '\'' then ⟨true, false⟩
  else if isClean && !s.contains '\\' && !Text.contains ['"', '"', '"'] s then ⟨false, true⟩
  else if isClean && !Text.contains ['\'', '\'', '\''] s then ⟨true, true⟩
  else ⟨false, hasBreak⟩

def capitalHexDigit (n : Nat) : Char := (Nat.digitChar n).toUpper

def escapeChar (isMultiline : Bool) (c : Char) : List Char :=
  match c with
  | '\x08' => ['\\', 'b']
  | '\t' => ['\\', 't']
  | '\n' => if isMultiline then ['\n'] else ['\\', 'n']
  | '\x0c' => ['\\', 'f']
  | '\r' => ['\\', 'r']
  | '\\' => ['\\', '\\']
  | c =>
    if isControl c then
      ['\\', 'u', '0', '0', capitalHexDigit (c.toNat / 16), capitalHexDigit (c.toNat % 16)]
    else [c]

/-- The characters of a text as they are written between double quotes. Between three of them
only every third quote of a run is escaped; `run` counts the quotes just before the text. -/
def escapeText (isMultiline : Bool) (run : Nat) : List Char → List Char
  | [] => []
  | '"' :: r =>
    if isMultiline && run % 3 != 2 then '"' :: escapeText isMultiline (run + 1) r
    else '\\' :: '"' :: escapeText isMultiline (run + 1) r
  | c :: r => escapeChar isMultiline c ++ escapeText isMultiline 0 r

/-- A text in its quotes. Three quotes are followed by a line break when the text has one. -/
def quote (s : List Char) : List Char :=
  let q := quotingOf s
  let lead := if q.isMultiline && s.contains '\n' then ['\n'] else []
  let body := if q.isLiteral then s else escapeText q.isMultiline 0 s
  q.delimiter ++ lead ++ body ++ q.delimiter

end AngularAtlas.Toml
