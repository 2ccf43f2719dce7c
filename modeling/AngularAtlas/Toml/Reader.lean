import AngularAtlas.Toml.Literal

namespace AngularAtlas.Toml

def isKeyChar (c : Char) : Bool :=
  Text.isAsciiLetter c || Text.isAsciiDigit c || c == '_' || c == '-'

def key? (s : List Char) : Option (String × List Char) :=
  if s.head?.any fun c => c == '"' || c == '\'' then
    (quotedLine? s).map fun (key, r) => (String.ofList key, r)
  else
    let key := s.takeWhile isKeyChar
    if key = [] then none else some (String.ofList key, s.dropWhile isKeyChar)

def dottedKeys? (s : List Char) : Option (List String × List Char) :=
  match key? (skipSpaces s) with
  | none => none
  | some (key, r) =>
    match skipSpaces r with
    | '.' :: rest =>
      if rest.length < s.length then
        (dottedKeys? rest).map fun (keys, r) => (key :: keys, r)
      else none
    | rest => some ([key], rest)
termination_by s.length

/-- The keys of a path and the values in values stay below this number. -/
def maxDepth : Nat := 80

def keyPath? (s : List Char) : Option (List String × List Char) := do
  let (keys, r) ← dottedKeys? s
  guard (keys.length < maxDepth)
  return (keys, r)

def skipComment : List Char → List Char
  | '#' :: r => r.dropWhile isPlain
  | s => s

def lineEnd? (s : List Char) : Option (List Char) :=
  match skipComment (skipSpaces s) with
  | [] => some []
  | r => lineBreak? r

def skipGaps (s : List Char) : List Char :=
  match lineBreak? (skipComment (skipSpaces s)) with
  | none => skipSpaces s
  | some r => if r.length < s.length then skipGaps r else r
termination_by s.length

/-- Adds a value under a path of dotted keys. Tables on the way must not be complete, and the last
key must be new. -/
def assign (value : Value) : List String → Entries → Option Entries
  | [], _ => none
  | [key], entries =>
    if (entries.lookup key).isSome then none else some (entries ++ [(key, value)])
  | key :: path, entries =>
    let replace := fun (new : Value) =>
      entries.map fun (k, v) => if k = key then (k, new) else (k, v)
    match entries.lookup key with
    | none =>
      (assign value path []).map fun sub => entries ++ [(key, .table .dotted sub)]
    | some (.table kind sub) =>
      if kind = .dotted ∨ (kind = .parent ∧ 1 < path.length) then
        (assign value path sub).map fun sub => replace (.table kind sub)
      else none
    | some (.tables elements) =>
      if 1 < path.length then
        (assign value path (elements.getLast?.getD [])).map fun sub =>
          replace (.tables (elements.dropLast ++ [sub]))
      else none
    | some _ => none

mutual

/-- Reads a value. The first argument bounds the steps taken, the second one the depth of arrays
and tables. -/
def value? : Nat → Nat → List Char → Option (Value × List Char)
  | 0, _, _ => none
  | steps + 1, depth, s =>
    match s with
    | '[' :: r =>
      match depth with
      | 0 => none
      | depth + 1 => (items? steps depth (skipGaps r)).map fun (items, r) => (.array items, r)
    | '\x7b' :: r =>
      match depth with
      | 0 => none
      | depth + 1 =>
        match skipSpaces r with
        | '\x7d' :: r => some (.table .inline [], r)
        | r => (fields? steps depth [] r).map fun (entries, r) => (.table .inline entries, r)
    | s =>
      if s.head?.any fun c => c == '"' || c == '\'' then
        (quoted? s).map fun (text, r) => (.text (String.ofList text), r)
      else literal? s

def items? : Nat → Nat → List Char → Option (List Value × List Char)
  | 0, _, _ => none
  | _, _, ']' :: r => some ([], r)
  | steps + 1, depth, s => do
    let (item, s) ← value? steps depth s
    match skipGaps s with
    | ',' :: r =>
      let (items, r) ← items? steps depth (skipGaps r)
      return (item :: items, r)
    | ']' :: r => return ([item], r)
    | _ => none

def fields? : Nat → Nat → Entries → List Char → Option (Entries × List Char)
  | 0, _, _, _ => none
  | steps + 1, depth, entries, s => do
    let (path, s) ← keyPath? s
    let (value, s) ← value? steps depth (skipSpaces (← Text.afterChar? '=' s))
    let entries ← assign value path entries
    match skipSpaces s with
    | ',' :: r => fields? steps depth entries r
    | '\x7d' :: r => return (entries, r)
    | _ => none

end

inductive Statement where
  | assignment (path : List String) (value : Value)
  | table (path : List String)
  | element (path : List String)
deriving Repr, Inhabited

def statement? (s : List Char) : Option (Statement × List Char) :=
  match s with
  | '[' :: '[' :: r => do
    let (path, r) ← keyPath? r
    return (.element path, ← Text.afterChar? ']' (← Text.afterChar? ']' r))
  | '[' :: r => do
    let (path, r) ← keyPath? r
    return (.table path, ← Text.afterChar? ']' r)
  | s => do
    let (path, r) ← keyPath? s
    let r := skipSpaces (← Text.afterChar? '=' r)
    let (value, r) ← value? (2 * r.length + 2) (maxDepth - 1) r
    return (.assignment path value, r)

def line? (s : List Char) : Option (Option Statement × List Char) :=
  match lineEnd? s with
  | some r => some (none, r)
  | none => do
    let (statement, r) ← statement? (skipSpaces s)
    return (some statement, ← lineEnd? r)

def statements? (s : List Char) : Option (List Statement) :=
  if s = [] then some []
  else
    match line? s with
    | none => none
    | some (statement, r) =>
      if r.length < s.length then (statements? r).map (statement.toList ++ ·) else none
termination_by s.length

end AngularAtlas.Toml
