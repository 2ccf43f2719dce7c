import AngularAtlas.Json.Literal
import AngularAtlas.Table

namespace AngularAtlas.Json

/-- JSON as written: literals are not interpreted, and objects keep all fields in order. -/
inductive Tree where
  | null
  | bool (value : Bool)
  | number (literal : NumberLiteral)
  | text (units : List TextUnit)
  | array (items : List Tree)
  | object (fields : List (List TextUnit × Tree))
deriving Repr, Inhabited

def isJsonBlank (c : Char) : Bool := c == ' ' || c == '\n' || c == '\t' || c == '\r'

def skipJsonBlanks (s : List Char) : List Char := s.dropWhile isJsonBlank

def textLiteral? : List Char → Option (List TextUnit × List Char)
  | '"' :: r => textUnits? (r.length + 1) r
  | _ => none

mutual

/-- Reads a value. The first argument bounds the steps taken. -/
def readTree? : Nat → List Char → Option (Tree × List Char)
  | 0, _ => none
  | steps + 1, s =>
    match skipJsonBlanks s with
    | '[' :: r =>
      match skipJsonBlanks r with
      | ']' :: r => some (.array [], r)
      | r => (readItems? steps r).map fun (items, r) => (.array items, r)
    | '\x7b' :: r =>
      match skipJsonBlanks r with
      | '\x7d' :: r => some (.object [], r)
      | r => (readFields? steps r).map fun (fields, r) => (.object fields, r)
    | '"' :: r => (textLiteral? ('"' :: r)).map fun (units, r) => (.text units, r)
    | 'n' :: 'u' :: 'l' :: 'l' :: r => some (.null, r)
    | 't' :: 'r' :: 'u' :: 'e' :: r => some (.bool true, r)
    | 'f' :: 'a' :: 'l' :: 's' :: 'e' :: r => some (.bool false, r)
    | s => (numberLiteral? s).map fun (literal, r) => (.number literal, r)

def readItems? : Nat → List Char → Option (List Tree × List Char)
  | 0, _ => none
  | steps + 1, s => do
    let (item, s) ← readTree? steps s
    match skipJsonBlanks s with
    | ',' :: r =>
      let (items, r) ← readItems? steps r
      return (item :: items, r)
    | ']' :: r => return ([item], r)
    | _ => none

def readFields? : Nat → List Char → Option (List (List TextUnit × Tree) × List Char)
  | 0, _ => none
  | steps + 1, s => do
    let (key, s) ← textLiteral? (skipJsonBlanks s)
    match skipJsonBlanks s with
    | ':' :: r =>
      let (value, s) ← readTree? steps r
      match skipJsonBlanks s with
      | ',' :: r =>
        let (fields, r) ← readFields? steps r
        return ((key, value) :: fields, r)
      | '\x7d' :: r => return ([(key, value)], r)
      | _ => none
    | _ => none

end

def Tree.ofText? (s : String) : Option Tree := do
  let (tree, rest) ← readTree? (2 * s.length + 2) s.toList
  guard (skipJsonBlanks rest = [])
  return tree

/-- How deeply arrays and objects may be nested in what is read as values. -/
def maxDepth : Nat := 127

mutual

def Tree.value? (levels : Nat) : Tree → Option Json
  | .null => some .null
  | .bool b => some (.bool b)
  | .number literal => literal.value?.map .number
  | .text units => (decodeUnits? units).map fun s => .text (String.ofList s)
  | .array items =>
    match levels with
    | 0 => none
    | levels + 1 => (valuesOf? levels items).map .array
  | .object fields =>
    match levels with
    | 0 => none
    | levels + 1 => (fieldsOf? levels fields []).map .object

def valuesOf? (levels : Nat) : List Tree → Option (List Json)
  | [] => some []
  | t :: r => do return (← t.value? levels) :: (← valuesOf? levels r)

def fieldsOf? (levels : Nat) :
    List (List TextUnit × Tree) → List (String × Json) → Option (List (String × Json))
  | [], before => some before
  | (key, t) :: r, before => do
    let key ← decodeUnits? key
    fieldsOf? levels r (putEntry (String.ofList key) (← t.value? levels) before)

end

/-- The parts of a record, in the order of the given names. A record is an object, in which each
name may stand once and other names are passed over, or an array with the parts in order, from
whose end parts may be missing. -/
def Tree.record? (names : List String) : Tree → Option (List (Option Tree))
  | .object fields => do
    let fields ← fields.mapM fun (key, t) => do
      return (String.ofList (← decodeUnits? key), t)
    names.mapM fun name =>
      match fields.filter (·.1 == name) with
      | [] => some none
      | [(_, t)] => some (some t)
      | _ => none
  | .array items =>
    if items.length ≤ names.length then
      some (items.map some ++ List.replicate (names.length - items.length) none)
    else none
  | _ => none

def Tree.text? : Tree → Option String
  | .text units => (decodeUnits? units).map String.ofList
  | _ => none

def Tree.float? : Tree → Option Float
  | .number literal => do
    match ← literal.value? with
    | .nonnegative n => return (UInt64.ofNat n).toFloat
    | .negative n => return -(UInt64.ofNat n).toFloat
    | .float x => return x
  | _ => none

/-- An optional part of a record: one that is missing or `null` has no value. -/
def optional? {α : Type} (read : Tree → Option α) : Option Tree → Option (Option α)
  | none | some .null => some none
  | some t => (read t).map some

end AngularAtlas.Json
