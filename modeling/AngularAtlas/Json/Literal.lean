import AngularAtlas.Json.Value
import AngularAtlas.Text.Word

namespace AngularAtlas.Json

open AngularAtlas.Text (isAsciiDigit)

def maxInteger : Nat := Nat.pow 2 64 - 1

def maxExponent : Nat := Nat.pow 2 31 - 1

def takeDigits (n : Nat) : List Char → Nat × List Char
  | [] => (n, [])
  | c :: r =>
    let next := n * 10 + (c.toNat - '0'.toNat)
    if next ≤ maxInteger then takeDigits next r else (n, c :: r)

/-- Scales a number by a power of ten: one multiplication or division, after divisions by 10^308
while the exponent is lower than that. There is no value when the result is infinite. -/
def scale? : Nat → Float → Int → Option Float
  | 0, _, _ => some 0
  | steps + 1, x, e =>
    if 0 ≤ e then
      if e ≤ 308 then
        let y := x * Float.ofScientific 1 false e.toNat
        if y.isInf then none else some y
      else if x == 0 then some x else none
    else if -308 ≤ e then some (x / Float.ofScientific 1 false (-e).toNat)
    else if x == 0 then some x
    else scale? steps (x / 1e308) (e + 308)

def ofParts? (isNegative : Bool) (significand : Nat) (e : Int) : Option Number :=
  (scale? 4 (UInt64.ofNat significand).toFloat e).map fun x => .float (if isNegative then -x else x)

/-- A number literal: its sign, the digits before and behind the point, and the sign and digits of
the exponent. -/
structure NumberLiteral where
  isNegative : Bool
  whole : List Char
  fraction : Option (List Char)
  exponent : Option (Bool × List Char)
deriving Repr, DecidableEq

/-- The value of a literal. Digits behind the largest 64-bit integer only count towards the power
of ten. -/
def NumberLiteral.value? (l : NumberLiteral) : Option Number :=
  let (significand, dropped) := takeDigits 0 l.whole
  match l.fraction, l.exponent with
  | none, none =>
    if dropped ≠ [] then ofParts? l.isNegative significand dropped.length
    else if !l.isNegative then some (.nonnegative significand)
    else if 0 < significand ∧ significand ≤ Nat.pow 2 63 then some (.negative significand)
    else some (.float (-(UInt64.ofNat significand).toFloat))
  | fraction, exponent =>
    let fraction := fraction.getD []
    let (significand, unread) := takeDigits significand fraction
    let e : Int := (dropped.length : Int) - (fraction.length - unread.length : Nat)
    match exponent with
    | none => ofParts? l.isNegative significand e
    | some (isNegative, ds) =>
      let n := ds.foldl (fun n c => n * 10 + (c.toNat - '0'.toNat)) 0
      if n ≤ maxExponent then
        ofParts? l.isNegative significand (if isNegative then e - n else e + n)
      else if significand ≠ 0 ∧ !isNegative then none
      else some (.float (if l.isNegative then -0.0 else 0.0))

def digits1? (s : List Char) : Option (List Char × List Char) :=
  let ds := s.takeWhile isAsciiDigit
  if ds = [] then none else some (ds, s.dropWhile isAsciiDigit)

def wholeDigits? : List Char → Option (List Char × List Char)
  | '0' :: r => if r.head?.any isAsciiDigit then none else some (['0'], r)
  | s => digits1? s

def fractionDigits? : List Char → Option (Option (List Char) × List Char)
  | '.' :: r => (digits1? r).map fun (ds, r) => (some ds, r)
  | s => some (none, s)

def exponentSign : List Char → Bool × List Char
  | '-' :: r => (true, r)
  | '+' :: r => (false, r)
  | s => (false, s)

def exponentDigits? : List Char → Option (Option (Bool × List Char) × List Char)
  | [] => some (none, [])
  | c :: r =>
    if c = 'e' ∨ c = 'E' then
      let (isNegative, r) := exponentSign r
      (digits1? r).map fun (ds, r) => (some (isNegative, ds), r)
    else some (none, c :: r)

def numberLiteral? (s : List Char) : Option (NumberLiteral × List Char) := do
  let isNegative := s.head? = some '-'
  let (whole, s) ← wholeDigits? (if isNegative then s.tail else s)
  let (fraction, s) ← fractionDigits? s
  let (exponent, s) ← exponentDigits? s
  return (⟨isNegative, whole, fraction, exponent⟩, s)

def hexDigit? (c : Char) : Option Nat :=
  if isAsciiDigit c then some (c.toNat - '0'.toNat)
  else if 'a' ≤ c ∧ c ≤ 'f' then some (c.toNat - 'a'.toNat + 10)
  else if 'A' ≤ c ∧ c ≤ 'F' then some (c.toNat - 'A'.toNat + 10)
  else none

def hexQuad? : List Char → Option (Nat × List Char)
  | a :: b :: c :: d :: r => do
    return ((((← hexDigit? a) * 16 + (← hexDigit? b)) * 16 + (← hexDigit? c)) * 16 +
      (← hexDigit? d), r)
  | _ => none

inductive TextUnit where
  | char (c : Char)
  | code (n : Nat)
deriving Repr, DecidableEq

def escapedChar? : Char → Option Char
  | '"' => some '"'
  | '\\' => some '\\'
  | '/' => some '/'
  | 'b' => some '\x08'
  | 'f' => some '\x0c'
  | 'n' => some '\n'
  | 'r' => some '\r'
  | 't' => some '\t'
  | _ => none

def textUnit? : List Char → Option (TextUnit × List Char)
  | [] => none
  | '\\' :: 'u' :: r => (hexQuad? r).map fun (n, r) => (.code n, r)
  | '\\' :: c :: r => (escapedChar? c).map fun c => (.char c, r)
  | c :: r => if c = '\\' ∨ c.toNat < 0x20 then none else some (.char c, r)

/-- Reads the units of a text up to its closing quote. The first argument bounds their number. -/
def textUnits? : Nat → List Char → Option (List TextUnit × List Char)
  | 0, _ => none
  | _, '"' :: r => some ([], r)
  | bound + 1, s => do
    let (unit, s) ← textUnit? s
    let (units, s) ← textUnits? bound s
    return (unit :: units, s)

/-- The characters of a text. Code units above the basic plane come in pairs, and half a pair is
no text. -/
def decodeUnits? : List TextUnit → Option (List Char)
  | [] => some []
  | .char c :: r => (decodeUnits? r).map (c :: ·)
  | .code n :: r =>
    if 0xd800 ≤ n ∧ n < 0xdc00 then
      match r with
      | .code m :: r =>
        if 0xdc00 ≤ m ∧ m < 0xe000 then
          (decodeUnits? r).map (Char.ofNat (0x10000 + (n - 0xd800) * 0x400 + (m - 0xdc00)) :: ·)
        else none
      | _ => none
    else if 0xdc00 ≤ n ∧ n < 0xe000 then none
    else (decodeUnits? r).map (Char.ofNat n :: ·)

end AngularAtlas.Json
