import AngularAtlas.Toml.Quoted
import AngularAtlas.Toml.Value

namespace AngularAtlas.Toml

open AngularAtlas.Text (isAsciiDigit)

/-- Goes on with the digits of a number, in which an underscore may stand between two digits. -/
def moreDigits (isDigit : Char → Bool) : List Char → List Char × List Char
  | [] => ([], [])
  | '_' :: d :: r =>
    if isDigit d then
      let (ds, rest) := moreDigits isDigit r
      (d :: ds, rest)
    else ([], '_' :: d :: r)
  | c :: r =>
    if isDigit c then
      let (ds, rest) := moreDigits isDigit r
      (c :: ds, rest)
    else ([], c :: r)

def digits? (isDigit : Char → Bool) : List Char → Option (List Char × List Char)
  | [] => none
  | c :: r =>
    if isDigit c then
      let (ds, rest) := moreDigits isDigit r
      some (c :: ds, rest)
    else none

def digitsValue (base : Nat) (ds : List Char) : Nat :=
  ds.foldl (fun n d => n * base + (Json.hexDigit? d).getD 0) 0

def integer? (n : Int) : Option Value :=
  if -Int.ofNat (Nat.pow 2 63) ≤ n ∧ n < Int.ofNat (Nat.pow 2 63) then some (.integer n) else none

def sign : List Char → Bool × List Char × List Char
  | '-' :: r => (true, ['-'], r)
  | '+' :: r => (false, ['+'], r)
  | s => (false, [], s)

def decimalDigits? : List Char → Option (List Char × List Char)
  | '0' :: r => some (['0'], r)
  | s => digits? isAsciiDigit s

def radixInteger? (base : Nat) (isDigit : Char → Bool) (s : List Char) :
    Option (Value × List Char) := do
  let (ds, r) ← digits? isDigit s
  return (← integer? (digitsValue base ds), r)

def integerLiteral? : List Char → Option (Value × List Char)
  | '0' :: 'x' :: r => radixInteger? 16 (fun c => (Json.hexDigit? c).isSome) r
  | '0' :: 'o' :: r => radixInteger? 8 (fun c => '0' ≤ c && c ≤ '7') r
  | '0' :: 'b' :: r => radixInteger? 2 (fun c => c == '0' || c == '1') r
  | s => do
    let (isNegative, _, r) := sign s
    let (ds, r) ← decimalDigits? r
    let n := digitsValue 10 ds
    return (← integer? (if isNegative then -n else n), r)

def fraction? : List Char → Option (List Char × List Char)
  | '.' :: r => digits? isAsciiDigit r
  | _ => none

def exponent? : List Char → Option (Bool × List Char × List Char)
  | [] => none
  | c :: r =>
    if c = 'e' ∨ c = 'E' then
      let (isNegative, _, r) := sign r
      digits? isAsciiDigit r |>.map fun (ds, r) => (isNegative, ds, r)
    else none

/-- A decimal is rounded to infinity: it is not below the middle between the largest double and
the power of two above it. -/
def isTooLarge (significand : List Char) (exponent : Int) : Bool :=
  let n := digitsValue 10 significand
  let place := (Nat.toDigits 10 n).length + exponent
  if n = 0 ∨ place < 309 then false
  else if 310 < place then true
  else
    let bound := Nat.pow 2 1024 - Nat.pow 2 970
    if 0 ≤ exponent then bound ≤ n * Nat.pow 10 exponent.toNat
    else bound * Nat.pow 10 (-exponent).toNat ≤ n

/-- Reads a floating point number in digits: with a fraction, an exponent or both. A positive one
must not be too large. -/
def decimalFloat? (s : List Char) : Option (Value × List Char) := do
  let (isNegative, _, r) := sign s
  let (whole, r) ← decimalDigits? r
  let fraction := fraction? r
  let r := (fraction.map (·.2)).getD r
  let exponent := exponent? r
  let r := (exponent.map (·.2.2)).getD r
  guard (fraction.isSome ∨ exponent.isSome)
  let behind := (fraction.map (·.1)).getD []
  let power : Int := match exponent with
    | some (true, ds, _) => -digitsValue 10 ds
    | some (false, ds, _) => digitsValue 10 ds
    | none => 0
  guard (isNegative ∨ !isTooLarge (whole ++ behind) (power - behind.length))
  return (.float (String.ofList (s.take (s.length - r.length))), r)

def namedFloat? (s : List Char) : Option (Value × List Char) :=
  let (_, shown, r) := sign s
  (["inf", "nan"].findSome? fun name => (name.toList.isPrefixOf? r).map (name, ·)).map
    fun (name, r) => (.float (String.ofList shown ++ name), r)

def fixedNumber? (width least most : Nat) (s : List Char) : Option (Nat × List Char) :=
  let ds := s.take width
  let n := digitsValue 10 ds
  if ds.length = width ∧ ds.all isAsciiDigit ∧ least ≤ n ∧ n ≤ most then some (n, s.drop width)
  else none

def daysIn (year month : Nat) : Nat :=
  if month = 2 then
    if year % 4 = 0 ∧ (year % 100 ≠ 0 ∨ year % 400 = 0) then 29 else 28
  else if month = 4 ∨ month = 6 ∨ month = 9 ∨ month = 11 then 30
  else 31

def afterDate? (s : List Char) : Option (List Char) := do
  let (year, s) ← fixedNumber? 4 0 9999 s
  let (month, s) ← fixedNumber? 2 1 12 (← Text.afterChar? '-' s)
  let (_, s) ← fixedNumber? 2 1 (daysIn year month) (← Text.afterChar? '-' s)
  return s

/-- The text after a time of day at the start. A minute may have a leap second. -/
def afterTime? (s : List Char) : Option (List Char) := do
  let (_, s) ← fixedNumber? 2 0 23 s
  let (_, s) ← fixedNumber? 2 0 59 (← Text.afterChar? ':' s)
  let (_, s) ← fixedNumber? 2 0 60 (← Text.afterChar? ':' s)
  match s with
  | '.' :: r => if r.head?.any isAsciiDigit then some (r.dropWhile isAsciiDigit) else none
  | s => some s

def afterOffset? : List Char → Option (List Char)
  | [] => some []
  | c :: r =>
    if c = 'Z' ∨ c = 'z' then some r
    else if c = '+' ∨ c = '-' then do
      let (_, s) ← fixedNumber? 2 0 23 r
      let (_, s) ← fixedNumber? 2 0 59 (← Text.afterChar? ':' s)
      return s
    else some (c :: r)

def afterDayTime? : List Char → Option (List Char)
  | [] => some []
  | c :: r =>
    if c = 'T' ∨ c = 't' then (afterTime? r).bind afterOffset?
    else if c = ' ' then
      match afterTime? r with
      | some r => afterOffset? r
      | none => some (c :: r)
    else some (c :: r)

def moment? (s : List Char) : Option (Value × List Char) :=
  let rest := match afterDate? s with
    | some r => afterDayTime? r
    | none => afterTime? s
  rest.map fun r => (.moment (String.ofList (s.take (s.length - r.length))), r)

def bool? (s : List Char) : Option (Value × List Char) :=
  ([("true", true), ("false", false)].findSome? fun (name, b) =>
    (name.toList.isPrefixOf? s).map (Value.bool b, ·))

def literal? (s : List Char) : Option (Value × List Char) :=
  [bool?, namedFloat?, moment?, decimalFloat?, integerLiteral?].findSome? (· s)

end AngularAtlas.Toml
