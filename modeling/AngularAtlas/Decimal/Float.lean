import AngularAtlas.Decimal.Shortest

namespace AngularAtlas.Decimal

structure Layout where
  tie : Tie
  /-- Plain notation is used when the decimal point stands at most this far right of the first
  digit, and always when there is no limit. -/
  plainUpTo : Option Int
  /-- Plain notation is used when the decimal point stands at least this far right of the first
  digit; a negative distance is to the left. -/
  plainFrom : Int
  keepsPoint : Bool
deriving Repr, DecidableEq

inductive Parts where
  | nan
  | infinite (negative : Bool)
  | zero (negative : Bool)
  | finite (negative : Bool) (magnitude : Binary)
deriving Repr, DecidableEq

def Parts.ofFloat (x : Float) : Parts :=
  let bits := x.toBits.toNat
  let negative := Nat.pow 2 63 ≤ bits
  let field : Nat := bits / Nat.pow 2 52 % Nat.pow 2 11
  let fraction : Nat := bits % Nat.pow 2 52
  if field = 2047 then if fraction = 0 then .infinite negative else .nan
  else if field = 0 then
    if fraction = 0 then .zero negative else .finite negative ⟨fraction, -1074, false⟩
  else .finite negative ⟨Nat.pow 2 52 + fraction, (field : Int) - 1075, fraction = 0 && field != 1⟩

def digits (n : Nat) : List Char := Nat.toDigits 10 n

def Layout.plain (layout : Layout) (d : Scaled) : List Char :=
  let ds := digits d.digits
  let point := (ds.length : Int) + d.exponent
  if 0 ≤ d.exponent then
    ds ++ List.replicate d.exponent.toNat '0' ++ (if layout.keepsPoint then ['.', '0'] else [])
  else if 0 < point then ds.take point.toNat ++ '.' :: ds.drop point.toNat
  else '0' :: '.' :: (List.replicate (-point).toNat '0' ++ ds)

/-- Lays out a decimal with an exponent: one digit, the others behind a point, and the exponent
with its sign. -/
def scientific (d : Scaled) : List Char :=
  let ds := digits d.digits
  let e := (ds.length : Int) + d.exponent - 1
  let mantissa := match ds with
    | [] => []
    | [c] => [c]
    | c :: rest => c :: '.' :: rest
  mantissa ++ 'e' :: (if e < 0 then '-' else '+') :: digits e.natAbs

def Layout.format (layout : Layout) (x : Float) : String :=
  let sign := fun negative => if negative then ['-'] else []
  String.ofList <| match Parts.ofFloat x with
    | .nan => "NaN".toList
    | .infinite negative => sign negative ++ "inf".toList
    | .zero negative => sign negative ++ '0' :: (if layout.keepsPoint then ['.', '0'] else [])
    | .finite negative b =>
      let d := shortest layout.tie b
      let point := (digitCount d.digits : Int) + d.exponent
      let isPlain := layout.plainUpTo.all (point ≤ ·) && layout.plainFrom ≤ point
      sign negative ++ if isPlain then layout.plain d else scientific d

def plainLayout : Layout := ⟨.up, none, -400, false⟩

def plainText (x : Float) : String := plainLayout.format x

end AngularAtlas.Decimal
