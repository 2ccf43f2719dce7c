/-!
Shortest decimals of binary floating point numbers: the fewest digits that are read back as the
same number, and of those the digits nearest to it.

A positive number is `mantissa * 2 ^ exponent`. The reals that are read back as it form an
interval around it, whose ends belong to it when the mantissa is even. For each count of digits,
the two neighbours of the number on the grid of decimals with that many digits are tried; the
first grid with a neighbour in the interval gives the answer.
-/

namespace AngularAtlas.Decimal

/-- A finite positive binary number. `narrow` says that the next lower number is only half as far
away as the next higher one. -/
structure Binary where
  mantissa : Nat
  exponent : Int
  narrow : Bool
deriving Repr, DecidableEq

inductive Tie where
  | up
  | even
deriving Repr, DecidableEq

structure Scaled where
  digits : Nat
  exponent : Int
deriving Repr, DecidableEq

def digitCount (n : Nat) : Nat := if n < 10 then 1 else digitCount (n / 10) + 1

def twoPow (e : Int) : Nat × Nat := (Nat.pow 2 e.toNat, Nat.pow 2 (-e).toNat)

/-- The least `k` with `num / den < 10 ^ k`. -/
def magnitude (num den : Nat) : Int :=
  let k : Int := (digitCount num : Int) - digitCount den
  if num * Nat.pow 10 (-k).toNat < den * Nat.pow 10 k.toNat then k else k + 1

/-- The best decimal that is a multiple of `10 ^ e` and lies in the interval of `b`. The number
and the ends of its interval are taken in quarters of a unit in the last place. -/
def onGrid? (tie : Tie) (b : Binary) (e : Int) : Option Scaled :=
  let (p, q) := twoPow (b.exponent - 2)
  let num := p * Nat.pow 10 (-e).toNat
  let den := q * Nat.pow 10 e.toNat
  let value := 4 * b.mantissa * num
  let low := (4 * b.mantissa - if b.narrow then 1 else 2) * num
  let high := (4 * b.mantissa + 2) * num
  let closed := b.mantissa % 2 = 0
  let down := value / den
  let up := if value % den = 0 then down else down + 1
  let downFits := 0 < down ∧ (low < down * den ∨ (closed ∧ low = down * den))
  let upFits := up * den < high ∨ (closed ∧ up * den = high)
  let below := value - down * den
  let above := up * den - value
  if downFits ∧ upFits then
    if below < above then some ⟨down, e⟩
    else if above < below then some ⟨up, e⟩
    else if tie = .up ∨ down % 2 = 1 then some ⟨up, e⟩
    else some ⟨down, e⟩
  else if downFits then some ⟨down, e⟩
  else if upFits then some ⟨up, e⟩
  else none

def trimZeros (digits : Nat) (exponent : Int) : Scaled :=
  if h : digits ≠ 0 ∧ digits % 10 = 0 then trimZeros (digits / 10) (exponent + 1)
  else ⟨digits, exponent⟩
termination_by digits
decreasing_by omega

/-- The shortest decimal of a number. Seventeen digits are always enough. -/
def shortest (tie : Tie) (b : Binary) : Scaled :=
  let (p, q) := twoPow b.exponent
  let k := magnitude (b.mantissa * p) q
  let grids := (List.range 17).findSome? fun n => onGrid? tie b (k - (n + 1 : Nat))
  match grids with
  | some d => trimZeros d.digits d.exponent
  | none => ⟨b.mantissa, 0⟩

end AngularAtlas.Decimal
