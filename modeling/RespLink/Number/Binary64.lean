import RespLink.Number.Numeral

/-!
# Binary floating-point numbers as decimals

A `Binary64` is a 64-bit pattern: sign, 11 bits of exponent, 52 bits of fraction.  It is written
with the fewest digits that read back to it, positionally and never with an exponent.

* `Magnitude`       a positive finite value `m * 2 ^ q`;
* `Magnitude.holds` a decimal lies among the reals that round to the value;
* `shortest`        the decimal of fewest digits that does, the nearer of two, of equally near ones
                    the larger;
* `text`            the written form.
-/

namespace RespLink

structure Binary64 where
  bits : UInt64
deriving DecidableEq, Repr

/-- `m * 2 ^ q`, `m` positive; the gap to the value below is half as wide as the one above it
exactly when `narrow` -/
structure Magnitude where
  m : Nat
  q : Int
  narrow : Bool
deriving DecidableEq, Repr

/-- `digits * 10 ^ exp` -/
structure Decimal where
  digits : Nat
  exp : Int
deriving DecidableEq, Repr

namespace Magnitude

/-- compares `a * 10 ^ i` with `n * 2 ^ j` -/
def compareScaled (a : Nat) (i : Int) (n : Nat) (j : Int) : Ordering :=
  compare ((a * Nat.pow 10 i.toNat) <<< (-j).toNat) ((n <<< j.toNat) * Nat.pow 10 (-i).toNat)

/-- between the midpoints to both neighbours, which belong to the value if `m` is even -/
def holds (x : Magnitude) (d : Decimal) : Bool :=
  let low := if x.narrow then 4 * x.m - 1 else 4 * x.m - 2
  let high := 4 * x.m + 2
  let closed := x.m % 2 == 0
  let toLow := compareScaled d.digits d.exp low (x.q - 2)
  let toHigh := compareScaled d.digits d.exp high (x.q - 2)
  (toLow == .gt || closed && toLow == .eq) && (toHigh == .lt || closed && toHigh == .eq)

/-- the whole multiples of `10 ^ exp` in the value -/
def floorAt (x : Magnitude) (exp : Int) : Nat :=
  ((x.m <<< x.q.toNat) * Nat.pow 10 (-exp).toNat) / (Nat.pow 10 exp.toNat <<< (-x.q).toNat)

/-- the decimal below or above the value on the grid `10 ^ exp`, if one of them holds -/
def onGrid (x : Magnitude) (exp : Int) : Option Decimal :=
  let n := x.floorAt exp
  let below : Decimal := ⟨n, exp⟩
  let above : Decimal := ⟨n + 1, exp⟩
  match decide (0 < n) && x.holds below, x.holds above with
  | true, true =>
    -- the nearer one: the value against the middle of the two
    if compareScaled (2 * n + 1) exp (2 * x.m) x.q == .gt then some below else some above
  | true, false => some below
  | false, true => some above
  | false, false => none

/-- tries the grids from `exp` down to finer ones -/
def firstGrid (x : Magnitude) : Nat → Int → Option Decimal
  | 0, _ => none
  | steps + 1, exp =>
    match x.onGrid exp with
    | some d => some d
    | none => firstGrid x steps (exp - 1)

/-- no grid above `10 ^ 309` has a point that reads back, and one within 700 below it does -/
def shortest (x : Magnitude) : Decimal :=
  match x.firstGrid 700 310 with
  | some d => d
  | none => ⟨(x.m <<< x.q.toNat) * Nat.pow 5 (-x.q).toNat, -(-x.q).toNat⟩

end Magnitude

/-- digits with the point `exp` places from their end -/
def Decimal.positional (d : Decimal) : List Char :=
  let digits := Nat.toDigits 10 d.digits
  if 0 ≤ d.exp then digits ++ List.replicate d.exp.toNat '0'
  else
    let places := (-d.exp).toNat
    if digits.length ≤ places then
      ['0', '.'] ++ List.replicate (places - digits.length) '0' ++ digits
    else digits.take (digits.length - places) ++ ['.'] ++ digits.drop (digits.length - places)

namespace Binary64

def negative (x : Binary64) : Bool := x.bits >>> 63 == 1

def exponentBits (x : Binary64) : Nat := (x.bits >>> 52 &&& 0x7ff).toNat

def fractionBits (x : Binary64) : Nat := (x.bits &&& 0xfffffffffffff).toNat

/-- the magnitude of a finite value other than zero -/
def magnitude (x : Binary64) : Magnitude :=
  if x.exponentBits = 0 then ⟨x.fractionBits, -1074, false⟩
  else ⟨0x10000000000000 + x.fractionBits, (x.exponentBits : Int) - 1075,
    decide (x.fractionBits = 0 ∧ 1 < x.exponentBits)⟩

def unsignedText (x : Binary64) : List Char :=
  if x.exponentBits = 0 ∧ x.fractionBits = 0 then ['0']
  else if x.exponentBits = 2047 then "inf".toList
  else x.magnitude.shortest.positional

def text (x : Binary64) : String :=
  if x.exponentBits = 2047 ∧ x.fractionBits ≠ 0 then "NaN"
  else String.ofList ((if x.negative then ['-'] else []) ++ x.unsignedText)

end Binary64
end RespLink
