/-
# ConfigDrive.Decimal.Shortest — the shortest decimal that reads back.

A double stands for every real number that rounds to it: the interval between the midpoints to its two
neighbours, ends included when its significand is even.  `shortest` takes the coarsest decimal grid
that has a point in this interval, and of two such points the nearer one, the upper one at a tie.
`text` writes the digits positionally, never with an exponent, and with at least one digit after the
point.
-/
import ConfigDrive.Decimal.Binary64

namespace ConfigDrive.Decimal

/-- A positive rational number. -/
structure Ratio where
  num : Nat
  den : Nat

/-- The decimal `digits * 10 ^ exponent`. -/
structure Digits where
  digits : Nat
  exponent : Int
  deriving DecidableEq, Repr

namespace Binary64

/-! ## The interval of a double -/

/-- `4 * significand`, moved by `offset`, as a multiple of a quarter of the last binary place. -/
def quarters (x : Binary64) (offset : Int) : Ratio :=
  let n := (4 * (x.significand : Int) + offset).toNat
  let e := x.exponent - 2
  if 0 ≤ e then ⟨n <<< e.toNat, 1⟩ else ⟨n, 1 <<< (-e).toNat⟩

/-- The distance to the lower midpoint, in quarters: below a power of two the doubles lie twice as
close, unless the exponent is the smallest one. -/
def lowerGap (x : Binary64) : Int :=
  if x.magnitude % unitBit == 0 && decide (2 * unitBit ≤ x.magnitude) then 1 else 2

/-- A grid point `digits * 10 ^ exponent` rounds to the double. -/
def covers (x : Binary64) (p : Digits) : Bool :=
  let point : Ratio :=
    if 0 ≤ p.exponent then ⟨p.digits * Nat.pow 10 p.exponent.toNat, 1⟩
    else ⟨p.digits, Nat.pow 10 (-p.exponent).toNat⟩
  let low := x.quarters (-x.lowerGap)
  let high := x.quarters 2
  let l := low.num * point.den
  let h := high.num * point.den
  if x.significand % 2 == 0 then
    decide (l ≤ point.num * low.den) && decide (point.num * high.den ≤ h)
  else decide (l < point.num * low.den) && decide (point.num * high.den < h)

/-! ## The grids -/

/-- The number of decimal places by which `n / d`, below one, must be moved left to reach one; the
search stops at `limit`. -/
def leadingZeros (n d : Nat) : Nat → Nat
  | 0 => 0
  | limit + 1 => if d ≤ n then 0 else leadingZeros (n * 10) d limit + 1

/-- The power of ten just above a positive number. -/
def decimalSize (r : Ratio) : Int :=
  if r.den ≤ r.num then (Nat.toDigits 10 (r.num / r.den)).length
  else 1 - (leadingZeros r.num r.den 400 : Int)

/-- The point of the grid of `10 ^ exponent` that stands for the double, if there is one: of the two
points around the number the nearer, the upper one if both are as near, or the only one in the
interval. -/
def gridPoint? (x : Binary64) (exponent : Int) : Option Digits :=
  let v := x.quarters 0
  let scaled : Ratio :=
    if 0 ≤ exponent then ⟨v.num, v.den * Nat.pow 10 exponent.toNat⟩
    else ⟨v.num * Nat.pow 10 (-exponent).toNat, v.den⟩
  let below := scaled.num / scaled.den
  let nearest := (2 * scaled.num + scaled.den) / (2 * scaled.den)
  [nearest, below, below + 1].map (⟨·, exponent⟩) |>.find? x.covers

/-- The shortest decimal that reads back as the magnitude of a positive finite number.  The coarsest
grid is that of the power of ten above the number, which may itself be the nearest decimal; the one
of seventeen digits always has a point. -/
def shortest (x : Binary64) : Digits :=
  let size := decimalSize (x.quarters 0)
  ((List.range 18).findSome? fun (places : Nat) => x.gridPoint? (size - places)).getD ⟨0, 0⟩

/-! ## Text -/

/-- Positional digits with at least one digit after the point. -/
def positional (p : Digits) : List Char :=
  let ds := Nat.toDigits 10 p.digits
  if 0 ≤ p.exponent then ds ++ List.replicate p.exponent.toNat '0' ++ ['.', '0']
  else
    let places := (-p.exponent).toNat
    if places < ds.length then ds.take (ds.length - places) ++ '.' :: ds.drop (ds.length - places)
    else ['0', '.'] ++ List.replicate (places - ds.length) '0' ++ ds

/-- A number as text. -/
def text (x : Binary64) : String :=
  if x.isNaN then "NaN"
  else
    let sign := if x.isNegative then "-" else ""
    if x.isInfinite then sign ++ "inf"
    else if x.isZero then sign ++ "0.0"
    else sign ++ String.ofList (positional x.shortest)

end Binary64

end ConfigDrive.Decimal
