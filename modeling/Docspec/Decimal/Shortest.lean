import Docspec.Decimal.Double

set_option autoImplicit false

namespace Docspec.Double

/-- The decimals `n * 10 ^ power` that round to `mantissa * 2 ^ exponent`, in exact arithmetic:
`n * step` is compared with `unit` times a number of quarters of the last binary digit. -/
structure Interval where
  low : Nat
  middle : Nat
  high : Nat
  closed : Bool

/-- Half a step to each neighbour, in quarters of a step. Below a power of two the steps are half
as wide. The ends belong to the number when its mantissa is even. -/
def interval (mantissa : Nat) (exponent : Int) : Interval where
  low := if mantissa = Nat.pow 2 52 ∧ exponent > leastExponent then 4 * mantissa - 1
    else 4 * mantissa - 2
  middle := 4 * mantissa
  high := 4 * mantissa + 2
  closed := mantissa % 2 = 0

def Interval.holds (i : Interval) (step unit n : Nat) : Bool :=
  if i.closed then i.low * unit ≤ n * step && n * step ≤ i.high * unit
  else i.low * unit < n * step && n * step < i.high * unit

def onGrid? (i : Interval) (exponent power : Int) : Option Nat :=
  let quarter := exponent - 2
  let step := Nat.pow 10 power.toNat * Nat.pow 2 (-quarter).toNat
  let unit := Nat.pow 2 quarter.toNat * Nat.pow 10 (-power).toNat
  let below := i.middle * unit / step
  let above := below + 1
  match i.holds step unit below, i.holds step unit above with
  | true, true =>
    if 2 * (i.middle * unit) < (below + above) * step then some below else some above
  | true, false => some below
  | false, true => some above
  | false, false => none

/-- A power of ten above the number, and at most two digits too high. -/
def powerAbove (mantissa : Nat) (exponent : Int) : Int :=
  ((mantissa.log2 : Int) + exponent + 1) * 30103 / 100000 + 1

def shortest (mantissa : Nat) (exponent : Int) : Nat × Int :=
  let i := interval mantissa exponent
  let top := powerAbove mantissa exponent
  let hit := (List.range 24).findSome? fun (n : Nat) =>
    let power := top - (n : Int)
    (onGrid? i exponent power).map fun digits => (digits, power)
  hit.getD (0, 0)

def positional (digits : Nat) (power : Int) : Text :=
  let ds := Text.ofNat digits
  if 0 ≤ power then ds ++ List.replicate power.toNat '0'
  else
    let places := (-power).toNat
    if places < ds.length then
      ds.take (ds.length - places) ++ '.' :: ds.drop (ds.length - places)
    else '0' :: '.' :: List.replicate (places - ds.length) '0' ++ ds

def signed (negative : Bool) (t : Text) : Text := if negative then '-' :: t else t

def plain : Double → Text
  | .nan => "NaN"
  | .infinite negative => signed negative "inf"
  | .finite negative 0 _ => signed negative "0"
  | .finite negative m e =>
    let (digits, power) := shortest m e
    signed negative (positional digits power)

def display (x : Double) : Text :=
  match x.wholePart? with
  | some n => if n < Nat.pow 10 15 then signed x.isNegative (Text.ofNat n ++ ".0") else x.plain
  | none => x.plain

end Docspec.Double
