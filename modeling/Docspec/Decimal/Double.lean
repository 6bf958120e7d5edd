import Docspec.Text.Basic

set_option autoImplicit false

namespace Docspec

/-- A finite number is `mantissa * 2 ^ exponent`. Rounding gives the mantissa 53 digits unless the
exponent is the least one. -/
inductive Double
  | nan
  | infinite (negative : Bool)
  | finite (negative : Bool) (mantissa : Nat) (exponent : Int)
deriving DecidableEq

namespace Double

def leastExponent : Int := -1074

def greatestExponent : Int := 971

def zero (negative : Bool) : Double := .finite negative 0 leastExponent

def same : Double → Double → Bool
  | .infinite a, .infinite b => a == b
  | .finite a m e, .finite b n f => (m == 0 && n == 0) || (a == b && m == n && e == f)
  | _, _ => false

def inUnits (num den : Nat) (e : Int) : Nat × Nat :=
  if 0 ≤ e then (num, den * Nat.pow 2 e.toNat) else (num * Nat.pow 2 (-e).toNat, den)

def nearestEven (num den : Nat) : Nat :=
  let q := num / den
  let r := num % den
  if 2 * r > den || (2 * r == den && q % 2 == 1) then q + 1 else q

def round (negative : Bool) (num den : Nat) : Double :=
  if num = 0 then zero negative
  else
    let guess : Int := (num.log2 : Int) - (den.log2 : Int) - 52
    let (n, d) := inUnits num den guess
    let e := max leastExponent (if n / d < Nat.pow 2 52 then guess - 1 else guess)
    let (n, d) := inUnits num den e
    let m := nearestEven n d
    let (m, e) := if m = Nat.pow 2 53 then (Nat.pow 2 52, e + 1) else (m, e)
    if e > greatestExponent then .infinite negative else .finite negative m e

def digitCount (n : Nat) : Nat := (Nat.toDigits 10 n).length

/-- The nearest number to `digits * 10 ^ power`. Powers beyond every number's reach are answered
without computing them. -/
def ofDecimal (negative : Bool) (digits : Nat) (power : Int) : Double :=
  let magnitude := (digitCount digits : Int) + power
  if digits = 0 || magnitude < -330 then zero negative
  else if magnitude > 310 then .infinite negative
  else if 0 ≤ power then round negative (digits * Nat.pow 10 power.toNat) 1
  else round negative digits (Nat.pow 10 (-power).toNat)

def ofInt (n : Int) : Double := round (n < 0) n.natAbs 1

def wholePart? : Double → Option Nat
  | .finite _ m e =>
    if 0 ≤ e then some (m * Nat.pow 2 e.toNat)
    else
      let unit := Nat.pow 2 (-e).toNat
      if m % unit = 0 then some (m / unit) else none
  | _ => none

def isNegative : Double → Bool
  | .nan => false
  | .infinite negative => negative
  | .finite negative _ _ => negative

def isFinite : Double → Bool
  | .finite .. => true
  | _ => false

end Double

end Docspec
