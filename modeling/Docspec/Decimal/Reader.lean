import Docspec.Decimal.Double

set_option autoImplicit false

namespace Docspec.Decimal

def takeSign : Text → Bool × Text
  | '+' :: t => (false, t)
  | '-' :: t => (true, t)
  | t => (false, t)

def readInt? (t : Text) : Option Int :=
  let (negative, body) := takeSign t
  (Text.digits? body).map fun n => if negative then -(n : Int) else n

def fitsWord (n : Int) : Bool := -(Nat.pow 2 63 : Int) ≤ n && n < (Nat.pow 2 63 : Int)

def readWord? (t : Text) : Option Int := (readInt? t).filter fitsWord

def readPower? : Text → Option Int
  | [] => some 0
  | c :: t => if c = 'e' ∨ c = 'E' then readInt? t else none

def readUnsigned? (negative : Bool) (t : Text) : Option Double :=
  let word := Text.asciiLower t
  if word = "inf".toList ∨ word = "infinity".toList then some (.infinite negative)
  else if word = "nan".toList then some .nan
  else
    let whole := t.takeWhile Text.isDigit
    let rest := t.dropWhile Text.isDigit
    let (fraction, rest) :=
      match rest with
      | '.' :: r => (r.takeWhile Text.isDigit, r.dropWhile Text.isDigit)
      | r => ([], r)
    match Text.digits? (whole ++ fraction), readPower? rest with
    | some digits, some power =>
      some (Double.ofDecimal negative digits (power - (fraction.length : Int)))
    | _, _ => none

def readDouble? (t : Text) : Option Double :=
  let (negative, body) := takeSign t
  readUnsigned? negative body

end Docspec.Decimal
