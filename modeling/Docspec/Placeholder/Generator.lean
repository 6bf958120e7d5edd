import Docspec.Placeholder.Registry

set_option autoImplicit false

namespace Docspec.Placeholder

/-- What the generating functions draw on: seconds since the first of January 1970 and a number
whose binary digits are random. -/
structure Moment where
  seconds : Nat
  random : Nat

def padded (width n : Nat) : Text :=
  let digits := Text.ofNat n
  List.replicate (width - digits.length) '0' ++ digits

def hexDigits : Nat → Nat → Text
  | 0, _ => []
  | width + 1, n => hexDigits width (n / 16) ++ [Nat.digitChar (n % 16)]

/-- Year, month and day of a day counted from the first of January 1970, by the calendar that
repeats every 146097 days. Years start in March so that the leap day comes last. -/
def civilDate (day : Nat) : Nat × Nat × Nat :=
  let shifted := day + 719468
  let era := shifted / 146097
  let dayOfEra := shifted % 146097
  let yearOfEra := (dayOfEra - dayOfEra / 1460 + dayOfEra / 36524 - dayOfEra / 146096) / 365
  let dayOfYear := dayOfEra - (365 * yearOfEra + yearOfEra / 4 - yearOfEra / 100)
  let monthFromMarch := (5 * dayOfYear + 2) / 153
  let dayOfMonth := dayOfYear - (153 * monthFromMarch + 2) / 5 + 1
  let month := if monthFromMarch < 10 then monthFromMarch + 3 else monthFromMarch - 9
  let year := yearOfEra + era * 400 + if month ≤ 2 then 1 else 0
  (year, month, dayOfMonth)

def isoTime (m : Moment) : Text :=
  let s := m.seconds % 86400
  padded 2 (s / 3600) ++ ':' :: padded 2 (s / 60 % 60) ++ ':' :: padded 2 (s % 60)

def isoDate (m : Moment) : Text :=
  let (year, month, day) := civilDate (m.seconds / 86400)
  padded 4 year ++ '-' :: padded 2 month ++ '-' :: padded 2 day

def isoDatetime (m : Moment) : Text := isoDate m ++ 'T' :: isoTime m

def uuid (m : Moment) : Text :=
  let r := m.random
  hexDigits 8 r ++ '-' :: hexDigits 4 (r >>> 32) ++ '-' :: '4' :: hexDigits 3 (r >>> 48) ++
    '-' :: hexDigits 4 (0x8000 + (r >>> 60) % 0x4000) ++ '-' :: hexDigits 12 (r >>> 74)

def objectId (m : Moment) : Text := hexDigits 8 m.seconds ++ hexDigits 16 m.random

def withoutArgument (name result : Text) : Function
  | none => .ok result
  | some argument =>
    .error (name ++ "() takes no arguments, got `".toList ++ argument ++ "`".toList)

def builtinFunctions (m : Moment) : List (Text × Function) :=
  [("iso-time", isoTime m), ("iso-date", isoDate m), ("iso-datetime", isoDatetime m),
   ("uuid", uuid m), ("object-id", objectId m)].map fun (name, result) =>
    (name, withoutArgument name result)

end Docspec.Placeholder
