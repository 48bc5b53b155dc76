import Rockstar.Decimal.Shortest

/-!
# Numbers as text

Numbers are written and read in positional notation only, never with an exponent. A whole number
has no point, and a negative zero keeps its sign.
-/

namespace Rockstar.Decimal

/-- The digits of a natural number. -/
def digitText (n : Nat) : List Char := Nat.toDigits 10 n

/-- The decimal in positional notation. -/
def positional (d : Decimal) : List Char :=
  let ds := digitText d.digits
  let places := (-d.exponent).toNat
  if 0 ≤ d.exponent then ds ++ List.replicate d.exponent.toNat '0'
  else if places < ds.length then
    ds.take (ds.length - places) ++ '.' :: ds.drop (ds.length - places)
  else '0' :: '.' :: List.replicate (places - ds.length) '0' ++ ds

/-- The sign bit of a number. -/
def isNegative (x : Float) : Bool := x.toBits >>> 63 == 1

/-- The magnitude of a finite number other than zero, read off its bits. -/
def magnitudeOf (x : Float) : Binary :=
  let bits := x.toBits.toNat
  let exponent : Nat := bits / Nat.pow 2 52 % Nat.pow 2 11
  let fraction : Nat := bits % Nat.pow 2 52
  if exponent = 0 then ⟨fraction, -1074, false⟩
  else ⟨Nat.pow 2 52 + fraction, (exponent : Int) - 1075, fraction == 0 && 1 < exponent⟩

/-- The shortest text that reads back as the number. -/
def text (x : Float) : String :=
  if x.isNaN then "NaN"
  else
    let sign := if isNegative x then "-" else ""
    if x.isInf then sign ++ "inf"
    else if x == 0 then sign ++ "0"
    else sign ++ String.ofList (magnitudeOf x).shortest.positional

/-- The natural number with the given decimal digits, the most significant first. -/
def ofDigits (ds : List Nat) : Nat := ds.foldl (fun n d => 10 * n + d) 0

/-- The number nearest to the decimal with these digits before and after the point. -/
def read (whole fraction : List Nat) : Float :=
  Float.ofScientific (ofDigits (whole ++ fraction)) true fraction.length

/-- The value of a decimal digit. -/
def digitValue (c : Char) : Nat := c.toNat - '0'.toNat

/-- Reads digits with at most one point between them. -/
def readText (cs : List Char) : Float :=
  let whole := cs.takeWhile (· ≠ '.')
  let fraction := (cs.dropWhile (· ≠ '.')).drop 1
  read (whole.map digitValue) (fraction.map digitValue)

end Rockstar.Decimal
