/-!
# Shortest decimals

A binary number `m * 2 ^ q` stands for all real numbers that round to it. Among the decimals in
that interval `Binary.shortest` finds one with the fewest digits, and of those the nearest to the
number itself. Everything is exact arithmetic on natural numbers.
-/

namespace Rockstar

/-- The decimal `digits * 10 ^ exponent`. -/
structure Decimal where
  digits : Nat
  exponent : Int
  deriving DecidableEq

namespace Decimal

/-- A positive binary number `mantissa * 2 ^ exponent`. The next smaller number of its format is
half as far away as the next larger one when `narrowBelow` holds. -/
structure Binary where
  mantissa : Nat
  exponent : Int
  narrowBelow : Bool
  deriving DecidableEq

/-- Three fractions with one denominator: the ends of the interval of numbers that round to a
binary number, and the number itself. The ends belong to the interval when `closed` holds. -/
structure Interval where
  low : Nat
  mid : Nat
  high : Nat
  den : Nat
  closed : Bool

/-- The numbers that round to `b`: half way to its neighbours on either side, with ties going to
the even mantissa. -/
def Binary.interval (b : Binary) : Interval :=
  let up := Nat.pow 2 b.exponent.toNat
  let down := Nat.pow 2 (-b.exponent).toNat
  { low := (4 * b.mantissa - if b.narrowBelow then 1 else 2) * up
    mid := 4 * b.mantissa * up
    high := (4 * b.mantissa + 2) * up
    den := 4 * down
    closed := b.mantissa % 2 == 0 }

/-- The interval in units of `10 ^ e`. -/
def Interval.inUnits (i : Interval) (e : Int) : Interval :=
  let shrink := Nat.pow 10 e.toNat
  let grow := Nat.pow 10 (-e).toNat
  { i with low := i.low * grow, mid := i.mid * grow, high := i.high * grow, den := i.den * shrink }

/-- Whether the whole number `n` lies in the interval. -/
def Interval.has (i : Interval) (n : Nat) : Bool :=
  if i.closed then i.low ≤ n * i.den && n * i.den ≤ i.high
  else i.low < n * i.den && n * i.den < i.high

/-- The whole number in the interval that is nearest to its middle; of two that are equally near
the larger one. Only the two neighbours of the middle can be nearest. -/
def Interval.nearest? (i : Interval) : Option Nat :=
  let below := i.mid / i.den
  let rest := i.mid % i.den
  match i.has below, i.has (below + 1) with
  | true, true => some (if 2 * rest < i.den then below else below + 1)
  | true, false => some below
  | false, true => some (below + 1)
  | false, false => none

/-- The number of decimal digits of a natural number; zero has one. -/
def digitCount (n : Nat) : Nat := (Nat.toDigits 10 n).length

/-- The `p` with `10 ^ (p - 1) ≤ mid < 10 ^ p`. -/
def Interval.magnitude (i : Interval) : Int :=
  let p : Int := digitCount i.mid - digitCount i.den
  let scaled := i.inUnits p
  if scaled.mid < scaled.den then p else p + 1

/-- The decimal with trailing zeros moved from its digits to its exponent, at most `fuel` of
them. -/
def stripZeros : Nat → Decimal → Decimal
  | 0, d => d
  | fuel + 1, d =>
    if d.digits ≠ 0 ∧ d.digits % 10 = 0 then stripZeros fuel ⟨d.digits / 10, d.exponent + 1⟩ else d

/-- The nearest decimal with `count` digits, if one rounds to the number. -/
def Interval.withDigits? (i : Interval) (magnitude : Int) (count : Nat) : Option Decimal :=
  let e := magnitude - count
  (i.inUnits e).nearest?.map fun n => stripZeros (count + 1) ⟨n, e⟩

/-- The largest number of digits that a number of 64 bits needs. -/
def maxDigits : Nat := 17

/-- The shortest decimal that rounds to the number, and of those the nearest. -/
def Binary.shortest (b : Binary) : Decimal :=
  let i := b.interval
  let p := i.magnitude
  match (List.range' 1 maxDigits).findSome? (i.withDigits? p) with
  | some d => d
  | none => ⟨0, 0⟩

end Decimal

end Rockstar
