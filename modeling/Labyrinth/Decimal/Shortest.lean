import Labyrinth.Decimal.Double

/-!
# Shortest decimals

A finite double is written with the fewest digits that read back as it, positionally,
without an exponent and without a fraction of zero. The reals that read back as a double
are an interval around it, ends included when its significand is even. On the decimal grid of
each length in turn the two neighbours of the double are tried; the nearer one wins, and
the upper one if both are equally near. All of it is arithmetic on natural numbers.
-/

namespace Labyrinth.Decimal

/-- The least significand of a double that is not tiny. -/
def hiddenBit : Nat := 4503599627370496

/-- The bit of a double that is its sign. -/
def signBit : Nat := 9223372036854775808

/-- A positive double and the interval of reals that read back as it, over one denominator. -/
structure Interval where
  /-- The double. -/
  value : Nat
  /-- The lower end. -/
  low : Nat
  /-- The upper end. -/
  high : Nat
  /-- The denominator. -/
  den : Nat
  /-- Whether the ends belong to the interval. -/
  closed : Bool

namespace Interval

/-- The interval of the double `m * 2 ^ (e - 1075)`, where `e` is its biased exponent, at least 1.
Below the least significand of an exponent the doubles are twice as dense. -/
def ofParts (m e : Nat) : Interval :=
  let up := Nat.pow 2 (e - 1077)
  let gap := if m = hiddenBit ∧ 1 < e then 1 else 2
  ⟨4 * m * up, (4 * m - gap) * up, (4 * m + 2) * up, Nat.pow 2 (1077 - e), m % 2 = 0⟩

/-- Whether a multiple of the grid unit `unit`, over the denominator of the ends, lies inside. -/
def contains (i : Interval) (x : Nat) : Bool :=
  if i.closed then i.low ≤ x && x ≤ i.high else i.low < x && x < i.high

/-- The interval with all numbers multiplied. -/
def scale (i : Interval) (k : Nat) : Interval :=
  { i with value := i.value * k, low := i.low * k, high := i.high * k }

/-- The double on the grid of the multiples of `10 ^ exponent`: the nearest grid point inside the
interval, as a multiple. -/
def onGrid? (i : Interval) (exponent : Int) : Option Nat :=
  let j := i.scale (Nat.pow 10 (-exponent).toNat)
  let unit := i.den * Nat.pow 10 exponent.toNat
  let below := j.value / unit
  let hasBelow := j.contains (below * unit)
  let hasAbove := j.contains ((below + 1) * unit)
  let nearerBelow := 2 * (j.value - below * unit) < unit
  if hasBelow && (nearerBelow || !hasAbove) then some below
  else if hasAbove then some (below + 1)
  else none

/-- The number of digits before the point; for a number below 1, less the zeros after the point
that precede the first other digit. -/
def magnitude (i : Interval) : Int :=
  if i.den ≤ i.value then ((Nat.toDigits 10 (i.value / i.den)).length : Int)
  else
    -(((List.range 400).takeWhile (fun t => i.value * Nat.pow 10 (t + 1) < i.den)).length : Int)

/-- The shortest multiple of a power of ten that reads back as the double, with its exponent.
The first grid has no point below the double but zero, and its first point above it. -/
def shortest (i : Interval) : Nat × Int :=
  let n := i.magnitude
  let tries := (List.range 19).findSome? fun (d : Nat) =>
    let exponent := n - d
    (i.onGrid? exponent).map (·, exponent)
  tries.getD (0, 0)

end Interval

/-- A natural number times a power of ten, written positionally. -/
def positional (digits : Nat) (exponent : Int) : String :=
  if 0 ≤ exponent then toString (digits * Nat.pow 10 exponent.toNat)
  else
    let places := (-exponent).toNat
    let ds := Nat.toDigits 10 digits
    let ds := List.replicate (places + 1 - ds.length) '0' ++ ds
    let whole := ds.length - places
    String.ofList (ds.take whole ++ '.' :: ds.drop whole)

/-- The text of the magnitude of a double, given by its bits without the sign. -/
def magnitudeText (bits : Nat) : String :=
  let e := bits / hiddenBit
  let m := bits % hiddenBit
  if e = 2047 then (if m = 0 then "inf" else "NaN")
  else if bits = 0 then "0"
  else
    let i := if e = 0 then Interval.ofParts m 1 else Interval.ofParts (hiddenBit + m) e
    let (digits, exponent) := i.shortest
    positional digits exponent

/-- The text of a double. Not a number has no sign. -/
def text (x : Double) : String :=
  let bits := x.bits.toNat
  let size := bits % signBit
  let shown := magnitudeText size
  if signBit ≤ bits ∧ shown ≠ "NaN" then "-" ++ shown else shown

example : magnitudeText 0x3ff8000000000000 = "1.5" ∧ magnitudeText 0x4059000000000000 = "100" ∧
    magnitudeText 0x3fb999999999999a = "0.1" ∧ magnitudeText 0x3e7ad7f29abcaf48 = "0.0000001" ∧
    magnitudeText 0x3ff0000000000001 = "1.0000000000000002" := by
  decide +kernel

end Labyrinth.Decimal
