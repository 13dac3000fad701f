import IceEnthalpy.Decimal.Binary64

/-!
# Shortest decimals that read back

Every finite binary64 value `v = m · 2^q` with `m > 0` owns an interval of reals that round to
it.  In units of `2^(q-2)` the interval runs from `4m - 2` to `4m + 2`, except that the gap below
is half as wide when `m` is exactly the hidden bit `2^52`, so that the lower end is `4m - 1`; the
ends belong to the interval when `m` is even, since ties round to an even significand.

The shortest decimal of `v` is found on the decimal grids of 1, 2, …, 17 significant digits.
The interval is convex and holds `v`, so it meets a grid exactly when it holds one of the two
neighbours of `v` on that grid.  A grid with fewer digits has only points of every grid with
more, so meeting a grid is monotone in the number of digits, and the least grid that the
interval meets is found by halving.  Of two neighbours inside, the nearer one wins, and an exact
tie goes to the upper one.  All comparisons are exact products of naturals.
-/

namespace IceEnthalpy
namespace Decimal

/-- The decimal `mantissa · 10^exponent`. -/
structure Digits where
  /-- The significant digits, as one natural number. -/
  mantissa : Nat
  /-- The power of ten of the last digit. -/
  exponent : Int
  deriving Repr, DecidableEq

/-- Compares `a · 10^i · 2^j` with `b`, exactly. -/
def compareScaled (a : Nat) (i j : Int) (b : Nat) : Ordering :=
  compare (a * Nat.pow 10 i.toNat * Nat.pow 2 j.toNat)
    (b * Nat.pow 10 (-i).toNat * Nat.pow 2 (-j).toNat)

/-- The number of decimal digits of a natural number; zero has one. -/
def digitCount (n : Nat) : Nat :=
  (toString n).length

/-- Drops the trailing zeros of the mantissa into the exponent. -/
def Digits.trim (d : Digits) : Digits :=
  if h : d.mantissa ≠ 0 ∧ d.mantissa % 10 = 0 then
    Digits.trim ⟨d.mantissa / 10, d.exponent + 1⟩
  else d
termination_by d.mantissa
decreasing_by exact Nat.div_lt_self (Nat.pos_of_ne_zero h.1) (by decide)

/-- The power of ten of the leading digit of a decimal with a non-zero mantissa. -/
def Digits.leadingExponent (d : Digits) : Int :=
  d.exponent + (digitCount d.mantissa : Int) - 1

/-- Where a value falls on one decimal grid, measured in a unit of its own: with the unit
`2^(q-2)/10^j = unit/scale`, the value `4m` units lies `rest` units (scaled by `scale`) above
the grid point `floor · 10^j`, so `4m · unit = floor · scale + rest` with `rest < scale`. -/
structure Placement where
  /-- The value divided by the grid step, rounded down. -/
  floor : Nat
  /-- What is left above the grid point below, times `scale`. -/
  rest : Nat
  /-- The grid step in units of `2^(q-2)`, times `scale`, is `scale`. -/
  scale : Nat
  /-- One unit `2^(q-2)`, times `scale`, in grid steps. -/
  unit : Nat
  deriving Repr, DecidableEq

section Interval

variable (m : Nat) (q : Int)

/-- `m · 2^q < 10^k`. -/
def below (k : Int) : Bool :=
  compareScaled m (-k) q 1 == .lt

/-- The least `k` with `m · 2^q < 10^k`, for `m > 0`: the number of digits before the point
when the value is at least one. -/
def decimalLength : Int :=
  let k := (q + (Nat.log2 m : Int)) * 78913 / 262144 + 1
  if below m q (k - 1) then k - 1
  else if below m q k then k
  else if below m q (k + 1) then k + 1
  else k + 2

/-- `⌊m · 2^q / 10^j⌋`. -/
def floorAt (j : Int) : Nat :=
  m * Nat.pow 2 q.toNat * Nat.pow 10 (-j).toNat / (Nat.pow 2 (-q).toNat * Nat.pow 10 j.toNat)

/-- The distance from the value down to the lower end of its interval, in units of
`2^(q-2)`: half the upper distance `2` when `m` is the hidden bit. -/
def lowerGap : Nat :=
  if m = Nat.pow 2 Binary64.fractionBits then 1 else 2

/-- The value on the decimal grid of step `10^j`. -/
def placement (j : Int) : Placement :=
  let unit := Nat.pow 2 (q - 2).toNat * Nat.pow 10 (-j).toNat
  let scale := Nat.pow 2 (2 - q).toNat * Nat.pow 10 j.toNat
  let scaled := 4 * m * unit
  ⟨scaled / scale, scaled % scale, scale, unit⟩

/-- Whether a distance `gap · scale` (the interval's end, `units` away) is within reach: up
to and including the end when `m` is even, short of it otherwise. -/
def within (gap units : Nat) : Bool :=
  if m % 2 = 0 then decide (gap ≤ units) else decide (gap < units)

/-- The grid point of `n` significant digits that the value is written as, if one of its two
neighbours on that grid rounds to it; `length` is the value's `decimalLength`.  When both do, the
nearer one is taken: the lower below the midpoint, the upper from it on. -/
def onGrid (length : Int) (n : Nat) : Option Digits :=
  let j := length - n
  let p := placement m q j
  let lowerIn := within m p.rest (lowerGap m * p.unit)
  let upperIn := within m (p.scale - p.rest) (2 * p.unit)
  match lowerIn, upperIn with
  | true, true =>
    if 2 * p.rest < p.scale then some ⟨p.floor, j⟩ else some ⟨p.floor + 1, j⟩
  | true, false => some ⟨p.floor, j⟩
  | false, true => some ⟨p.floor + 1, j⟩
  | false, false => none

/-- The least number of digits in `[lo, hi]` whose grid the interval meets, by halving; `hi`
when none below it does. -/
def leastDigits (length : Int) (lo hi : Nat) : Nat :=
  if _h : lo < hi then
    let mid := (lo + hi) / 2
    if (onGrid m q length mid).isSome then leastDigits length lo mid
    else leastDigits length (mid + 1) hi
  else hi
termination_by hi - lo
decreasing_by all_goals omega

/-- The shortest decimal that rounds to `m · 2^q`, nearest among the shortest, with its
trailing zeros dropped.  Seventeen digits always suffice for binary64. -/
def shortest : Digits :=
  let length := decimalLength m q
  match onGrid m q length (leastDigits m q length 1 17) with
  | some d => d.trim
  | none => (⟨floorAt m q (length - 17), length - 17⟩ : Digits).trim

end Interval

end Decimal
end IceEnthalpy
