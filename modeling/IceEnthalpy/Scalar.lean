/-!
# Scalars

The numerical part of the library is written once, over a `Scalar`.  When it runs, the scalar
is the binary64 `Float`, and every operation is the correctly rounded operation of that format;
when it is reasoned about, the scalar is a field such as the reals, and the same definitions
read as exact arithmetic.

A scalar brings the four operations and negation, decimal literals, decidable comparisons, an
equality test, the elementary functions that the analytic solutions use, and the two tests
with which the solvers recognise a breakdown: finiteness and the smallest normal magnitude.
-/

namespace IceEnthalpy

/-- Numbers that the library computes with. -/
class Scalar (α : Type) extends
    Add α, Sub α, Mul α, Div α, Neg α, OfScientific α, LT α, LE α, BEq α where
  /-- The strict order is decidable. -/
  decLt : DecidableRel (α := α) (· < ·)
  /-- The weak order is decidable. -/
  decLe : DecidableRel (α := α) (· ≤ ·)
  /-- The scalar nearest to a natural number. -/
  ofNat : Nat → α
  /-- Magnitude. -/
  abs : α → α
  /-- Sine of an angle in radians. -/
  sin : α → α
  /-- Cosine of an angle in radians. -/
  cos : α → α
  /-- The natural exponential. -/
  exp : α → α
  /-- The logarithm to base ten. -/
  log10 : α → α
  /-- `pow x y` is `x` raised to the real power `y`. -/
  pow : α → α → α
  /-- The ratio of a circle's circumference to its diameter. -/
  pi : α
  /-- Neither infinite nor undefined. -/
  isFinite : α → Bool
  /-- The smallest positive magnitude below which a pivot counts as zero. -/
  minNormal : α

/-- Comparisons of scalars can be decided. -/
@[inline] instance Scalar.instDecidableLt {α : Type} [Scalar α] : DecidableRel (α := α) (· < ·) :=
  Scalar.decLt

/-- Weak comparisons of scalars can be decided. -/
@[inline] instance Scalar.instDecidableLe {α : Type} [Scalar α] : DecidableRel (α := α) (· ≤ ·) :=
  Scalar.decLe

/-- Binary64 arithmetic, with the constants rounded to the nearest double. -/
@[always_inline] instance : Scalar Float where
  decLt := fun a b => inferInstanceAs (Decidable (a < b))
  decLe := fun a b => inferInstanceAs (Decidable (a ≤ b))
  ofNat := Float.ofNat
  abs := Float.abs
  sin := Float.sin
  cos := Float.cos
  exp := Float.exp
  log10 := Float.log10
  pow := Float.pow
  pi := 3.141592653589793
  isFinite := Float.isFinite
  minNormal := 2.2250738585072014e-308

end IceEnthalpy
