/-!
# Binary64 patterns as exact numbers

A binary64 pattern of 64 bits is a sign bit, eleven exponent bits and a fraction of 52 bits.
Read exactly, it is a NaN, a signed infinity, or a signed finite value `m · 2^q` with a natural
significand `m`: for a biased exponent `e` between 1 and 2046 the significand is the fraction
with its leading bit `2^52` restored and `q = e - 1075`, and for `e = 0` the significand is the
fraction itself and `q = -1074`.

The decimal printers of this library work from this reading alone, so every digit they write is
a statement about a rational number.
-/

namespace IceEnthalpy
namespace Decimal

/-- The exact value that a binary64 pattern stands for. -/
inductive Binary64 where
  /-- Not a number, whatever its sign and payload. -/
  | nan
  /-- An infinity; the flag is the sign bit. -/
  | infinite (negative : Bool)
  /-- The value `±significand · 2^exponent`; the flag is the sign bit, so `-0` is kept. -/
  | finite (negative : Bool) (significand : Nat) (exponent : Int)
  deriving Repr, DecidableEq

namespace Binary64

/-- Number of fraction bits. -/
def fractionBits : Nat := 52

/-- The pattern's reading as an exact number. -/
def ofBits (bits : UInt64) : Binary64 :=
  let n := bits.toNat
  let negative := decide (Nat.pow 2 63 ≤ n)
  let biased : Nat := n / Nat.pow 2 fractionBits % Nat.pow 2 11
  let fraction : Nat := n % Nat.pow 2 fractionBits
  if biased = Nat.pow 2 11 - 1 then
    if fraction = 0 then .infinite negative else .nan
  else if biased = 0 then
    .finite negative fraction (-1074)
  else
    .finite negative (fraction + Nat.pow 2 fractionBits) ((biased : Int) - 1075)

/-- The exact reading of a float. -/
def ofFloat (x : Float) : Binary64 :=
  ofBits x.toBits

end Binary64

end Decimal
end IceEnthalpy
