import IceEnthalpy.Decimal.Shortest

/-!
# Decimals rounded at a fixed place

Writing a value with a fixed number of places after the point, or with a fixed number of
significant digits, rounds the exact binary value to the nearest point of one decimal grid.
A value exactly halfway between two grid points goes to the one whose last digit is even.
-/

namespace IceEnthalpy
namespace Decimal

/-- `num / den` rounded to the nearest natural, a half going to the even neighbour. -/
def roundHalfEven (num den : Nat) : Nat :=
  let quotient := num / den
  let twice := 2 * (num % den)
  if twice > den ∨ (twice = den ∧ quotient % 2 = 1) then quotient + 1 else quotient

section Places

variable (m : Nat) (q : Int)

/-- `m · 2^q · 10^places`, rounded to the nearest natural with ties to even. -/
def fixedAt (places : Nat) : Nat :=
  roundHalfEven (m * Nat.pow 2 q.toNat * Nat.pow 10 places) (Nat.pow 2 (-q).toNat)

/-- The value `m · 2^q` (with `m > 0`) rounded to `places + 1` significant digits, ties to
even; the mantissa has exactly `places + 1` digits. -/
def significantAt (places : Nat) : Digits :=
  let lead := decimalLength m q - 1
  let j := lead - places
  let n := roundHalfEven (m * Nat.pow 2 q.toNat * Nat.pow 10 (-j).toNat)
    (Nat.pow 2 (-q).toNat * Nat.pow 10 j.toNat)
  if n = Nat.pow 10 (places + 1) then ⟨Nat.pow 10 places, j + 1⟩ else ⟨n, j⟩

end Places

end Decimal
end IceEnthalpy
