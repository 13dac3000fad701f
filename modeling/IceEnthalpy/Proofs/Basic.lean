import Mathlib
import IceEnthalpy.Sign

/-!
# Exact arithmetic and outcomes

The numerical part of the library is written once over a `Scalar`.  Read over the reals, with
the real sine, cosine and exponential, every definition becomes exact arithmetic: this is the
reading in which the schemes are analysed and their laws are stated.

Every real is finite, so the tests with which the solvers recognise an overflow never fire; the
smallest normal magnitude is that of binary64, `2⁻¹⁰²²`, so a pivot is refused exactly when it
is that small.

The lemmas here turn the scalar operations into the real ones, so that later proofs can use
the real analysis of Mathlib.  Literals such as `0.5` are evaluated by `norm_num`.

Most operations of the library give a result or a failure.  The second half of the module
inverts such computations: a chain of stages that succeeded had every stage succeed.
-/

namespace IceEnthalpy

/-- Two is at least two.  As a named instance, it is the proof that every numeral `2` of the
reals carries, so that the numeral is one and the same term in every module. -/
instance atLeastTwo_two : Nat.AtLeastTwo 2 := ⟨le_rfl⟩

/-- Ten is at least two, for the numeral `10` of the reals, as for `2`. -/
instance atLeastTwo_ten : Nat.AtLeastTwo 10 := ⟨by decide⟩

/-- The reals as scalars: exact operations and the real elementary functions. -/
noncomputable instance Scalar.real : Scalar ℝ where
  decLt := fun a b => inferInstanceAs (Decidable (a < b))
  decLe := fun a b => inferInstanceAs (Decidable (a ≤ b))
  ofNat := Nat.cast
  abs := fun x => |x|
  sin := Real.sin
  cos := Real.cos
  exp := Real.exp
  log10 := Real.logb 10
  pow := fun x y => x ^ y
  pi := Real.pi
  isFinite := fun _ => true
  minNormal := 2 ^ (-1022 : ℤ)

namespace Exact

@[simp] theorem sin_eq (x : ℝ) : Scalar.sin x = Real.sin x := rfl

@[simp] theorem cos_eq (x : ℝ) : Scalar.cos x = Real.cos x := rfl

@[simp] theorem exp_eq (x : ℝ) : Scalar.exp x = Real.exp x := rfl

@[simp] theorem abs_eq (x : ℝ) : Scalar.abs x = |x| := rfl

@[simp] theorem pi_eq : (Scalar.pi : ℝ) = Real.pi := rfl

@[simp] theorem ofNat_eq (n : ℕ) : (Scalar.ofNat n : ℝ) = n := rfl

@[simp] theorem isFinite_eq (x : ℝ) : Scalar.isFinite x = true := rfl

@[simp] theorem minNormal_eq : (Scalar.minNormal : ℝ) = 2 ^ (-1022 : ℤ) := rfl

@[simp] theorem beq_eq (x y : ℝ) : (x == y) = decide (x = y) := rfl

/-- The smallest normal magnitude lies below one, so a magnitude of at least one is never
refused as a pivot. -/
theorem minNormal_lt_one : (Scalar.minNormal : ℝ) < 1 := by
  rw [minNormal_eq]
  exact zpow_lt_one_of_neg₀ (by norm_num) (by norm_num)

@[simp] theorem isPositive_iff (x : ℝ) : isPositive x = true ↔ 0 < x := by
  simp only [isPositive, decide_eq_true_eq]
  norm_num

@[simp] theorem isNonNegative_iff (x : ℝ) : isNonNegative x = true ↔ 0 ≤ x := by
  simp only [isNonNegative, decide_eq_true_eq]
  norm_num

theorem zero_lt_positive (p : Positive ℝ) : 0 < p.val := by
  have h := p.property
  norm_num at h
  exact h

end Exact

namespace Outcome

variable {ε ε' α β : Type}

theorem bind_eq_ok
    {x : Except ε α} {f : α → Except ε β} {b : β} :
    (x >>= f) = .ok b ↔ ∃ a, x = .ok a ∧ f a = .ok b := by
  cases x <;> simp [bind, Except.bind]

theorem mapError_eq_ok
    {x : Except ε α} {g : ε → ε'} {a : α} :
    x.mapError g = .ok a ↔ x = .ok a := by
  cases x <;> simp [Except.mapError]

theorem map_eq_ok
    {x : Except ε α} {f : α → β} {b : β} :
    x.map f = .ok b ↔ ∃ a, x = .ok a ∧ f a = b := by
  cases x <;> simp [Except.map]

theorem pure_eq_ok
    {a b : α} :
    (pure a : Except ε α) = .ok b ↔ a = b := by
  simp [pure, Except.pure]

theorem ok_bind
    {a : α} {f : α → Except ε β} :
    (Except.ok a >>= f) = f a := by
  rfl

theorem mapError_ok
    {a : α} {g : ε → ε'} :
    (Except.ok a : Except ε α).mapError g = .ok a := by
  rfl

end Outcome

theorem getD_of_lt
    {α : Type} (a : Array α) (d : α) {i : Nat}
    (hi : i < a.size) :
    a.getD i d = a[i] := by
  rw [Array.getD_eq_getD_getElem?, Array.getElem?_eq_getElem hi, Option.getD_some]

end IceEnthalpy
