import IceEnthalpy.Proofs.Basic
import IceEnthalpy.Run

/-!
# Runs from steps

A run is its schedule followed by the march of that many steps.  Two facts carry every
statement about a whole run:

* the march keeps any invariant that one step keeps, the invariant being allowed to move
  along with the steps (an amplitude that is multiplied, a count that grows);
* in exact arithmetic the schedule counts `⌈t_final/Δt⌉` steps: the step times are the
  multiples of `Δt`, and the first multiple not below `t_final` ends the run.

The time reached after `k` steps is then `k·Δt`.
-/

namespace IceEnthalpy

namespace Run

variable {σ α : Type} [Scalar α] [Stepper σ α]

/-- The march keeps an invariant that every step keeps.  The invariant is indexed, so that each
step may move it on by `next`; the time advances by `Δt` per step and the count by one. -/
theorem march_of_step
    {ι : Type} (Inv : ι → Column α → σ → Prop) (next : ι → ι)
    {conditions : Conditions α} (dt : α)
    (hstep : ∀ i c s, Inv i c s → ∃ p c' s',
      ((Stepper.advance c conditions).run.run s).run = (.ok (p, c'), s') ∧ Inv (next i) c' s') :
    ∀ (k j : Nat) (t : α) (profile : Array α) (i : ι) (c : Column α) (s : σ), Inv i c s →
      ∃ p c' s', march conditions dt k j t profile c s =
        (.ok ⟨p, (· + dt)^[k] t, j + k⟩, c', s') ∧ Inv (next^[k] i) c' s' := by
  intro k
  induction k with
  | zero =>
      intro j t profile i c s hinv
      exact ⟨profile, c, s, rfl, hinv⟩
  | succ k ih =>
      intro j t profile i c s hinv
      obtain ⟨p, c', s', hadvance, hinv'⟩ := hstep i c s hinv
      obtain ⟨q, c'', s'', hmarch, hinv''⟩ := ih (j + 1) (t + dt) p (next i) c' s' hinv'
      refine ⟨q, c'', s'', ?_, ?_⟩
      · rw [march, hadvance]
        dsimp only
        rw [hmarch, Function.iterate_succ_apply, Nat.add_right_comm, Nat.add_assoc]
      · rwa [Function.iterate_succ_apply]

end Run

namespace Schedule

section Exact

variable {dt tEnd : ℝ}

/-- Below the final time exactly the multiples `j·Δt` with `j < ⌈t_final/Δt⌉`. -/
theorem mul_lt_iff_lt_ceil
    (hdt : 0 < dt)
    (j : Nat) :
    (j : ℝ) * dt < tEnd ↔ j < ⌈tEnd / dt⌉₊ := by
  rw [Nat.lt_ceil, lt_div_iff₀ hdt]

/-- From `j ≤ ⌈t_final/Δt⌉` steps taken at time `j·Δt`, the schedule counts up to
`⌈t_final/Δt⌉` when the fuel reaches it. -/
theorem remaining_eq
    (hdt : 0 < dt) :
    ∀ (fuel taken : Nat), taken ≤ ⌈tEnd / dt⌉₊ → ⌈tEnd / dt⌉₊ ≤ taken + fuel →
      remaining dt tEnd fuel taken (taken * dt) = some ⌈tEnd / dt⌉₊ := by
  intro fuel
  induction fuel with
  | zero =>
      intro taken hle hfuel
      have htaken : taken = ⌈tEnd / dt⌉₊ := by omega
      rw [remaining, if_neg (by rw [mul_lt_iff_lt_ceil hdt]; omega), htaken]
  | succ fuel ih =>
      intro taken hle hfuel
      rw [remaining]
      split
      · next hbefore =>
          rw [mul_lt_iff_lt_ceil hdt] at hbefore
          have hnext : (taken : ℝ) * dt + dt = ((taken + 1 : Nat) : ℝ) * dt := by
            push_cast
            ring
          rw [hnext]
          exact ih (taken + 1) (by omega) (by omega)
      · next hafter =>
          rw [mul_lt_iff_lt_ceil hdt] at hafter
          congr 1
          omega

/-- Short of `⌈t_final/Δt⌉` steps in all, the schedule runs out of fuel. -/
theorem remaining_eq_none
    (hdt : 0 < dt) :
    ∀ (fuel taken : Nat), taken + fuel < ⌈tEnd / dt⌉₊ →
      remaining dt tEnd fuel taken (taken * dt) = none := by
  intro fuel
  induction fuel with
  | zero =>
      intro taken hfuel
      rw [remaining, if_pos (by rw [mul_lt_iff_lt_ceil hdt]; omega)]
  | succ fuel ih =>
      intro taken hfuel
      have hnext : (taken : ℝ) * dt + dt = ((taken + 1 : Nat) : ℝ) * dt := by
        push_cast
        ring
      rw [remaining, if_pos (by rw [mul_lt_iff_lt_ceil hdt]; omega), hnext]
      exact ih (taken + 1) (by omega)

/-- A run from time zero is scheduled, for `k` steps, exactly when `k = ⌈t_final/Δt⌉` and the
limit allows that many. -/
theorem count_eq_some_iff
    (hdt : 0 < dt)
    {limit k : Nat} :
    count dt tEnd limit = some k ↔ k = ⌈tEnd / dt⌉₊ ∧ ⌈tEnd / dt⌉₊ ≤ limit := by
  have hzero : (0.0 : ℝ) = ((0 : Nat) : ℝ) * dt := by
    norm_num
  unfold count
  rw [hzero]
  constructor
  · intro h
    by_cases hlimit : ⌈tEnd / dt⌉₊ ≤ limit
    · rw [remaining_eq hdt limit 0 (Nat.zero_le _) (by omega), Option.some_inj] at h
      exact ⟨h.symm, hlimit⟩
    · rw [remaining_eq_none hdt limit 0 (by omega)] at h
      contradiction
  · rintro ⟨rfl, hlimit⟩
    exact remaining_eq hdt limit 0 (Nat.zero_le _) (by omega)

/-- A run from time zero is scheduled for `⌈t_final/Δt⌉` steps when that many are allowed. -/
theorem count_eq
    (hdt : 0 < dt)
    {limit : Nat}
    (hlimit : ⌈tEnd / dt⌉₊ ≤ limit) :
    count dt tEnd limit = some ⌈tEnd / dt⌉₊ :=
  (count_eq_some_iff hdt).mpr ⟨rfl, hlimit⟩

end Exact

end Schedule

section Exact

/-- Read exactly, a positive time step is never farther from itself than the step tolerance
allows. -/
theorem Run.step_exact (x : ℝ) (hx : (0.0 : ℝ) < x) :
    ¬Scalar.abs (x - x) > Run.stepTolerance * x := by
  rw [sub_self]
  norm_num [Run.stepTolerance] at hx ⊢
  positivity

variable {σ : Type} [Stepper σ ℝ]

/-- A run whose every step keeps an invariant ends, in exact arithmetic, after `⌈t_final/Δt⌉`
steps at the time `⌈t_final/Δt⌉·Δt`, with the invariant moved on once per step; the solver's
time step must be the requested one and the step limit must allow the schedule. -/
theorem run_of_step
    {ι : Type} (Inv : ι → Column ℝ → σ → Prop) (next : ι → ι)
    {limit : Nat} {column : Column ℝ} {solver : σ} {conditions : Conditions ℝ}
    {dt : Positive ℝ} {tFinal : NonNegative ℝ} {i : ι}
    (hstep : ∀ i c s, Inv i c s → ∃ p c' s',
      ((Stepper.advance c conditions).run.run s).run = (.ok (p, c'), s') ∧ Inv (next i) c' s')
    (htime : Stepper.timeStep solver = dt.val)
    (hlimit : ⌈tFinal.val / dt.val⌉₊ ≤ limit)
    (hinv : Inv i column solver) :
    ∃ p c' s', run limit column solver conditions dt tFinal =
        (.ok ⟨p, ⌈tFinal.val / dt.val⌉₊ * dt.val, ⌈tFinal.val / dt.val⌉₊⟩, c', s') ∧
      Inv (next^[⌈tFinal.val / dt.val⌉₊] i) c' s' := by
  have hdt := Exact.zero_lt_positive dt
  have hmatch : ¬(Scalar.abs (dt.val - Stepper.timeStep solver) > Run.stepTolerance * dt.val) := by
    rw [htime]
    exact Run.step_exact _ dt.property
  obtain ⟨p, c', s', hmarch, hinv'⟩ := Run.march_of_step Inv next dt.val hstep
    ⌈tFinal.val / dt.val⌉₊ 0 0.0 column.enthalpy i column solver hinv
  refine ⟨p, c', s', ?_, hinv'⟩
  unfold run
  dsimp only
  rw [if_neg hmatch, Schedule.count_eq hdt hlimit]
  dsimp only
  rw [hmarch, add_right_iterate_apply, zero_add, nsmul_eq_mul]
  norm_num

/-- A run that finishes had its schedule of `⌈t_final/Δt⌉` steps within the limit. -/
theorem ceil_le_limit_of_run
    {limit : Nat} {column : Column ℝ} {solver : σ} {conditions : Conditions ℝ}
    {dt : Positive ℝ} {tFinal : NonNegative ℝ} {o : Outcome ℝ}
    (h : (run limit column solver conditions dt tFinal).1 = .ok o) :
    ⌈tFinal.val / dt.val⌉₊ ≤ limit := by
  have hdt := Exact.zero_lt_positive dt
  cases hcount : Schedule.count dt.val tFinal.val limit with
  | none =>
      unfold run at h
      dsimp only at h
      rw [hcount] at h
      split at h <;> contradiction
  | some k => exact ((Schedule.count_eq_some_iff hdt).mp hcount).2

end Exact

end IceEnthalpy
