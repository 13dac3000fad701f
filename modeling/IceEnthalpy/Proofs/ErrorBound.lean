import IceEnthalpy.Proofs.Verification

/-!
# An a-priori error bound for a verification run

Read exactly, a verification run of the θ-scheme ends `k` steps of `Δt` later with the steady
line plus `A·G^k` times the mode, where the solution has `A·exp(-λ²α²·t)` times it.  The error
is bounded by the consistency of one step:

* the second difference sees the mode with the eigenvalue `μ = 2·(1 - cos(λ·Δz))/Δz²`, and
  `0 ≤ λ² - μ ≤ λ⁴·Δz²/12`, from `cos h ≤ 1 - h²/2 + h⁴/24`;
* with `x = α²·μ·Δt`, one step multiplies by the rational function `G = 1/(1 + x)` (backward
  Euler) or `G = (2 - x)/(2 + x)` (Crank–Nicolson) where the solution multiplies by
  `exp(-x)`, within `x²/2` and `x³/12`;
* both `G` and the exact factor have magnitude at most one, so the errors of `k` steps add up
  to at most `k` times one step's.

With `t = k·Δt`, the largest error is at most `A·t·(α⁴λ⁴·Δt/2 + α²λ⁴·Δz²/12)` for backward
Euler and `A·t·(α⁶λ⁶·Δt²/12 + α²λ⁴·Δz²/12)` for Crank–Nicolson: first and second order in
time, second order in space.
-/

namespace IceEnthalpy

namespace Consistency

/-- A differentiable function that vanishes at zero and has a nonnegative derivative on
`(0, ∞)` is nonnegative on `[0, ∞)`. -/
theorem nonneg_of_deriv_nonneg
    {f : ℝ → ℝ} (hf : Differentiable ℝ f) (h0 : f 0 = 0)
    (hderiv : ∀ t, 0 < t → 0 ≤ deriv f t)
    {x : ℝ} (hx : 0 ≤ x) :
    0 ≤ f x := by
  have hmono : MonotoneOn f (Set.Ici 0) := by
    apply monotoneOn_of_deriv_nonneg (convex_Ici 0) hf.continuous.continuousOn
      hf.differentiableOn
    intro t ht
    rw [interior_Ici] at ht
    exact hderiv t ht
  rw [← h0]
  exact hmono Set.self_mem_Ici hx hx

theorem exp_mul_exp_neg
    (x : ℝ) :
    Real.exp x * Real.exp (-x) = 1 := by
  rw [← Real.exp_add, add_neg_cancel, Real.exp_zero]

section Exponential

variable {x : ℝ}

theorem one_sub_sq_div_two_le_mul_exp_neg
    (hx : 0 ≤ x) :
    1 - x ^ 2 / 2 ≤ (1 + x) * Real.exp (-x) := by
  let f : ℝ → ℝ := fun t => (1 + t) * Real.exp (-t) - (1 - t ^ 2 / 2)
  have hderiv (t : ℝ) : deriv f t = t * (1 - Real.exp (-t)) := by
    simp (disch := fun_prop) [f]
    ring
  have hf : 0 ≤ f x := by
    refine nonneg_of_deriv_nonneg (by fun_prop) (by simp [f]) (fun t ht => ?_) hx
    have hexp : Real.exp (-t) ≤ 1 := Real.exp_le_one_iff.mpr (by linarith)
    rw [hderiv]
    nlinarith
  simp only [f] at hf
  linarith

/-- `2 - x ≤ (2 + x)·exp(-x)` for `x ≥ 0`: the difference has the derivative
`1 - (1 + t)·exp(-t)`, which is not negative because `1 + t ≤ exp t`. -/
theorem sub_le_mul_exp_neg
    (hx : 0 ≤ x) :
    2 - x ≤ (2 + x) * Real.exp (-x) := by
  let f : ℝ → ℝ := fun t => (2 + t) * Real.exp (-t) - (2 - t)
  have hderiv (t : ℝ) : deriv f t = 1 - (1 + t) * Real.exp (-t) := by
    simp (disch := fun_prop) [f]
    ring
  have hf : 0 ≤ f x := by
    refine nonneg_of_deriv_nonneg (by fun_prop) (by simp [f]) (fun t ht => ?_) hx
    rw [hderiv]
    nlinarith [Real.add_one_le_exp t, Real.exp_pos (-t), exp_mul_exp_neg t]
  simp only [f] at hf
  linarith

/-- The backward Euler factor is not below the exponential ... -/
theorem exp_neg_le_one_div
    (hx : 0 ≤ x) :
    Real.exp (-x) ≤ 1 / (1 + x) := by
  rw [le_div_iff₀ (by linarith)]
  nlinarith [Real.add_one_le_exp x, Real.exp_pos (-x), exp_mul_exp_neg x]

/-- ... and exceeds it by at most `x²/2`. -/
theorem one_div_sub_exp_neg_le
    (hx : 0 ≤ x) :
    1 / (1 + x) - Real.exp (-x) ≤ x ^ 2 / 2 := by
  have h := one_sub_sq_div_two_le_mul_exp_neg hx
  rw [sub_le_iff_le_add, div_le_iff₀ (by linarith)]
  nlinarith [mul_nonneg hx (sq_nonneg x)]

/-- The Crank–Nicolson factor is not above the exponential ... -/
theorem div_le_exp_neg
    (hx : 0 ≤ x) :
    (2 - x) / (2 + x) ≤ Real.exp (-x) := by
  rw [div_le_iff₀ (by linarith)]
  linarith [sub_le_mul_exp_neg hx]

/-- ... and falls short of it by at most `x³/12`: multiplied out, `2 + x ≤ P(x)·exp x` for a
quartic `P`, and the cubic partial sum of `exp x` is already enough. -/
theorem exp_neg_sub_div_le
    (hx : 0 ≤ x) :
    Real.exp (-x) - (2 - x) / (2 + x) ≤ x ^ 3 / 12 := by
  have hpos : 0 < 2 + x := by linarith
  have hseries : 1 + x + x ^ 2 / 2 + x ^ 3 / 6 ≤ Real.exp x := by
    have h := Real.sum_le_exp_of_nonneg hx 4
    norm_num [Finset.sum_range_succ, Nat.factorial] at h
    linarith
  have hP : 0 ≤ 2 - x + x ^ 3 / 6 + x ^ 4 / 12 := by
    nlinarith [sq_nonneg (x - 1), sq_nonneg (x ^ 2 - 2)]
  have hproduct : 2 + x ≤ (2 - x + x ^ 3 / 6 + x ^ 4 / 12) * (1 + x + x ^ 2 / 2 + x ^ 3 / 6) := by
    nlinarith [pow_nonneg hx 4, pow_nonneg hx 5, pow_nonneg hx 6, pow_nonneg hx 7]
  have hbound := hproduct.trans (mul_le_mul_of_nonneg_left hseries hP)
  have hsum : (2 - x) / (2 + x) + x ^ 3 / 12 = (2 - x + x ^ 3 / 6 + x ^ 4 / 12) / (2 + x) := by
    field_simp
    ring
  rw [sub_le_iff_le_add', hsum, le_div_iff₀ hpos]
  nlinarith [Real.exp_pos (-x), exp_mul_exp_neg x]

/-- On `[0, ∞)` the exponential of the negative is one-Lipschitz. -/
theorem abs_exp_neg_sub_exp_neg_le
    {y : ℝ} (hx : 0 ≤ x) (hxy : x ≤ y) :
    |Real.exp (-x) - Real.exp (-y)| ≤ y - x := by
  have hsplit : Real.exp (-y) = Real.exp (-x) * Real.exp (-(y - x)) := by
    rw [← Real.exp_add]
    ring_nf
  have hle : Real.exp (-x) ≤ 1 := Real.exp_le_one_iff.mpr (by linarith)
  have hdecay : Real.exp (-y) ≤ Real.exp (-x) := Real.exp_le_exp.mpr (by linarith)
  rw [abs_of_nonneg (sub_nonneg.mpr hdecay), hsplit]
  nlinarith [Real.one_sub_le_exp_neg (y - x), Real.exp_pos (-x)]

end Exponential

theorem sq_sub_le_sin_sq
    {y : ℝ} (hy : 0 ≤ y) :
    y ^ 2 - y ^ 4 / 3 ≤ Real.sin y ^ 2 := by
  by_cases hsmall : y ^ 2 ≤ 3
  · have hcube : 0 ≤ y - y ^ 3 / 6 := by nlinarith
    have hsq := pow_le_pow_left₀ hcube (Real.sin_ge_sub_cube hy) 2
    nlinarith [pow_nonneg hy 6]
  · nlinarith [sq_nonneg (Real.sin y)]

/-- The quartic upper bound of the cosine, from `1 - cos h = 2·sin²(h/2)`. -/
theorem cos_le_quartic
    (h : ℝ) :
    Real.cos h ≤ 1 - h ^ 2 / 2 + h ^ 4 / 24 := by
  have hhalf := Real.sin_sq_eq_half_sub (h / 2)
  rw [show 2 * (h / 2) = h by ring] at hhalf
  have hsin : Real.sin |h / 2| ^ 2 = Real.sin (h / 2) ^ 2 := by
    rcases abs_choice (h / 2) with habs | habs <;> rw [habs]
    rw [Real.sin_neg, neg_sq]
  have hbound := sq_sub_le_sin_sq (abs_nonneg (h / 2))
  rw [hsin, sq_abs, (by decide : Even 4).pow_abs] at hbound
  nlinarith

theorem secondDifference_nonneg
    (k dz : ℝ) :
    0 ≤ 2 * (1 - Real.cos (k * dz)) / dz ^ 2 := by
  have := Real.cos_le_one (k * dz)
  positivity

/-- The eigenvalue `μ = 2·(1 - cos(k·Δz))/Δz²` of the second difference on a mode of
wavenumber `k` falls short of `k²` by at most `k⁴·Δz²/12`. -/
theorem secondDifference_mem
    (k : ℝ) {dz : ℝ} (hdz : dz ≠ 0) :
    0 ≤ k ^ 2 - 2 * (1 - Real.cos (k * dz)) / dz ^ 2 ∧
      k ^ 2 - 2 * (1 - Real.cos (k * dz)) / dz ^ 2 ≤ k ^ 4 * dz ^ 2 / 12 := by
  have hdz2 : 0 < dz ^ 2 := by positivity
  have hlow := Real.one_sub_sq_div_two_le_cos (x := k * dz)
  have hhigh := cos_le_quartic (k * dz)
  constructor
  · rw [sub_nonneg, div_le_iff₀ hdz2]
    nlinarith
  · rw [sub_le_iff_le_add, ← sub_le_iff_le_add', le_div_iff₀ hdz2]
    nlinarith

/-- Powers of two numbers of magnitude at most one drift apart at most linearly. -/
theorem abs_pow_sub_pow_le_mul
    {a b : ℝ} (ha : |a| ≤ 1) (hb : |b| ≤ 1) (n : Nat) :
    |a ^ n - b ^ n| ≤ n * |a - b| := by
  calc |a ^ n - b ^ n|
      ≤ |a - b| * n * max |a| |b| ^ (n - 1) := abs_pow_sub_pow_le a b n
    _ ≤ |a - b| * n * 1 := by
        gcongr
        exact pow_le_one₀ (le_max_of_le_left (abs_nonneg a)) (max_le ha hb)
    _ = n * |a - b| := by ring

end Consistency

namespace Scheme

open Consistency

/-- How far one step of a scheme may stray from the exact decay `exp(-x)` of a mode: the
scheme's local error, of order two for backward Euler and three for Crank–Nicolson. -/
noncomputable def localError : Scheme → ℝ → ℝ
  | .backwardEuler, x => x ^ 2 / 2
  | .crankNicolson, x => x ^ 3 / 12

theorem localError_mono
    (scheme : Scheme) {x y : ℝ} (hx : 0 ≤ x) (hxy : x ≤ y) :
    scheme.localError x ≤ scheme.localError y := by
  cases scheme with
  | backwardEuler =>
      simp only [localError]
      gcongr
  | crankNicolson =>
      simp only [localError]
      gcongr

section Factor

variable (scheme : Scheme) {x : ℝ}

/-- The factor of a backward Euler step is `1/(1 + x)`. -/
theorem factor_backwardEuler
    (x : ℝ) :
    (1 - (1 - (Scheme.backwardEuler.theta : ℝ)) * x) / (1 + Scheme.backwardEuler.theta * x) =
      1 / (1 + x) := by
  norm_num [Scheme.theta]

/-- The factor of a Crank–Nicolson step is `(2 - x)/(2 + x)`. -/
theorem factor_crankNicolson
    (hx : 0 ≤ x) :
    (1 - (1 - (Scheme.crankNicolson.theta : ℝ)) * x) / (1 + Scheme.crankNicolson.theta * x) =
      (2 - x) / (2 + x) := by
  norm_num [Scheme.theta]
  field_simp

/-- A backward Euler step decays a mode less than the exact `exp(-x)`, by at most `x²/2`. -/
theorem factor_sub_exp_neg_backwardEuler
    (hx : 0 ≤ x) :
    0 ≤ (1 - (1 - (Scheme.backwardEuler.theta : ℝ)) * x) / (1 + Scheme.backwardEuler.theta * x) -
        Real.exp (-x) ∧
      (1 - (1 - (Scheme.backwardEuler.theta : ℝ)) * x) / (1 + Scheme.backwardEuler.theta * x) -
        Real.exp (-x) ≤ x ^ 2 / 2 := by
  rw [factor_backwardEuler]
  exact ⟨sub_nonneg.mpr (exp_neg_le_one_div hx), one_div_sub_exp_neg_le hx⟩

/-- A Crank–Nicolson step decays a mode more than the exact `exp(-x)`, by at most `x³/12`. -/
theorem exp_neg_sub_factor_crankNicolson
    (hx : 0 ≤ x) :
    0 ≤ Real.exp (-x) -
        (1 - (1 - (Scheme.crankNicolson.theta : ℝ)) * x) / (1 + Scheme.crankNicolson.theta * x) ∧
      Real.exp (-x) -
        (1 - (1 - (Scheme.crankNicolson.theta : ℝ)) * x) / (1 + Scheme.crankNicolson.theta * x) ≤
      x ^ 3 / 12 := by
  rw [factor_crankNicolson hx]
  exact ⟨sub_nonneg.mpr (div_le_exp_neg hx), exp_neg_sub_div_le hx⟩

/-- The factor `(1 - (1-θ)·x)/(1 + θ·x)` of a step whose exact decay is `exp(-x)` is within the
scheme's local error of it. -/
theorem abs_factor_sub_exp_neg_le
    (hx : 0 ≤ x) :
    |(1 - (1 - scheme.theta) * x) / (1 + scheme.theta * x) - Real.exp (-x)| ≤
      scheme.localError x := by
  cases scheme with
  | backwardEuler =>
      obtain ⟨hlow, hhigh⟩ := factor_sub_exp_neg_backwardEuler hx
      rw [abs_of_nonneg hlow]
      exact hhigh
  | crankNicolson =>
      obtain ⟨hlow, hhigh⟩ := exp_neg_sub_factor_crankNicolson hx
      rw [abs_sub_comm, abs_of_nonneg hlow]
      exact hhigh

/-- The factor of a step never grows a mode: both schemes are unconditionally stable, since
`θ ≥ 1/2` keeps the numerator above `-(1 + θ·x)`. -/
theorem abs_factor_le_one
    (hx : 0 ≤ x) :
    |(1 - (1 - scheme.theta) * x) / (1 + scheme.theta * x)| ≤ 1 := by
  obtain ⟨hθ0, hθ1⟩ := theta_mem scheme
  have hden : 0 < 1 + (scheme.theta : ℝ) * x := by positivity
  have hhalf : (1 : ℝ) / 2 ≤ scheme.theta := by
    cases scheme <;> norm_num [Scheme.theta]
  rw [abs_div, abs_of_pos hden, div_le_one hden, abs_le]
  constructor <;> nlinarith

end Factor

section Amplification

variable (scheme : Scheme) {D dz dt : ℝ} (k : ℝ)

/-- The amplification factor is the factor of a step whose exact decay is `exp(-x)`, with
`x = D·μ·Δt` for the eigenvalue `μ` of the second difference. -/
theorem amplification_eq :
    scheme.amplification D dz dt k =
      (1 - (1 - scheme.theta) * (D * (2 * (1 - Real.cos (k * dz)) / dz ^ 2) * dt)) /
        (1 + scheme.theta * (D * (2 * (1 - Real.cos (k * dz)) / dz ^ 2) * dt)) := by
  unfold amplification
  dsimp only
  ring

/-- The amplification factor has magnitude at most one. -/
theorem abs_amplification_le_one
    (hD : 0 ≤ D) (hdt : 0 ≤ dt) :
    |scheme.amplification D dz dt k| ≤ 1 := by
  have hμ := secondDifference_nonneg k dz
  rw [amplification_eq]
  exact abs_factor_le_one scheme (by positivity)

/-- One step of a scheme on a mode of wavenumber `k` is within the scheme's local error of the
exact decay over `Δt`, plus `D·Δt·k⁴·Δz²/12` for the second difference. -/
theorem abs_amplification_sub_exp_le
    (hD : 0 ≤ D) (hdt : 0 ≤ dt) (hdz : dz ≠ 0) :
    |scheme.amplification D dz dt k - Real.exp (-(k ^ 2 * D) * dt)| ≤
      scheme.localError (D * k ^ 2 * dt) + D * dt * (k ^ 4 * dz ^ 2 / 12) := by
  obtain ⟨hlow, hhigh⟩ := secondDifference_mem k hdz
  have hμ0 := secondDifference_nonneg k dz
  set μ := 2 * (1 - Real.cos (k * dz)) / dz ^ 2 with hμ
  have hx : 0 ≤ D * μ * dt := by positivity
  have hxy : D * μ * dt ≤ D * k ^ 2 * dt := by
    have := mul_le_mul_of_nonneg_left (sub_nonneg.mp hlow) (mul_nonneg hD hdt)
    linarith
  have hgap : D * k ^ 2 * dt - D * μ * dt ≤ D * dt * (k ^ 4 * dz ^ 2 / 12) := by
    have := mul_le_mul_of_nonneg_left hhigh (mul_nonneg hD hdt)
    linarith
  have hsplit : scheme.amplification D dz dt k - Real.exp (-(k ^ 2 * D) * dt) =
      ((1 - (1 - scheme.theta) * (D * μ * dt)) / (1 + scheme.theta * (D * μ * dt)) -
          Real.exp (-(D * μ * dt))) +
        (Real.exp (-(D * μ * dt)) - Real.exp (-(D * k ^ 2 * dt))) := by
    have hexact : Real.exp (-(k ^ 2 * D) * dt) = Real.exp (-(D * k ^ 2 * dt)) := by
      congr 1
      ring
    rw [amplification_eq, ← hμ, hexact]
    ring
  rw [hsplit]
  calc _ ≤ |(1 - (1 - scheme.theta) * (D * μ * dt)) / (1 + scheme.theta * (D * μ * dt)) -
          Real.exp (-(D * μ * dt))| +
        |Real.exp (-(D * μ * dt)) - Real.exp (-(D * k ^ 2 * dt))| := abs_add_le _ _
    _ ≤ scheme.localError (D * μ * dt) + (D * k ^ 2 * dt - D * μ * dt) :=
        add_le_add (abs_factor_sub_exp_neg_le scheme hx) (abs_exp_neg_sub_exp_neg_le hx hxy)
    _ ≤ scheme.localError (D * k ^ 2 * dt) + D * dt * (k ^ 4 * dz ^ 2 / 12) :=
        add_le_add (localError_mono scheme hx hxy) hgap

end Amplification

end Scheme

namespace Scenario

/-- A verification run that finishes had its schedule of `⌈t_final/Δt⌉` steps within the
limit. -/
theorem schedule_fits_of_run
    {σ : Type} [Stepper σ ℝ]
    {limit : Nat} {factory : Factory σ ℝ} {v : Verification ℝ} {sc : Scenario ℝ}
    {report : Report ℝ}
    (h : run limit factory v sc = .ok report) :
    ⌈sc.tFinal.val / sc.dt.val⌉₊ ≤ limit := by
  unfold run at h
  simp only [Outcome.bind_eq_ok, Outcome.mapError_eq_ok, Outcome.pure_eq_ok] at h
  obtain ⟨problem, -, grid, -, column, -, solver, -, outcome, houtcome, -⟩ := h
  exact ceil_le_limit_of_run houtcome

section Exact

variable {limit : Nat} {scheme : Scheme} {v : Verification ℝ} {sc : Scenario ℝ}
variable {problem : Problem ℝ} {report : Report ℝ}

/-- The largest error of a finished verification run of the θ-scheme on the column's own grid
is at most `A·k` times the consistency error of one step, after `k` steps. -/
theorem maxError_le_steps_mul
    (hsetup : Problem.setup sc.regime v = .ok problem)
    (hlevels : 2 ≤ sc.levels)
    (hrun : run limit (Conduction.factory ⟨scheme, 1⟩) v sc = .ok report) :
    report.elapsed = report.steps * sc.dt.val ∧
    report.norms.maxError ≤ 25 * v.height * report.steps *
      (scheme.localError (v.properties.diffusivity * problem.exact.eigenvalue ^ 2 * sc.dt.val) +
        v.properties.diffusivity * sc.dt.val *
          (problem.exact.eigenvalue ^ 4 * (v.height / (sc.levels - 1 : Nat)) ^ 2 / 12)) := by
  obtain ⟨report', hrun', -, helapsed, hz, -, hcomputed, hexact, hnorms⟩ :=
    @run_conduction _ scheme _ _ _ hsetup hlevels (schedule_fits_of_run hrun)
  rw [hrun, Except.ok.injEq] at hrun'
  subst hrun'
  obtain ⟨hcheck, -, -, hdiffusivity⟩ := Problem.fields_of_setup hsetup
  have hH := Problem.zero_lt_height_of_setup hsetup
  have hD : 0 ≤ v.properties.diffusivity := (Ice.Properties.zero_lt_diffusivity hcheck).le
  have hdt := Exact.zero_lt_positive sc.dt
  have hdz : v.height / (sc.levels - 1 : Nat) ≠ 0 := by
    have hn : (0 : ℝ) < (sc.levels - 1 : Nat) := by
      exact_mod_cast (by omega : 0 < sc.levels - 1)
    positivity
  have hA := Problem.amplitude_of_setup hsetup
  set G := scheme.amplification v.properties.diffusivity (v.height / (sc.levels - 1 : Nat))
    sc.dt.val problem.exact.eigenvalue with hG
  set E := Real.exp (-(problem.exact.eigenvalue ^ 2 * v.properties.diffusivity) * sc.dt.val)
    with hE
  have hstep := Scheme.abs_amplification_sub_exp_le scheme problem.exact.eigenvalue hD hdt.le hdz
  have hG1 : |G| ≤ 1 := Scheme.abs_amplification_le_one scheme _ hD hdt.le
  have hE1 : |E| ≤ 1 := by
    rw [abs_of_pos (Real.exp_pos _), Real.exp_le_one_iff]
    have : 0 ≤ problem.exact.eigenvalue ^ 2 * v.properties.diffusivity * sc.dt.val := by
      positivity
    linarith
  have hdecay : Real.exp (-problem.exact.decayRate * report.elapsed) = E ^ report.steps := by
    rw [hE, ← Real.exp_nat_mul, helapsed, problem.exact.decayRate_eq, hdiffusivity]
    congr 1
    ring
  have hlevel : ∀ z, |problem.exact.withAmplitude (problem.exact.amplitude * G ^ report.steps) z -
      problem.exact.enthalpy z report.elapsed| ≤
        25 * v.height * report.steps * (scheme.localError (v.properties.diffusivity *
          problem.exact.eigenvalue ^ 2 * sc.dt.val) + v.properties.diffusivity * sc.dt.val *
            (problem.exact.eigenvalue ^ 4 * (v.height / (sc.levels - 1 : Nat)) ^ 2 / 12)) := by
    intro z
    have hmode : |G ^ report.steps - E ^ report.steps| *
        |Real.sin (problem.exact.eigenvalue * problem.exact.phase z)| ≤ report.steps * |G - E| :=
      (mul_le_of_le_one_right (abs_nonneg _) (Real.abs_sin_le_one _)).trans
        (Consistency.abs_pow_sub_pow_le_mul hG1 hE1 report.steps)
    calc _ = 25 * v.height * (|G ^ report.steps - E ^ report.steps| *
          |Real.sin (problem.exact.eigenvalue * problem.exact.phase z)|) := by
          rw [problem.exact.abs_withAmplitude_sub_enthalpy, hdecay, hA, ← mul_sub, abs_mul,
            abs_of_pos (by positivity : (0 : ℝ) < 25 * v.height), mul_assoc]
      _ ≤ 25 * v.height * (report.steps * (scheme.localError (v.properties.diffusivity *
          problem.exact.eigenvalue ^ 2 * sc.dt.val) + v.properties.diffusivity * sc.dt.val *
            (problem.exact.eigenvalue ^ 4 * (v.height / (sc.levels - 1 : Nat)) ^ 2 / 12))) := by
          gcongr 25 * v.height * ?_
          exact hmode.trans (by gcongr)
      _ = _ := by ring
  have hsize : 0 < report.z.size := by
    rw [hz, Grid.size_heights]
    omega
  have hcomputed' : report.computed =
      report.z.map (problem.exact.withAmplitude (problem.exact.amplitude * G ^ report.steps)) :=
    hcomputed
  rw [hcomputed', hexact, Eigenmode.profile, Norms.compute_map _ _ _ hsize, Except.ok.injEq]
    at hnorms
  refine ⟨helapsed, ?_⟩
  rw [← hnorms]
  have : Nonempty (Fin report.z.size) := ⟨⟨0, hsize⟩⟩
  exact ciSup_le fun i => hlevel _

/-- An a-priori error bound for a verification run of the θ-scheme on the column's own grid,
read exactly: at the time `t` it reaches, its largest error is at most
`A·t·(α⁴λ⁴·Δt/2 + α²λ⁴·Δz²/12)` with backward Euler and `A·t·(α⁶λ⁶·Δt²/12 + α²λ⁴·Δz²/12)`
with Crank–Nicolson, where `A = 25·H`, `α²` is the diffusivity, `λ` the eigenvalue of the mode
and `Δz = H/(n-1)` the spacing. -/
theorem run_conduction_max_error_le
    (hsetup : Problem.setup sc.regime v = .ok problem)
    (hlevels : 2 ≤ sc.levels)
    (hrun : run limit (Conduction.factory ⟨scheme, 1⟩) v sc = .ok report) :
    (scheme = .backwardEuler →
      report.norms.maxError ≤ 25 * v.height * report.elapsed *
        (v.properties.diffusivity ^ 2 * problem.exact.eigenvalue ^ 4 * sc.dt.val / 2 +
          v.properties.diffusivity * problem.exact.eigenvalue ^ 4 *
            (v.height / (sc.levels - 1 : Nat)) ^ 2 / 12)) ∧
    (scheme = .crankNicolson →
      report.norms.maxError ≤ 25 * v.height * report.elapsed *
        (v.properties.diffusivity ^ 3 * problem.exact.eigenvalue ^ 6 * sc.dt.val ^ 2 / 12 +
          v.properties.diffusivity * problem.exact.eigenvalue ^ 4 *
            (v.height / (sc.levels - 1 : Nat)) ^ 2 / 12)) := by
  obtain ⟨helapsed, hbound⟩ := maxError_le_steps_mul hsetup hlevels hrun
  rw [helapsed]
  constructor
  · rintro rfl
    calc _ ≤ _ := hbound
      _ = _ := by
          simp only [Scheme.localError]
          ring
  · rintro rfl
    calc _ ≤ _ := hbound
      _ = _ := by
          simp only [Scheme.localError]
          ring

/-- The bound for polar ice in a column of 1000 m, three levels and one Crank–Nicolson step of
one second. -/
theorem run_conduction_max_error_le_standard :
    let v : Verification ℝ := Verification.standard
    let sc : Scenario ℝ := ⟨.dirichletNeumann, 3, ⟨1, by norm_num⟩, ⟨1, by norm_num⟩⟩
    ∃ problem report, Problem.setup sc.regime v = .ok problem ∧ 2 ≤ sc.levels ∧
      run 1 (Conduction.factory ⟨.crankNicolson, 1⟩) v sc = .ok report ∧
      (Scheme.crankNicolson = .backwardEuler →
        report.norms.maxError ≤ 25 * v.height * report.elapsed *
          (v.properties.diffusivity ^ 2 * problem.exact.eigenvalue ^ 4 * sc.dt.val / 2 +
            v.properties.diffusivity * problem.exact.eigenvalue ^ 4 *
              (v.height / (sc.levels - 1 : Nat)) ^ 2 / 12)) ∧
      (Scheme.crankNicolson = .crankNicolson →
        report.norms.maxError ≤ 25 * v.height * report.elapsed *
          (v.properties.diffusivity ^ 3 * problem.exact.eigenvalue ^ 6 * sc.dt.val ^ 2 / 12 +
            v.properties.diffusivity * problem.exact.eigenvalue ^ 4 *
              (v.height / (sc.levels - 1 : Nat)) ^ 2 / 12)) := by
  intro v sc
  obtain ⟨problem, hsetup⟩ := Problem.setup_standard
  have hlevels : 2 ≤ sc.levels := by
    norm_num [sc]
  have hlimit : ⌈sc.tFinal.val / sc.dt.val⌉₊ ≤ 1 := by
    norm_num [sc]
  obtain ⟨report, hrun, -⟩ := @run_conduction 1 .crankNicolson v sc problem hsetup hlevels hlimit
  exact ⟨problem, report, hsetup, hlevels, hrun, run_conduction_max_error_le hsetup hlevels hrun⟩

end Exact

end Scenario

end IceEnthalpy
