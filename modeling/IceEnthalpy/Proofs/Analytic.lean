import IceEnthalpy.Proofs.Basic
import IceEnthalpy.Analytic

/-!
# The analytic solutions solve their boundary problems

Read in exact arithmetic, an `Eigenmode` is a steady line plus one decaying eigenmode.  This
module proves that it is what a verification run takes it to be:

* `slope` is the height derivative of `enthalpy`, and `enthalpy` solves the conduction equation
  `∂E/∂t = α²·∂²E/∂z²`;
* at the fixed end the enthalpy is the reference value, and at the other end the gradient is the
  steady gradient: the mode's sine vanishes at the fixed end and its cosine at the flux end,
  because `λ·L` is `3π/2` for `dirichletNeumann` and `π/2` for `neumannDirichlet`;
* the deviation from the steady line decays by `exp(-t/τ)` with `τ = 1/(λ²α²)`.

Both regimes are handled at once through the phase `φ`, which is affine in the height with rate
`±1`: it grows from the base for `dirichletNeumann` and from the surface for `neumannDirichlet`.
-/

namespace IceEnthalpy
namespace Eigenmode

/-- The rate `dφ/dz` of the mode's phase: the phase is measured from the fixed-enthalpy end,
upwards from the base for `dirichletNeumann` and downwards from the surface otherwise. -/
def phaseRate (s : Eigenmode ℝ) : ℝ :=
  match s.regime with
  | .dirichletNeumann => 1
  | .neumannDirichlet => -1

/-- A built solution carries exactly the data it was built from. -/
theorem fields_of_build
    {α : Type} [Scalar α]
    {regime : Regime} {length reference gradient diffusivity : α} {s : Eigenmode α}
    (h : build regime length reference gradient diffusivity = .ok s) :
    s.regime = regime ∧ s.length = length ∧ s.reference = reference ∧
      s.gradient = gradient ∧ s.diffusivity = diffusivity := by
  unfold build at h
  split at h
  · split at h
    · cases h
      exact ⟨rfl, rfl, rfl, rfl, rfl⟩
    · cases h
  · cases h

section Exact

variable (s : Eigenmode ℝ)

theorem zero_lt_length :
    0 < s.length := by
  have h := s.length_pos
  norm_num at h
  exact h

theorem zero_lt_diffusivity :
    0 < s.diffusivity := by
  have h := s.diffusivity_pos
  norm_num at h
  exact h

theorem phaseRate_sq :
    s.phaseRate ^ 2 = 1 := by
  unfold phaseRate
  split <;> norm_num

/-- The phase is affine in the height. -/
theorem phase_eq
    (z : ℝ) :
    s.phase z = s.phase 0 + s.phaseRate * z := by
  cases hr : s.regime with
  | dirichletNeumann =>
      simp [phase, phaseRate, hr]
  | neumannDirichlet =>
      simp [phase, phaseRate, hr]
      ring

theorem hasDerivAt_phase
    (z : ℝ) :
    HasDerivAt s.phase s.phaseRate z := by
  have hline : s.phase = fun z => s.phase 0 + s.phaseRate * z := by
    funext z
    exact s.phase_eq z
  rw [hline]
  simpa using ((hasDerivAt_id z).const_mul s.phaseRate).const_add (s.phase 0)

/-- The steady line is affine with the steady gradient as its slope. -/
theorem steady_eq
    (z : ℝ) :
    s.steady z = s.steady 0 + s.gradient * z := by
  unfold steady
  split <;> ring

theorem hasDerivAt_steady
    (z : ℝ) :
    HasDerivAt s.steady s.gradient z := by
  have hline : s.steady = fun z => s.steady 0 + s.gradient * z := by
    funext z
    exact s.steady_eq z
  rw [hline]
  simpa using ((hasDerivAt_id z).const_mul s.gradient).const_add (s.steady 0)

/-- The product `λ·L` of eigenvalue and length: `3π/2` or `π/2`. -/
theorem eigenvalue_mul_length :
    s.eigenvalue * s.length =
      match s.regime with
      | .dirichletNeumann => 3 * Real.pi / 2
      | .neumannDirichlet => Real.pi / 2 := by
  have hL : s.length ≠ 0 := s.zero_lt_length.ne'
  cases hr : s.regime with
  | dirichletNeumann =>
      simp only [eigenvalue, hr, div_mul_cancel₀ _ hL]
      norm_num [modeNumber]
      ring
  | neumannDirichlet =>
      simp only [eigenvalue, hr, div_mul_cancel₀ _ hL]
      norm_num [modeNumber]
      ring

theorem zero_lt_eigenvalue :
    0 < s.eigenvalue := by
  have hprod := s.eigenvalue_mul_length
  have hL := s.zero_lt_length
  have hpos : 0 < s.eigenvalue * s.length := by
    rw [hprod]
    split <;> positivity
  exact pos_of_mul_pos_left hpos hL.le

/-- The cosine of the mode vanishes at the far end of the phase, `φ = L`. -/
theorem cos_eigenvalue_mul_length :
    Real.cos (s.eigenvalue * s.length) = 0 := by
  rw [s.eigenvalue_mul_length]
  split
  · have h : 3 * Real.pi / 2 = Real.pi / 2 + Real.pi := by ring
    rw [h, Real.cos_add_pi, Real.cos_pi_div_two, neg_zero]
  · exact Real.cos_pi_div_two

theorem zero_lt_amplitude :
    0 < s.amplitude := by
  have hL := s.zero_lt_length
  unfold amplitude transientAmplitude amplitudePerMeter
  norm_num
  exact hL

theorem decayRate_eq :
    s.decayRate = s.eigenvalue ^ 2 * s.diffusivity := by
  unfold decayRate
  ring

theorem zero_lt_decayRate :
    0 < s.decayRate := by
  rw [s.decayRate_eq]
  have heig := s.zero_lt_eigenvalue
  have hD := s.zero_lt_diffusivity
  positivity

/-- The e-folding time is `1/(λ²α²)`. -/
theorem decayTime_eq :
    s.decayTime = 1 / (s.eigenvalue ^ 2 * s.diffusivity) := by
  unfold decayTime
  rw [s.decayRate_eq]
  norm_num

theorem envelope_eq
    (t : ℝ) :
    s.envelope t = Real.exp (-s.decayRate * t) := by
  rfl

theorem enthalpy_eq
    (z t : ℝ) :
    s.enthalpy z t =
      s.amplitude * Real.exp (-s.decayRate * t) * Real.sin (s.eigenvalue * s.phase z) +
        s.steady z := by
  unfold enthalpy
  rw [s.envelope_eq]
  simp

/-- The deviation from the steady line is the decaying mode. -/
theorem enthalpy_sub_steady
    (z t : ℝ) :
    s.enthalpy z t - s.steady z =
      s.amplitude * Real.exp (-s.decayRate * t) * Real.sin (s.eigenvalue * s.phase z) := by
  rw [s.enthalpy_eq]
  ring

/-- The gradient in terms of the phase: the chain rule through `φ`. -/
theorem slope_eq
    (z t : ℝ) :
    s.slope z t =
      s.amplitude * Real.exp (-s.decayRate * t) * s.eigenvalue * s.phaseRate *
        Real.cos (s.eigenvalue * s.phase z) + s.gradient := by
  cases hr : s.regime with
  | dirichletNeumann =>
      simp [slope, phaseRate, phase, hr, s.envelope_eq]
  | neumannDirichlet =>
      simp [slope, phaseRate, phase, hr, s.envelope_eq]

section Ends

variable {s}

theorem steady_base_of_dirichletNeumann
    (hr : s.regime = .dirichletNeumann) :
    s.steady 0 = s.reference := by
  simp [steady, hr]

theorem steady_surface_of_neumannDirichlet
    (hr : s.regime = .neumannDirichlet) :
    s.steady s.length = s.reference := by
  simp [steady, hr]

/-- Under `dirichletNeumann` the base holds the reference enthalpy: the mode's sine vanishes
there. -/
theorem enthalpy_base_of_dirichletNeumann
    (hr : s.regime = .dirichletNeumann)
    (t : ℝ) :
    s.enthalpy 0 t = s.reference := by
  rw [s.enthalpy_eq, steady_base_of_dirichletNeumann hr]
  simp [phase, hr]

/-- Under `dirichletNeumann` the surface gradient is the steady gradient: the mode's cosine
vanishes there. -/
theorem slope_surface_of_dirichletNeumann
    (hr : s.regime = .dirichletNeumann)
    (t : ℝ) :
    s.slope s.length t = s.gradient := by
  have hphase : s.phase s.length = s.length := by
    simp [phase, hr]
  rw [s.slope_eq, hphase, s.cos_eigenvalue_mul_length]
  ring

/-- Under `neumannDirichlet` the surface holds the reference enthalpy. -/
theorem enthalpy_surface_of_neumannDirichlet
    (hr : s.regime = .neumannDirichlet)
    (t : ℝ) :
    s.enthalpy s.length t = s.reference := by
  rw [s.enthalpy_eq, steady_surface_of_neumannDirichlet hr]
  simp [phase, hr]

/-- Under `neumannDirichlet` the base gradient is the steady gradient. -/
theorem slope_base_of_neumannDirichlet
    (hr : s.regime = .neumannDirichlet)
    (t : ℝ) :
    s.slope 0 t = s.gradient := by
  have hphase : s.phase 0 = s.length := by
    simp [phase, hr]
  rw [s.slope_eq, hphase, s.cos_eigenvalue_mul_length]
  ring

end Ends

/-- `slope` is the height derivative of `enthalpy`. -/
theorem hasDerivAt_enthalpy_height
    (z t : ℝ) :
    HasDerivAt (fun z => s.enthalpy z t) (s.slope z t) z := by
  have hsin :
      HasDerivAt (fun z => Real.sin (s.eigenvalue * s.phase z))
        (Real.cos (s.eigenvalue * s.phase z) * (s.eigenvalue * s.phaseRate)) z :=
    ((s.hasDerivAt_phase z).const_mul s.eigenvalue).sin
  have hsum :=
    (hsin.const_mul (s.amplitude * Real.exp (-s.decayRate * t))).add (s.hasDerivAt_steady z)
  have hfun :
      (fun z => s.enthalpy z t) =
        fun z => s.amplitude * Real.exp (-s.decayRate * t) *
          Real.sin (s.eigenvalue * s.phase z) + s.steady z := by
    funext z
    exact s.enthalpy_eq z t
  rw [hfun, s.slope_eq]
  refine hsum.congr_deriv ?_
  ring

/-- The height derivative of `slope` is `-λ²` times the deviation from the steady line: the two
factors `dφ/dz` of the chain rule meet in a square, which is one. -/
theorem hasDerivAt_slope_height
    (z t : ℝ) :
    HasDerivAt (fun z => s.slope z t)
      (-s.eigenvalue ^ 2 * (s.enthalpy z t - s.steady z)) z := by
  have hcos :
      HasDerivAt (fun z => Real.cos (s.eigenvalue * s.phase z))
        (-Real.sin (s.eigenvalue * s.phase z) * (s.eigenvalue * s.phaseRate)) z :=
    ((s.hasDerivAt_phase z).const_mul s.eigenvalue).cos
  have hsum :=
    (hcos.const_mul
      (s.amplitude * Real.exp (-s.decayRate * t) * s.eigenvalue * s.phaseRate)).add_const
        s.gradient
  have hfun :
      (fun z => s.slope z t) =
        fun z => s.amplitude * Real.exp (-s.decayRate * t) * s.eigenvalue * s.phaseRate *
          Real.cos (s.eigenvalue * s.phase z) + s.gradient := by
    funext z
    exact s.slope_eq z t
  rw [s.enthalpy_sub_steady, hfun]
  refine hsum.congr_deriv ?_
  have hsq := s.phaseRate_sq
  linear_combination
    (-(s.amplitude * Real.exp (-s.decayRate * t) * s.eigenvalue ^ 2 *
      Real.sin (s.eigenvalue * s.phase z))) * hsq

/-- The time derivative of `enthalpy` is `-λ²α²` times the deviation from the steady line. -/
theorem hasDerivAt_enthalpy_time
    (z t : ℝ) :
    HasDerivAt (s.enthalpy z) (-s.decayRate * (s.enthalpy z t - s.steady z)) t := by
  have hexp :
      HasDerivAt (fun t => Real.exp (-s.decayRate * t))
        (Real.exp (-s.decayRate * t) * (-s.decayRate * 1)) t :=
    ((hasDerivAt_id t).const_mul (-s.decayRate)).exp
  have hsum :=
    ((hexp.const_mul s.amplitude).mul_const (Real.sin (s.eigenvalue * s.phase z))).add_const
      (s.steady z)
  have hfun :
      s.enthalpy z =
        fun t => s.amplitude * Real.exp (-s.decayRate * t) *
          Real.sin (s.eigenvalue * s.phase z) + s.steady z := by
    funext t
    exact s.enthalpy_eq z t
  rw [s.enthalpy_sub_steady, hfun]
  refine hsum.congr_deriv ?_
  ring

/-- The conduction equation `∂E/∂t = α²·∂²E/∂z²`, with the second height derivative taken as
the derivative of `slope`. -/
theorem heat_equation
    (z t : ℝ) :
    ∃ curvature : ℝ,
      HasDerivAt (fun z => s.slope z t) curvature z ∧
        HasDerivAt (s.enthalpy z) (s.diffusivity * curvature) t := by
  refine ⟨_, s.hasDerivAt_slope_height z t, ?_⟩
  convert s.hasDerivAt_enthalpy_time z t using 1
  rw [s.decayRate_eq]
  ring

/-- The deviation from the steady line at time `t` is the initial one times `exp(-t/τ)`. -/
theorem enthalpy_sub_steady_eq_exp
    (z t : ℝ) :
    s.enthalpy z t - s.steady z =
      Real.exp (-t / s.decayTime) * (s.enthalpy z 0 - s.steady z) := by
  have hrate : s.decayRate ≠ 0 := s.zero_lt_decayRate.ne'
  have hexponent : -t / s.decayTime = -s.decayRate * t := by
    unfold decayTime
    norm_num
    field_simp
  rw [s.enthalpy_sub_steady, s.enthalpy_sub_steady, hexponent]
  simp only [mul_zero, Real.exp_zero, mul_one]
  ring

/-- Wherever the enthalpy is off the steady line, the deviation shrinks strictly in time. -/
theorem abs_enthalpy_sub_steady_lt
    {z t₁ t₂ : ℝ}
    (hlt : t₁ < t₂)
    (hoff : s.enthalpy z t₁ ≠ s.steady z) :
    |s.enthalpy z t₂ - s.steady z| < |s.enthalpy z t₁ - s.steady z| := by
  obtain ⟨mode, hmode_def⟩ :
      ∃ mode, mode = s.amplitude * Real.sin (s.eigenvalue * s.phase z) :=
    ⟨_, rfl⟩
  have hdev : ∀ t, s.enthalpy z t - s.steady z = Real.exp (-s.decayRate * t) * mode := by
    intro t
    rw [s.enthalpy_sub_steady, hmode_def]
    ring
  have hmode : mode ≠ 0 := by
    intro h0
    apply hoff
    have h := hdev t₁
    rw [h0, mul_zero] at h
    linarith
  have hexp : Real.exp (-s.decayRate * t₂) < Real.exp (-s.decayRate * t₁) := by
    apply Real.exp_lt_exp.mpr
    have hrate := s.zero_lt_decayRate
    nlinarith
  rw [hdev t₂, hdev t₁, abs_mul, abs_mul, Real.abs_exp, Real.abs_exp]
  exact mul_lt_mul_of_pos_right hexp (abs_pos.mpr hmode)

end Exact

/-- A solution built from a length `L > 0`, a diffusivity `α² > 0`, a reference value `R` and a
gradient `Q` solves its boundary problem: `slope` is the height derivative of `enthalpy`, which
solves the conduction equation; the fixed end holds `R` and the other end has gradient `Q` at every
time, as does the steady line; and the deviation from the steady line decays by `exp(-t/τ)`,
`τ = 1/(λ²α²)`, strictly wherever it is not zero. -/
theorem build_solves_boundary_problem
    {regime : Regime} {L R Q D : ℝ} {s : Eigenmode ℝ}
    (hbuild : build regime L R Q D = .ok s) :
    (∀ z t, HasDerivAt (fun z => s.enthalpy z t) (s.slope z t) z) ∧
    (∀ z t, ∃ curvature : ℝ,
      HasDerivAt (fun z => s.slope z t) curvature z ∧
        HasDerivAt (s.enthalpy z) (D * curvature) t) ∧
    (regime = .dirichletNeumann →
      (∀ t, s.enthalpy 0 t = R ∧ s.slope L t = Q) ∧
        s.steady 0 = R ∧ HasDerivAt s.steady Q L) ∧
    (regime = .neumannDirichlet →
      (∀ t, s.enthalpy L t = R ∧ s.slope 0 t = Q) ∧
        s.steady L = R ∧ HasDerivAt s.steady Q 0) ∧
    s.decayTime = 1 / (s.eigenvalue ^ 2 * D) ∧
    (∀ z t, s.enthalpy z t - s.steady z =
      Real.exp (-t / s.decayTime) * (s.enthalpy z 0 - s.steady z)) ∧
    (∀ z t₁ t₂, t₁ < t₂ → s.enthalpy z t₁ ≠ s.steady z →
      |s.enthalpy z t₂ - s.steady z| < |s.enthalpy z t₁ - s.steady z|) := by
  obtain ⟨rfl, rfl, rfl, rfl, rfl⟩ := fields_of_build hbuild
  refine ⟨s.hasDerivAt_enthalpy_height, s.heat_equation, ?_, ?_, s.decayTime_eq,
    s.enthalpy_sub_steady_eq_exp, fun z t₁ t₂ => s.abs_enthalpy_sub_steady_lt⟩
  · intro hr
    exact ⟨fun t => ⟨enthalpy_base_of_dirichletNeumann hr t,
      slope_surface_of_dirichletNeumann hr t⟩,
      steady_base_of_dirichletNeumann hr, s.hasDerivAt_steady s.length⟩
  · intro hr
    exact ⟨fun t => ⟨enthalpy_surface_of_neumannDirichlet hr t,
      slope_base_of_neumannDirichlet hr t⟩,
      steady_surface_of_neumannDirichlet hr, s.hasDerivAt_steady 0⟩

/-- On a column of one meter with unit diffusivity, the `dirichletNeumann` solution with zero
reference and gradient holds zero at the base and has zero gradient at the surface. -/
theorem build_solves_boundary_problem_unit :
    ∃ s : Eigenmode ℝ, build .dirichletNeumann 1 0 0 1 = .ok s ∧
      ∀ t, s.enthalpy 0 t = 0 ∧ s.slope 1 t = 0 := by
  have hbuild :
      build (α := ℝ) .dirichletNeumann 1 0 0 1 =
        .ok ⟨.dirichletNeumann, 1, 0, 0, 1, by norm_num, by norm_num⟩ := by
    unfold build
    rw [dif_pos (by norm_num), dif_pos (by norm_num)]
  exact ⟨_, hbuild, ((build_solves_boundary_problem hbuild).2.2.1 rfl).1⟩

end Eigenmode
end IceEnthalpy
