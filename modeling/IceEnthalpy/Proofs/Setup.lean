import IceEnthalpy.Proofs.Analytic
import IceEnthalpy.Scenario.Setup

/-!
# The boundary problem of a verification

`Problem.setup` pairs an analytic solution with boundary conditions.  This module proves that,
read exactly, the pair is consistent: the fixed end is held at the value the solution takes
there at every time, and the flux at the other end, once divided by the enthalpy conductivity
`K` as a solver stores it, is the gradient the solution has there at every time.

The flux is `K·Q` for the steady gradient `Q`; `K` is positive for usable properties, so the
division gives `Q` back, and `Q` is the gradient of the solution at the flux end because the
mode's cosine vanishes there.

The steady line is anchored as the regime demands: for `dirichletNeumann` it ends at the
surface `A = 25·H` below the enthalpy of 270 K, for `neumannDirichlet` it starts at the base from
the enthalpy of 240 K.

Read exactly, the properties that pass their checks are those with the signs the checks ask
for, gathered in `Usable`.
-/

namespace IceEnthalpy

namespace Ice.Properties

variable {α : Type} [Scalar α]

theorem validate_eq_ok
    {p q : Properties α} :
    p.validate = .ok q ↔ p.check = none ∧ q = p := by
  unfold validate
  split
  · next e he =>
      simp [he]
  · next he =>
      simp [he, eq_comm]

/-- Properties that pass their checks, read exactly: the signs that the checks ask for. -/
structure Usable (p : Properties ℝ) : Prop where
  conductivity_pos : 0 < p.conductivity
  specificHeat_pos : 0 < p.specificHeat
  density_pos : 0 < p.density
  gravity_nonneg : 0 ≤ p.gravity
  latentHeat_pos : 0 < p.latentHeat
  clausiusClapeyron_nonneg : 0 ≤ p.clausiusClapeyron
  reference_lt_melting : p.referenceTemperature < p.meltingPoint

/-- Read exactly, the properties pass their checks exactly when they have the signs the checks
ask for. -/
theorem check_eq_none_iff {p : Properties ℝ} : p.check = none ↔ Usable p := by
  constructor
  · intro h
    unfold check at h
    split_ifs at h with hk hc hρ hg hL hβ hT
    simp only [Bool.not_eq_true', Bool.not_eq_false, Exact.isPositive_iff,
      Exact.isNonNegative_iff] at hk hc hρ hg hL hβ
    exact ⟨hk, hc, hρ, hg, hL, hβ, lt_of_not_ge hT⟩
  · intro h
    have hT : ¬ p.referenceTemperature ≥ p.meltingPoint := not_le.mpr h.reference_lt_melting
    simp only [check, (Exact.isPositive_iff _).mpr h.conductivity_pos,
      (Exact.isPositive_iff _).mpr h.specificHeat_pos, (Exact.isPositive_iff _).mpr h.density_pos,
      (Exact.isNonNegative_iff _).mpr h.gravity_nonneg,
      (Exact.isPositive_iff _).mpr h.latentHeat_pos,
      (Exact.isNonNegative_iff _).mpr h.clausiusClapeyron_nonneg, hT, Bool.not_true,
      Bool.false_eq_true, ↓reduceIte]

theorem usable_of_validate {p q : Properties ℝ} (h : p.validate = .ok q) : Usable p :=
  check_eq_none_iff.mp (validate_eq_ok.mp h).1

/-- Usable properties, read exactly, are positive where the checks ask for it. -/
theorem pos_of_check
    {p : Properties ℝ}
    (h : p.check = none) :
    0 < p.conductivity ∧ 0 < p.specificHeat ∧ 0 < p.density :=
  have hp := check_eq_none_iff.mp h
  ⟨hp.conductivity_pos, hp.specificHeat_pos, hp.density_pos⟩

theorem zero_lt_enthalpyConductivity
    {p : Properties ℝ}
    (h : p.check = none) :
    0 < p.enthalpyConductivity := by
  obtain ⟨hk, hc, -⟩ := pos_of_check h
  exact div_pos hk hc

theorem zero_lt_diffusivity
    {p : Properties ℝ}
    (h : p.check = none) :
    0 < p.diffusivity := by
  obtain ⟨hk, hc, hρ⟩ := pos_of_check h
  exact div_pos hk (mul_pos hc hρ)

/-- The standard properties of polar ice pass their checks. -/
theorem check_standard :
    (standard : Properties ℝ).check = none := by
  norm_num [check, standard, isPositive, isNonNegative]

end Ice.Properties

namespace Problem

variable {α : Type} [Scalar α]

/-- What a successful `dirichletNeumann` setup consists of: the base value and the surface
value of the steady line plus the amplitude, from cold ice; the solution built on them; and
the conditions that hold the base and push the flux `K·Q` through the surface. -/
theorem setup_dirichletNeumann_eq_ok
    {v : Verification α} {problem : Problem α}
    (h : setup .dirichletNeumann v = .ok problem) :
    v.properties.check = none ∧
      ∃ base surface,
        v.properties.enthalpy baseTemperatureDN 0.0 (v.properties.pressure v.height) =
          .ok base ∧
        v.properties.enthalpy surfaceTemperatureDN 0.0 (v.properties.pressure 0.0) =
          .ok surface ∧
        Eigenmode.build .dirichletNeumann v.height base
            ((surface - transientAmplitude v.height - base) / v.height)
            v.properties.diffusivity = .ok problem.exact ∧
        problem.conditions =
          ⟨.dirichlet base, .heatFlux (v.properties.enthalpyConductivity *
            ((surface - transientAmplitude v.height - base) / v.height))⟩ := by
  unfold setup at h
  simp only [Outcome.bind_eq_ok, Outcome.mapError_eq_ok, Ice.Properties.validate_eq_ok,
    Outcome.pure_eq_ok] at h
  obtain ⟨p, ⟨hcheck, rfl⟩, base, hbase, surface, hsurface, exact, hexact, rfl⟩ := h
  exact ⟨hcheck, base, surface, hbase, hsurface, hexact, rfl⟩

/-- What a successful `neumannDirichlet` setup consists of: the surface value and the base value
of the steady line, from cold ice; the solution built on them; and the conditions that push the
flux `K·Q` through the base and hold the surface. -/
theorem setup_neumannDirichlet_eq_ok
    {v : Verification α} {problem : Problem α}
    (h : setup .neumannDirichlet v = .ok problem) :
    v.properties.check = none ∧
      ∃ surface base,
        v.properties.enthalpy surfaceTemperatureND 0.0 (v.properties.pressure 0.0) =
          .ok surface ∧
        v.properties.enthalpy baseTemperatureND 0.0 (v.properties.pressure v.height) =
          .ok base ∧
        Eigenmode.build .neumannDirichlet v.height surface ((surface - base) / v.height)
            v.properties.diffusivity = .ok problem.exact ∧
        problem.conditions =
          ⟨.heatFlux (v.properties.enthalpyConductivity * ((surface - base) / v.height)),
            .dirichlet surface⟩ := by
  unfold setup at h
  simp only [Outcome.bind_eq_ok, Outcome.mapError_eq_ok, Ice.Properties.validate_eq_ok,
    Outcome.pure_eq_ok] at h
  obtain ⟨p, ⟨hcheck, rfl⟩, surface, hsurface, base, hbase, exact, hexact, rfl⟩ := h
  exact ⟨hcheck, surface, base, hsurface, hbase, hexact, rfl⟩

/-- A successful setup has usable properties and a solution of its regime on the column, with
the diffusivity of the ice. -/
theorem fields_of_setup
    {regime : Regime} {v : Verification α} {problem : Problem α}
    (h : setup regime v = .ok problem) :
    v.properties.check = none ∧ problem.exact.regime = regime ∧
      problem.exact.length = v.height ∧ problem.exact.diffusivity = v.properties.diffusivity := by
  cases regime with
  | dirichletNeumann =>
      obtain ⟨hcheck, _, _, -, -, hexact, -⟩ := setup_dirichletNeumann_eq_ok h
      obtain ⟨hregime, hlength, -, -, hdiffusivity⟩ := Eigenmode.fields_of_build hexact
      exact ⟨hcheck, hregime, hlength, hdiffusivity⟩
  | neumannDirichlet =>
      obtain ⟨hcheck, _, _, -, -, hexact, -⟩ := setup_neumannDirichlet_eq_ok h
      obtain ⟨hregime, hlength, -, -, hdiffusivity⟩ := Eigenmode.fields_of_build hexact
      exact ⟨hcheck, hregime, hlength, hdiffusivity⟩

section Exact

variable {v : Verification ℝ} {problem : Problem ℝ}

/-- Under `dirichletNeumann` the base is held at the solution's base value at every time, the
surface flux stored as a gradient is the solution's surface gradient at every time, and the
steady line ends `25·H` below the enthalpy of 270 K. -/
theorem setup_dirichletNeumann_consistent
    (h : setup .dirichletNeumann v = .ok problem) :
    ∃ base flux,
      problem.conditions = ⟨.dirichlet base, .heatFlux flux⟩ ∧
      v.properties.enthalpy 230 0 (v.properties.pressure v.height) = .ok base ∧
      (∀ t, problem.exact.enthalpy 0 t = base ∧
        flux / v.properties.enthalpyConductivity = problem.exact.slope v.height t) ∧
      ∃ surface, v.properties.enthalpy 270 0 (v.properties.pressure 0) = .ok surface ∧
        problem.exact.steady v.height = surface - 25 * v.height := by
  obtain ⟨hcheck, base, surface, hbase, hsurface, hexact, hconditions⟩ :=
    setup_dirichletNeumann_eq_ok h
  obtain ⟨hregime, hlength, hreference, hgradient, -⟩ := Eigenmode.fields_of_build hexact
  have hK := (Ice.Properties.zero_lt_enthalpyConductivity hcheck).ne'
  have hH : v.height ≠ 0 := by
    rw [← hlength]
    exact problem.exact.zero_lt_length.ne'
  refine ⟨base, _, hconditions, ?_, fun t => ⟨?_, ?_⟩, surface, ?_, ?_⟩
  · norm_num [baseTemperatureDN] at hbase
    exact hbase
  · rw [Eigenmode.enthalpy_base_of_dirichletNeumann hregime, hreference]
  · have hslope : problem.exact.slope v.height t = problem.exact.gradient := by
      rw [← hlength]
      exact Eigenmode.slope_surface_of_dirichletNeumann hregime t
    rw [hslope, hgradient, mul_div_cancel_left₀ _ hK]
  · norm_num [surfaceTemperatureDN] at hsurface
    exact hsurface
  · rw [problem.exact.steady_eq, Eigenmode.steady_base_of_dirichletNeumann hregime, hreference,
      hgradient]
    unfold transientAmplitude amplitudePerMeter
    field_simp
    norm_num
    ring

/-- Under `neumannDirichlet` the surface is held at the solution's surface value at every time,
the base flux stored as a gradient is the solution's base gradient at every time, and the steady
line starts from the enthalpy of 240 K. -/
theorem setup_neumannDirichlet_consistent
    (h : setup .neumannDirichlet v = .ok problem) :
    ∃ flux surface,
      problem.conditions = ⟨.heatFlux flux, .dirichlet surface⟩ ∧
      v.properties.enthalpy 260 0 (v.properties.pressure 0) = .ok surface ∧
      (∀ t, problem.exact.enthalpy v.height t = surface ∧
        flux / v.properties.enthalpyConductivity = problem.exact.slope 0 t) ∧
      ∃ base, v.properties.enthalpy 240 0 (v.properties.pressure v.height) = .ok base ∧
        problem.exact.steady 0 = base := by
  obtain ⟨hcheck, surface, base, hsurface, hbase, hexact, hconditions⟩ :=
    setup_neumannDirichlet_eq_ok h
  obtain ⟨hregime, hlength, hreference, hgradient, -⟩ := Eigenmode.fields_of_build hexact
  have hK := (Ice.Properties.zero_lt_enthalpyConductivity hcheck).ne'
  have hH : v.height ≠ 0 := by
    rw [← hlength]
    exact problem.exact.zero_lt_length.ne'
  refine ⟨_, surface, hconditions, ?_, fun t => ⟨?_, ?_⟩, base, ?_, ?_⟩
  · norm_num [surfaceTemperatureND] at hsurface
    exact hsurface
  · rw [← hlength, Eigenmode.enthalpy_surface_of_neumannDirichlet hregime, hreference]
  · rw [Eigenmode.slope_base_of_neumannDirichlet hregime, hgradient,
      mul_div_cancel_left₀ _ hK]
  · norm_num [baseTemperatureND] at hbase
    exact hbase
  · simp only [Eigenmode.steady, hregime, hreference, hgradient, hlength]
    field_simp
    ring

end Exact

end Problem

end IceEnthalpy
