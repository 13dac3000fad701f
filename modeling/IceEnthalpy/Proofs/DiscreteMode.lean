import IceEnthalpy.Proofs.ErrorBound
import IceEnthalpy.Proofs.SteadyLine

/-!
# The discrete eigenmodes of a step

On a column of height `L` that holds zero at one end and lets no heat through the other, the
sines `sin(λ·z)` with `λ = (π/2 + m·π)/L` vanish at the fixed end and are flat at the insulated
one.  Sampled on the levels of a grid they are eigenvectors of a θ-step: at an interior level
`sin(a - h) + sin(a + h) = 2·cos h·sin a`, and at the insulated end the ghost level mirrors the
level inside, which the mode does too since `cos(λ·L) = 0`.  The eigenvalue of the second
difference is `μ = 2·(1 - cos(λ·Δz))/Δz²`, and the step multiplies the mode by
`G = (1 - (1-θ)·x)/(1 + θ·x)` with `x = α²·μ·Δt`.

Main statement: in exact arithmetic a solve with a zero base and no flux through the surface
returns `G` times a sampled `sin(λ·z)`, and the solve with the ends exchanged returns `G` times a
sampled `sin(λ·(L - z))`, for every grid, scheme, time step and mode number.  The analytic
solutions are the modes `m = 1` and `m = 0`; `G` is within the scheme's local error of the exact
decay `exp(-x)`, and `μ` within `λ⁴·Δz²/12` below `λ²`.
-/

namespace IceEnthalpy

/-- The wavenumber `λ = (π/2 + m·π)/L` of the `m`-th mode on a column of height `L` with one end
held and the other insulated. -/
noncomputable def modeWavenumber (L : ℝ) (m : Nat) : ℝ :=
  (Real.pi / 2 + m * Real.pi) / L

/-- Every mode is flat at the far end of the column. -/
theorem cos_modeWavenumber_mul
    {L : ℝ} (m : Nat)
    (hL : L ≠ 0) :
    Real.cos (modeWavenumber L m * L) = 0 := by
  rw [modeWavenumber, div_mul_cancel₀ _ hL, Real.cos_add_nat_mul_pi, Real.cos_pi_div_two,
    mul_zero]

namespace Eigenmode

variable (ex : Eigenmode ℝ)

/-- The analytic solution with a fixed base decays as the mode `m = 1`. -/
theorem eigenvalue_of_dirichletNeumann
    (h : ex.regime = .dirichletNeumann) :
    ex.eigenvalue = modeWavenumber ex.length 1 := by
  simp only [eigenvalue, h, modeWavenumber, Exact.pi_eq]
  norm_num [modeNumber]

/-- The analytic solution with a fixed surface decays as the mode `m = 0`. -/
theorem eigenvalue_of_neumannDirichlet
    (h : ex.regime = .neumannDirichlet) :
    ex.eigenvalue = modeWavenumber ex.length 0 := by
  simp only [eigenvalue, h, modeWavenumber, Exact.pi_eq]
  norm_num [modeNumber]
  ring

end Eigenmode

namespace Conduction

/-- The sine `sin(k·z)` on the levels `j·Δz`, flat at the top level, is multiplied by `G` at every
level of a step that holds zero at the base and no gradient at the surface, when `G` is the
factor of the mode's second difference. -/
theorem level_sine
    {top : Nat} {dz r θ k G : ℝ}
    (htop : 0 < top)
    (hcos : Real.cos (k * (top * dz)) = 0)
    (hG : G * (1 + 2 * (r * θ) * (1 - Real.cos (k * dz))) =
      1 - 2 * (r * (1 - θ)) * (1 - Real.cos (k * dz)))
    (i : Nat) :
    Level top dz r θ (.value 0) (.gradient 0) (fun j => Real.sin (k * (j * dz)))
      (fun j => G * Real.sin (k * (j * dz))) i := by
  unfold Level
  split_ifs with h0 hlast
  · simp
  · simp only [mul_zero, add_zero]
    apply balanced_mode _ hG
    have hbelow : k * ((top - 1 : Nat) * dz) = k * (top * dz) - k * dz := by
      rw [Nat.cast_sub (by omega), Nat.cast_one]
      ring
    rw [hbelow, Real.sin_sub, hcos]
    ring
  · apply balanced_mode _ hG
    have hbelow : k * ((i - 1 : Nat) * dz) = k * (i * dz) - k * dz := by
      rw [Nat.cast_sub (Nat.one_le_iff_ne_zero.mpr h0), Nat.cast_one]
      ring
    have habove : k * ((i + 1 : Nat) * dz) = k * (i * dz) + k * dz := by
      push_cast
      ring
    dsimp only
    rw [hbelow, habove, Real.sin_sub, Real.sin_add]
    ring

section Solver

variable (s : Conduction ℝ) {n : Nat} {L k : ℝ}

/-- On a grid built for a column of height `L`, a step that holds zero at the base and no
gradient at the surface multiplies the sampled `sin(k·z)` by the amplification factor, when the
sine is flat at `L`. -/
theorem advances_sine
    (hgrid : Grid.build n L = .ok s.grid)
    (hD : 0 ≤ s.diffusivity)
    (hdt : 0 ≤ s.dt)
    (hcos : Real.cos (k * L) = 0)
    (he : s.enthalpy = s.grid.z.map fun z => Real.sin (k * z)) :
    s.Advances (.value 0) (.gradient 0) (s.enthalpy.map (s.amplification k * ·)) := by
  have hn : 2 ≤ s.grid.levels := s.grid.two_le_size
  have hdz := (Grid.zero_lt_spacing_of_build hgrid).ne'
  have hz := fun j (hj : j < s.grid.z.size) => Grid.getElem_z_of_build hgrid hj
  rw [he, Array.map_map]
  refine ⟨by simp [Grid.levels], fun i hi => ?_⟩
  refine (level_congr (by omega) (fun j hj => ?_) (fun j hj => ?_) (by omega)).mpr
    (level_sine (by omega) ?_ (s.amplification_mul (k := k) hD hdt hdz) i)
  · rw [he]
    exact s.getD_map_of_levels hz _ (by omega)
  · exact s.getD_map_of_levels hz _ (by omega)
  · rwa [Grid.length_of_build hgrid]

/-- The reflection of `advances_sine`: a step with no gradient at the base that holds zero at
the surface multiplies the sampled `sin(k·(L - z))` by the amplification factor. -/
theorem advances_sine_from_top
    (hgrid : Grid.build n L = .ok s.grid)
    (hD : 0 ≤ s.diffusivity)
    (hdt : 0 ≤ s.dt)
    (hcos : Real.cos (k * L) = 0)
    (he : s.enthalpy = s.grid.z.map fun z => Real.sin (k * (L - z))) :
    s.Advances (.gradient 0) (.value 0) (s.enthalpy.map (s.amplification k * ·)) := by
  have hsize : s.enthalpy.size = s.grid.levels := by
    rw [he]
    simp [Grid.levels]
  have hflip : s.enthalpy.reverse = s.grid.z.map fun z => Real.sin (k * z) := by
    rw [he, Grid.reverse_map_of_build hgrid]
    simp only [sub_sub_cancel]
  refine (advances_reflect s hsize).mpr ?_
  simp only [Edge.mirror, neg_zero, ← Array.map_reverse]
  exact advances_sine { s with enthalpy := s.enthalpy.reverse } hgrid hD hdt hcos hflip

/-- Imposing the two conditions on a prepared solver and solving is solving with the edges the
conditions leave. -/
theorem impose_bind_solve
    (e : Array ℝ) (base surface : Condition ℝ) :
    (({ s with enthalpy := e, phase := .ready none none } : Conduction ℝ).impose .base base >>=
        fun s₁ => s₁.impose .surface surface >>= solve) =
      ({ s with
          enthalpy := e
          phase := .ready (some (base.toEdge s.conductivity))
            (some (surface.toEdge s.conductivity)) } : Conduction ℝ).solve :=
  rfl

/-- In exact arithmetic, the sampled modes `sin(λ·z)` and `sin(λ·(L - z))` of the wavenumbers
`λ = (π/2 + m·π)/L` are returned multiplied by `G = (1 - (1-θ)·x)/(1 + θ·x)`, `x = α²·μ·Δt`, by a
solve with a zero base and no flux through the surface, or the other way round.  The analytic
solutions are the modes `m = 1` and `m = 0`; `G` is within the scheme's local error of `exp(-x)`
for every `x ≥ 0`; and the eigenvalue `μ` of the second difference is within `λ⁴·Δz²/12` below
`λ²`. -/
theorem solve_sine_mode
    (hgrid : Grid.build n L = .ok s.grid)
    (hD : 0 ≤ s.diffusivity)
    (hdt : 0 ≤ s.dt)
    (m : Nat) :
    let k := modeWavenumber L m
    let μ := 2 * (1 - Real.cos (k * s.grid.spacing)) / s.grid.spacing ^ 2
    let factor := fun x : ℝ => (1 - (1 - s.scheme.theta) * x) / (1 + s.scheme.theta * x)
    let G := factor (s.diffusivity * μ * s.dt)
    let up := s.grid.z.map fun z => Real.sin (k * z)
    let down := s.grid.z.map fun z => Real.sin (k * (L - z))
    (({ s with enthalpy := up, phase := .ready none none } : Conduction ℝ).impose .base
          (.dirichlet 0) >>= fun s₁ => s₁.impose .surface (.heatFlux 0) >>= solve) =
        .ok (up.map (G * ·), { s with enthalpy := up.map (G * ·), phase := .idle }) ∧
      (({ s with enthalpy := down, phase := .ready none none } : Conduction ℝ).impose .base
          (.heatFlux 0) >>= fun s₁ => s₁.impose .surface (.dirichlet 0) >>= solve) =
        .ok (down.map (G * ·), { s with enthalpy := down.map (G * ·), phase := .idle }) ∧
      (∀ ex : Eigenmode ℝ,
        (ex.regime = .dirichletNeumann → ex.eigenvalue = modeWavenumber ex.length 1) ∧
          (ex.regime = .neumannDirichlet → ex.eigenvalue = modeWavenumber ex.length 0)) ∧
      (∀ x, 0 ≤ x →
        (s.scheme = .backwardEuler →
          0 ≤ factor x - Real.exp (-x) ∧ factor x - Real.exp (-x) ≤ x ^ 2 / 2) ∧
        (s.scheme = .crankNicolson →
          0 ≤ Real.exp (-x) - factor x ∧ Real.exp (-x) - factor x ≤ x ^ 3 / 12)) ∧
      k ^ 2 - k ^ 4 * s.grid.spacing ^ 2 / 12 ≤ μ ∧ μ ≤ k ^ 2 := by
  intro k μ factor G up down
  have hcos := cos_modeWavenumber_mul m (Grid.zero_lt_height_of_build hgrid).ne'
  have hG : s.amplification k = G := Scheme.amplification_eq _ k
  have hflux : (Condition.heatFlux 0).toEdge s.conductivity = .gradient 0 := by
    rw [Condition.toEdge, zero_div]
  have hdz := (Grid.zero_lt_spacing_of_build hgrid).ne'
  obtain ⟨hlow, hhigh⟩ := Consistency.secondDifference_mem k hdz
  refine ⟨?_, ?_, fun ex => ⟨ex.eigenvalue_of_dirichletNeumann, ex.eigenvalue_of_neumannDirichlet⟩,
    fun x hx => ⟨fun hbe => ?_, fun hcn => ?_⟩, by linarith, by linarith⟩
  · rw [impose_bind_solve, hflux, solve_ready_eq_ok_iff s hD hdt, ← hG]
    exact advances_sine { s with enthalpy := up } hgrid hD hdt hcos rfl
  · rw [impose_bind_solve, hflux, solve_ready_eq_ok_iff s hD hdt, ← hG]
    exact advances_sine_from_top { s with enthalpy := down } hgrid hD hdt hcos rfl
  · simp only [factor, hbe]
    exact Scheme.factor_sub_exp_neg_backwardEuler hx
  · simp only [factor, hcn]
    exact Scheme.exp_neg_sub_factor_crankNicolson hx

end Solver

/-- The second mode of a backward Euler solver for polar ice on five levels spanning 1000 m, one
year per step. -/
theorem solve_sine_mode_second :
    ∃ (g : Grid ℝ) (s₀ : Conduction ℝ), Grid.build 5 1000 = .ok g ∧
      build g 3.15e7 Ice.Properties.standard ⟨.backwardEuler, 1⟩ = .ok s₀ ∧
      Grid.build 5 1000 = .ok s₀.grid ∧ 0 ≤ s₀.diffusivity ∧ 0 ≤ s₀.dt ∧
      let k := modeWavenumber 1000 1
      let μ := 2 * (1 - Real.cos (k * s₀.grid.spacing)) / s₀.grid.spacing ^ 2
      let factor := fun x : ℝ => (1 - (1 - s₀.scheme.theta) * x) / (1 + s₀.scheme.theta * x)
      let G := factor (s₀.diffusivity * μ * s₀.dt)
      let up := s₀.grid.z.map fun z => Real.sin (k * z)
      let down := s₀.grid.z.map fun z => Real.sin (k * (1000 - z))
      (({ s₀ with enthalpy := up, phase := .ready none none } : Conduction ℝ).impose .base
            (.dirichlet 0) >>= fun s₁ => s₁.impose .surface (.heatFlux 0) >>= solve) =
          .ok (up.map (G * ·), { s₀ with enthalpy := up.map (G * ·), phase := .idle }) ∧
        (({ s₀ with enthalpy := down, phase := .ready none none } : Conduction ℝ).impose .base
            (.heatFlux 0) >>= fun s₁ => s₁.impose .surface (.dirichlet 0) >>= solve) =
          .ok (down.map (G * ·), { s₀ with enthalpy := down.map (G * ·), phase := .idle }) ∧
        (∀ ex : Eigenmode ℝ,
          (ex.regime = .dirichletNeumann → ex.eigenvalue = modeWavenumber ex.length 1) ∧
            (ex.regime = .neumannDirichlet → ex.eigenvalue = modeWavenumber ex.length 0)) ∧
        (∀ x, 0 ≤ x →
          (s₀.scheme = .backwardEuler →
            0 ≤ factor x - Real.exp (-x) ∧ factor x - Real.exp (-x) ≤ x ^ 2 / 2) ∧
          (s₀.scheme = .crankNicolson →
            0 ≤ Real.exp (-x) - factor x ∧ Real.exp (-x) - factor x ≤ x ^ 3 / 12)) ∧
        k ^ 2 - k ^ 4 * s₀.grid.spacing ^ 2 / 12 ≤ μ ∧ μ ≤ k ^ 2 := by
  obtain ⟨g, hg⟩ := Grid.build_eq_ok (n := 5) (H := 1000) (by decide) (by norm_num)
  obtain ⟨s₀, hs₀⟩ :=
    build_standard_eq_ok hg (by norm_num : (0 : ℝ) < 3.15e7) ⟨.backwardEuler, 1⟩ (by decide)
  obtain ⟨hdt, hD⟩ := zero_lt_of_build hs₀
  obtain ⟨-, -, hfine⟩ := fine_of_build hs₀
  have hgrid : Grid.build 5 1000 = .ok s₀.grid := by
    rw [Grid.levels_of_build hg, Grid.height_of_build hg, fineLevels_one (by norm_num)] at hfine
    exact hfine
  exact ⟨g, s₀, hg, hs₀, hgrid, hD.le, hdt.le, solve_sine_mode s₀ hgrid hD.le hdt.le 1⟩

end Conduction
end IceEnthalpy
