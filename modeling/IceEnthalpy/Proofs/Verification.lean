import IceEnthalpy.Proofs.Conduction
import IceEnthalpy.Proofs.Norms
import IceEnthalpy.Proofs.Run
import IceEnthalpy.Proofs.Setup
import IceEnthalpy.Scenario.Run

/-!
# A verification run of the θ-scheme, in exact arithmetic

A verification run of the conduction solver on the column's own grid is one θ-step repeated:
the run starts from the solution at time zero, the steady line plus `A = 25·H` times the mode,
and every step multiplies the mode's amplitude by the amplification factor `G` and leaves the
steady line, because the setup's conditions are the solution's own.  After the `k` steps of the
schedule the column therefore holds `E_s(z) + A·G^k·sin(λ·φ(z))`, while the solution has
`E_s(z) + A·exp(-λ²α²·t)·sin(λ·φ(z))`: the error at every level is `A·|G^k - exp(-λ²α²·t)|`
times the mode's magnitude there.

The invariant of the march is `Tracks`: the column holds the steady line plus a multiple of the
mode on the run's grid and nothing else, and the solver is the one built for the run up to its
profile and its place in the cycle.
-/

namespace IceEnthalpy

namespace Eigenmode

variable (ex : Eigenmode ℝ)

/-- The amplitude of the mode is `25·L`. -/
theorem amplitude_eq :
    ex.amplitude = 25 * ex.length := by
  unfold amplitude transientAmplitude amplitudePerMeter
  norm_num

/-- The distance from the steady line plus `b` times the mode to the solution at time `t` is
the distance of the amplitudes times the mode's magnitude. -/
theorem abs_withAmplitude_sub_enthalpy
    (b z t : ℝ) :
    |ex.withAmplitude b z - ex.enthalpy z t| =
      |b - ex.amplitude * Real.exp (-ex.decayRate * t)| *
        |Real.sin (ex.eigenvalue * ex.phase z)| := by
  rw [ex.enthalpy_eq_withAmplitude, ← abs_mul]
  unfold withAmplitude
  ring_nf

end Eigenmode

namespace Problem

section Exact

variable {regime : Regime} {v : Verification ℝ} {problem : Problem ℝ}

/-- The conditions of a setup, stored with the enthalpy conductivity of the ice, are the edges
that hold a column on the solution. -/
theorem toEdge_of_setup
    (h : setup regime v = .ok problem) :
    problem.conditions.base.toEdge v.properties.enthalpyConductivity = problem.exact.baseEdge ∧
      problem.conditions.surface.toEdge v.properties.enthalpyConductivity =
        problem.exact.surfaceEdge := by
  obtain ⟨hcheck, -, -, -⟩ := fields_of_setup h
  have hK := (Ice.Properties.zero_lt_enthalpyConductivity hcheck).ne'
  cases regime with
  | dirichletNeumann =>
      obtain ⟨-, _, _, -, -, hexact, hconditions⟩ := setup_dirichletNeumann_eq_ok h
      obtain ⟨hregime, -, hreference, hgradient, -⟩ := Eigenmode.fields_of_build hexact
      rw [hconditions]
      simp [Condition.toEdge, Eigenmode.baseEdge, Eigenmode.surfaceEdge, hregime, hreference,
        hgradient, mul_div_cancel_left₀ _ hK]
  | neumannDirichlet =>
      obtain ⟨-, _, _, -, -, hexact, hconditions⟩ := setup_neumannDirichlet_eq_ok h
      obtain ⟨hregime, -, hreference, hgradient, -⟩ := Eigenmode.fields_of_build hexact
      rw [hconditions]
      simp [Condition.toEdge, Eigenmode.baseEdge, Eigenmode.surfaceEdge, hregime, hreference,
        hgradient, mul_div_cancel_left₀ _ hK]

theorem zero_lt_height_of_setup
    (h : setup regime v = .ok problem) :
    0 < v.height := by
  obtain ⟨-, -, hlength, -⟩ := fields_of_setup h
  exact hlength ▸ problem.exact.zero_lt_length

/-- The mode of a setup has the amplitude `25·H`. -/
theorem amplitude_of_setup
    (h : setup regime v = .ok problem) :
    problem.exact.amplitude = 25 * v.height := by
  obtain ⟨-, -, hlength, -⟩ := fields_of_setup h
  rw [problem.exact.amplitude_eq, hlength]

/-- The `dirichletNeumann` problem of polar ice in a column of 1000 m is set up. -/
theorem setup_standard :
    ∃ problem, setup .dirichletNeumann (Verification.standard : Verification ℝ) = .ok problem := by
  refine ⟨?_, ?_⟩
  rotate_left
  · unfold setup
    simp only [Verification.standard, Ice.Properties.validate, Ice.Properties.check,
      Ice.Properties.standard]
    norm_num [isPositive, isNonNegative, Outcome.mapError_ok, Outcome.ok_bind,
      Ice.Properties.enthalpy, Ice.Properties.meltingTemperature, Ice.Properties.pressure,
      baseTemperatureDN, surfaceTemperatureDN, Eigenmode.build, Ice.Properties.diffusivity,
      transientAmplitude, amplitudePerMeter]
    rfl

end Exact

end Problem

namespace Conduction

/-- A solver stores fluxes with the enthalpy conductivity of the ice it was built for. -/
theorem conductivity_of_build
    {α : Type} [Scalar α]
    {g : Grid α} {dt : α} {p : Ice.Properties α} {setup : Setup} {solver : Conduction α}
    (h : build g dt p setup = .ok solver) :
    solver.conductivity = p.enthalpyConductivity := by
  unfold build at h
  by_cases hdt : isPositive dt = true
  · by_cases hr : setup.refinement = 0
    · simp [hdt, hr, throw, throwThe, MonadExceptOf.throw, bind, Except.bind] at h
    · simp only [hdt, hr, Bool.not_true, Bool.false_eq_true, ↓reduceIte, Outcome.bind_eq_ok,
        Outcome.mapError_eq_ok, Ice.Properties.validate_eq_ok, Outcome.pure_eq_ok] at h
      obtain ⟨q, ⟨-, rfl⟩, fine, -, rfl⟩ := h
      rfl
  · simp [hdt, throw, throwThe, MonadExceptOf.throw, bind, Except.bind] at h

section Exact

/-- With refinement one, the solver of a built grid has that grid as its own, and takes the
time step, the scheme and the ice's diffusivity and enthalpy conductivity. -/
theorem build_of_grid
    {g : Grid ℝ} {n : Nat} {H dt : ℝ} {p : Ice.Properties ℝ} {scheme : Scheme}
    (hg : Grid.build n H = .ok g)
    (hdt : 0 < dt)
    (hcheck : p.check = none) :
    build g dt p ⟨scheme, 1⟩ =
      .ok { dt := dt, scheme := scheme, diffusivity := p.diffusivity,
            conductivity := p.enthalpyConductivity, column := g, grid := g,
            enthalpy := Array.replicate g.levels 0.0, phase := .idle } := by
  have hone : fineLevels g.levels 1 = g.levels := by
    have hn := Grid.two_le_of_build hg
    exact fineLevels_one (by rw [Grid.levels_of_build hg]; omega)
  have hfine : Grid.build g.levels g.height = .ok g := by
    rw [Grid.levels_of_build hg, Grid.height_of_build hg]
    exact hg
  have hpositive : isPositive dt = true := (Exact.isPositive_iff dt).mpr hdt
  unfold build
  simp only [hpositive, Bool.not_true, Bool.false_eq_true, ↓reduceIte, one_ne_zero]
  rw [(Ice.Properties.validate_eq_ok (q := p)).mpr ⟨hcheck, rfl⟩, Outcome.mapError_ok]
  simp only [hone, Outcome.ok_bind, hfine, Outcome.mapError_ok]
  rfl

end Exact

section Run

variable (ex : Eigenmode ℝ) (g : Grid ℝ) (s₀ : Conduction ℝ)

/-- A column and a solver along a verification run on the grid `g` with the solver `s₀`: the
column holds the steady line plus `a` times the mode on `g` and no other physics, and the
solver is `s₀` up to its profile and its place in the cycle. -/
def Tracks (a : ℝ) (c : Column ℝ) (s : Conduction ℝ) : Prop :=
  c.grid = g ∧ otherPhysics c = none ∧ c.enthalpy = g.z.map (ex.withAmplitude a) ∧
    ∃ e ph, s = { s₀ with enthalpy := e, phase := ph }

/-- One step of a verification run keeps `Tracks`, the amplitude multiplied by `G`. -/
theorem tracks_step
    {n : Nat} {conditions : Conditions ℝ}
    (hD : 0 ≤ s₀.diffusivity)
    (hdt : 0 ≤ s₀.dt)
    (hbuild : Grid.build n ex.length = .ok g)
    (hgrid : s₀.grid = g)
    (hcolumn : s₀.column = g)
    (hbase : conditions.base.toEdge s₀.conductivity = ex.baseEdge)
    (hsurface : conditions.surface.toEdge s₀.conductivity = ex.surfaceEdge)
    (a : ℝ) (c : Column ℝ) (s : Conduction ℝ)
    (htracks : Tracks ex g s₀ a c s) :
    ∃ p c' s', ((Stepper.advance c conditions).run.run s).run = (.ok (p, c'), s') ∧
      Tracks ex g s₀ (a * s₀.amplification ex.eigenvalue) c' s' := by
  obtain ⟨hc, hother, henthalpy, e, ph, rfl⟩ := htracks
  rw [← hgrid] at hbuild henthalpy hc
  obtain ⟨c', hadvance, hprofile, hgrid', hother'⟩ :=
    advance_withAmplitude { s₀ with enthalpy := e, phase := ph } ex hD hdt hbuild
      (hgrid.trans hcolumn.symm) (hc.trans (hgrid.trans hcolumn.symm)) hbase hsurface hother
      henthalpy
  refine ⟨_, c', _, hadvance, hgrid'.trans (hc.trans hgrid), hother', ?_, c'.enthalpy, .idle, rfl⟩
  rw [hprofile, amplification_with]
  exact congrArg (fun z => Array.map _ z.z) hgrid

end Run

end Conduction

@[simp] theorem Year.toSeconds_zero : Year.toSeconds (0.0 : ℝ) = 0 := by
  norm_num [Year.toSeconds]

namespace Scenario

/-- A finished run reports the levels of the grid it built and, as its initial column, the
solution of its setup at time zero on them. -/
theorem initial_of_run
    {σ α : Type} [Scalar α] [Stepper σ α]
    {limit : Nat} {factory : Factory σ α} {v : Verification α} {sc : Scenario α}
    {report : Report α}
    (h : run limit factory v sc = .ok report) :
    ∃ problem grid, Problem.setup sc.regime v = .ok problem ∧
      Grid.build sc.levels v.height = .ok grid ∧ report.z = grid.z ∧
      report.initial = problem.exact.profile grid.z (Year.toSeconds 0.0) := by
  unfold run at h
  simp only [Outcome.bind_eq_ok, Outcome.mapError_eq_ok, Outcome.pure_eq_ok] at h
  obtain ⟨problem, hproblem, grid, hgrid, _, _, _, _, _, _, _, _, _, _, rfl⟩ := h
  exact ⟨problem, grid, hproblem, hgrid, rfl, rfl⟩

section Exact

variable {limit : Nat} {scheme : Scheme} {v : Verification ℝ} {sc : Scenario ℝ}
variable {problem : Problem ℝ}

/-- A verification run of the θ-scheme on the column's own grid, read exactly: it takes the
`⌈t_final/Δt⌉` steps of its schedule, and its final column is the steady line plus `A·G^k`
times the mode at the levels `k·H/(n-1)`; the report compares that column with the solution at
the time reached. -/
theorem run_conduction
    (hsetup : Problem.setup sc.regime v = .ok problem)
    (hlevels : 2 ≤ sc.levels)
    (hlimit : ⌈sc.tFinal.val / sc.dt.val⌉₊ ≤ limit) :
    ∃ report, run limit (Conduction.factory ⟨scheme, 1⟩) v sc = .ok report ∧
      report.steps = ⌈sc.tFinal.val / sc.dt.val⌉₊ ∧
      report.elapsed = report.steps * sc.dt.val ∧
      report.z = Grid.heights sc.levels v.height ∧
      report.initial = problem.exact.profile report.z 0 ∧
      report.computed = report.z.map (problem.exact.withAmplitude (problem.exact.amplitude *
        scheme.amplification v.properties.diffusivity (v.height / (sc.levels - 1 : Nat))
          sc.dt.val problem.exact.eigenvalue ^ report.steps)) ∧
      report.exact = problem.exact.profile report.z report.elapsed ∧
      Norms.compute report.computed report.exact = .ok report.norms := by
  obtain ⟨hcheck, hregime, hlength, hdiffusivity⟩ := Problem.fields_of_setup hsetup
  obtain ⟨hbase, hsurface⟩ := Problem.toEdge_of_setup hsetup
  have hdt := Exact.zero_lt_positive sc.dt
  obtain ⟨g, hg⟩ := Grid.build_eq_ok hlevels (Problem.zero_lt_height_of_setup hsetup)
  have hinitial : problem.exact.profile g.z 0 =
      g.z.map (problem.exact.withAmplitude problem.exact.amplitude) := by
    simp [Eigenmode.profile, Eigenmode.enthalpy_eq_withAmplitude]
  have hsize : (problem.exact.profile g.z 0).size = (Column.zeroed g).grid.levels := by
    simp [Eigenmode.profile, Column.zeroed, Grid.levels]
  obtain ⟨column, hcolumn⟩ :
      ∃ c, (Column.zeroed g).setProfile (problem.exact.profile g.z 0) = .ok c :=
    ⟨_, Column.setProfile_of_size _ hsize⟩
  obtain ⟨henthalpy, hgrid, -⟩ := Column.fields_of_setProfile hcolumn
  have hother := Conduction.otherPhysics_reset (by simp) column
  obtain ⟨s₀, hs₀⟩ : ∃ s₀ : Conduction ℝ, s₀ =
      { dt := sc.dt.val, scheme := scheme, diffusivity := v.properties.diffusivity,
        conductivity := v.properties.enthalpyConductivity, column := g, grid := g,
        enthalpy := Array.replicate g.levels 0.0, phase := .idle } := ⟨_, rfl⟩
  have hsolver : Conduction.build g sc.dt.val v.properties ⟨scheme, 1⟩ = .ok s₀ := by
    rw [hs₀]
    exact Conduction.build_of_grid hg hdt hcheck
  have hgrid₀ : s₀.grid = g := by rw [hs₀]
  have hcolumn₀ : s₀.column = g := by rw [hs₀]
  have hD : 0 ≤ s₀.diffusivity := by
    rw [hs₀]
    exact (Ice.Properties.zero_lt_diffusivity hcheck).le
  have hdt₀ : s₀.dt = sc.dt.val := by rw [hs₀]
  have hK : s₀.conductivity = v.properties.enthalpyConductivity := by rw [hs₀]
  have hG : s₀.amplification problem.exact.eigenvalue =
      scheme.amplification v.properties.diffusivity (v.height / (sc.levels - 1 : Nat))
        sc.dt.val problem.exact.eigenvalue := by
    rw [Conduction.amplification, hgrid₀, Grid.spacing_of_build hg, hdt₀, hs₀]
  have htracks : Conduction.Tracks problem.exact g s₀ problem.exact.amplitude
      column.resetVelocity.resetStrainHeating s₀ := by
    refine ⟨hgrid, hother, ?_, s₀.enthalpy, s₀.phase, rfl⟩
    rw [Column.enthalpy_resetStrainHeating, Column.enthalpy_resetVelocity, henthalpy, hinitial]
  obtain ⟨profile, c', s', hrun, htracks'⟩ := run_of_step (Conduction.Tracks problem.exact g s₀)
    (· * s₀.amplification problem.exact.eigenvalue)
    (Conduction.tracks_step problem.exact g s₀ hD (hdt₀ ▸ hdt.le) (hlength ▸ hg) hgrid₀ hcolumn₀
      (hK ▸ hbase) (hK ▸ hsurface))
    (show s₀.dt = sc.dt.val from hdt₀) hlimit htracks
  obtain ⟨hgrid', -, hfinal, -⟩ := htracks'
  rw [mul_right_iterate_apply, hG] at hfinal
  obtain ⟨norms, hnorms⟩ : ∃ norms, Norms.compute c'.enthalpy
      (problem.exact.profile g.z (⌈sc.tFinal.val / sc.dt.val⌉₊ * sc.dt.val)) = .ok norms := by
    rw [hfinal]
    exact ⟨_, Norms.compute_map g.z _ _ (by have := g.two_le_size; omega)⟩
  have hcolumn' : column.resetVelocity.resetStrainHeating.grid = g := by
    rw [Column.grid_resetStrainHeating, Column.grid_resetVelocity, hgrid]
    rfl
  have hvalidate : v.properties.validate = .ok v.properties :=
    (Ice.Properties.validate_eq_ok).mpr ⟨hcheck, rfl⟩
  unfold run
  simp only [hsetup, Outcome.ok_bind, hg, Outcome.mapError_ok, Year.toSeconds_zero, hcolumn,
    Conduction.factory,
    hcolumn', hsolver, hrun, hnorms, hvalidate]
  refine ⟨_, rfl, rfl, rfl, Grid.z_of_build hg, rfl, ?_, rfl, hnorms⟩
  dsimp only
  rw [hfinal]

/-- The end-to-end law of a verification run of the θ-scheme on the column's own grid, read
exactly: after the `k = ⌈t_final/Δt⌉` steps the column is the steady line plus `A·G^k` times the
mode, with `A = 25·H` and `G` the amplification factor of the mode's eigenvalue on the spacing
`H/(n-1)`; so the largest error is `A·|G^k - exp(-λ²α²·t)|` times the largest magnitude of the
mode over the levels, and the mean error the same factor times its mean magnitude. -/
theorem run_conduction_eq_amplified_mode
    (hsetup : Problem.setup sc.regime v = .ok problem)
    (hlevels : 2 ≤ sc.levels)
    (hlimit : ⌈sc.tFinal.val / sc.dt.val⌉₊ ≤ limit) :
    let G := scheme.amplification v.properties.diffusivity (v.height / (sc.levels - 1 : Nat))
      sc.dt.val problem.exact.eigenvalue
    let mode := fun z => Real.sin (problem.exact.eigenvalue * problem.exact.phase z)
    ∃ report, run limit (Conduction.factory ⟨scheme, 1⟩) v sc = .ok report ∧
      report.steps = ⌈sc.tFinal.val / sc.dt.val⌉₊ ∧
      report.elapsed = report.steps * sc.dt.val ∧
      report.computed =
        report.z.map (fun z => problem.exact.steady z + 25 * v.height * G ^ report.steps * mode z) ∧
      report.norms.maxError =
        25 * v.height * |G ^ report.steps - Real.exp (-(problem.exact.eigenvalue ^ 2 *
          v.properties.diffusivity) * report.elapsed)| * ⨆ i : Fin report.z.size, |mode report.z[i]| ∧
      report.norms.avgError =
        25 * v.height * |G ^ report.steps - Real.exp (-(problem.exact.eigenvalue ^ 2 *
          v.properties.diffusivity) * report.elapsed)| *
        ((∑ i : Fin report.z.size, |mode report.z[i]|) / report.z.size) := by
  intro G mode
  obtain ⟨report, hrun, hsteps, helapsed, hz, -, hcomputed, hexact, hnorms⟩ :=
    @run_conduction _ scheme _ _ _ hsetup hlevels hlimit
  obtain ⟨-, -, -, hdiffusivity⟩ := Problem.fields_of_setup hsetup
  have hA := Problem.amplitude_of_setup hsetup
  have hpos : 0 < 25 * v.height := by
    have := Problem.zero_lt_height_of_setup hsetup
    positivity
  have hsize : 0 < report.z.size := by
    rw [hz, Grid.size_heights]
    omega
  have herror : ∀ z, |problem.exact.withAmplitude (problem.exact.amplitude * G ^ report.steps) z -
      problem.exact.enthalpy z report.elapsed| =
        25 * v.height * |G ^ report.steps - Real.exp (-(problem.exact.eigenvalue ^ 2 *
          v.properties.diffusivity) * report.elapsed)| * |mode z| := by
    intro z
    rw [problem.exact.abs_withAmplitude_sub_enthalpy, problem.exact.decayRate_eq, hdiffusivity, hA,
      ← mul_sub, abs_mul, abs_of_pos hpos]
  have hfactor : 0 ≤ 25 * v.height * |G ^ report.steps - Real.exp (-(problem.exact.eigenvalue ^ 2 *
      v.properties.diffusivity) * report.elapsed)| := by
    positivity
  have hcomputed' : report.computed =
      report.z.map (problem.exact.withAmplitude (problem.exact.amplitude * G ^ report.steps)) :=
    hcomputed
  rw [hcomputed', hexact, Eigenmode.profile, Norms.compute_map _ _ _ hsize, Except.ok.injEq]
    at hnorms
  simp only [herror] at hnorms
  refine ⟨report, hrun, hsteps, helapsed, ?_, ?_, ?_⟩
  · rw [hcomputed']
    congr 1
    funext z
    rw [Eigenmode.withAmplitude, hA]
  · rw [← hnorms, Real.mul_iSup_of_nonneg hfactor]
  · rw [← hnorms, ← mul_div_assoc, Finset.mul_sum]

/-- The law on polar ice in a column of 1000 m, three levels and one backward Euler step of one
second. -/
theorem run_conduction_eq_amplified_mode_standard :
    let v : Verification ℝ := Verification.standard
    let sc : Scenario ℝ := ⟨.dirichletNeumann, 3, ⟨1, by norm_num⟩, ⟨1, by norm_num⟩⟩
    ∃ problem, Problem.setup sc.regime v = .ok problem ∧ 2 ≤ sc.levels ∧
      ⌈sc.tFinal.val / sc.dt.val⌉₊ ≤ 1 ∧
      let G := Scheme.backwardEuler.amplification v.properties.diffusivity
        (v.height / (sc.levels - 1 : Nat)) sc.dt.val problem.exact.eigenvalue
      let mode := fun z => Real.sin (problem.exact.eigenvalue * problem.exact.phase z)
      ∃ report, run 1 (Conduction.factory ⟨.backwardEuler, 1⟩) v sc = .ok report ∧
        report.steps = ⌈sc.tFinal.val / sc.dt.val⌉₊ ∧
        report.elapsed = report.steps * sc.dt.val ∧
        report.computed =
          report.z.map (fun z => problem.exact.steady z + 25 * v.height * G ^ report.steps * mode z) ∧
        report.norms.maxError =
          25 * v.height * |G ^ report.steps - Real.exp (-(problem.exact.eigenvalue ^ 2 *
            v.properties.diffusivity) * report.elapsed)| *
            ⨆ i : Fin report.z.size, |mode report.z[i]| ∧
        report.norms.avgError =
          25 * v.height * |G ^ report.steps - Real.exp (-(problem.exact.eigenvalue ^ 2 *
            v.properties.diffusivity) * report.elapsed)| *
          ((∑ i : Fin report.z.size, |mode report.z[i]|) / report.z.size) := by
  intro v sc
  obtain ⟨problem, hsetup⟩ := Problem.setup_standard
  have hlimit : ⌈sc.tFinal.val / sc.dt.val⌉₊ ≤ 1 := by
    norm_num [sc]
  exact ⟨problem, hsetup, by norm_num [sc], hlimit,
    run_conduction_eq_amplified_mode hsetup (by norm_num [sc]) hlimit⟩

end Exact

end Scenario

namespace Problem

section Exact

/-- What a verification run poses, read exactly: the setup's conditions are the boundary
problem its solution solves at every time (the fixed end holds the solution's value there, from
cold ice at the regime's temperature, and the flux over `K` is the solution's gradient at the
other end, with the steady line anchored as the regime demands), `K` is the enthalpy
conductivity with which every solver built for the ice turns a flux into a gradient, and every
run starts from the solution at time zero on the levels `k·H/(n-1)`. -/
theorem setup_poses_solved_problem
    {regime : Regime} {v : Verification ℝ} {problem : Problem ℝ}
    (hsetup : setup regime v = .ok problem) :
    (regime = .dirichletNeumann →
      ∃ base flux, problem.conditions = ⟨.dirichlet base, .heatFlux flux⟩ ∧
        v.properties.enthalpy 230 0 (v.properties.pressure v.height) = .ok base ∧
        (∀ t, problem.exact.enthalpy 0 t = base ∧
          flux / v.properties.enthalpyConductivity = problem.exact.slope v.height t) ∧
        ∃ surface, v.properties.enthalpy 270 0 (v.properties.pressure 0) = .ok surface ∧
          problem.exact.steady v.height = surface - 25 * v.height) ∧
    (regime = .neumannDirichlet →
      ∃ flux surface, problem.conditions = ⟨.heatFlux flux, .dirichlet surface⟩ ∧
        v.properties.enthalpy 260 0 (v.properties.pressure 0) = .ok surface ∧
        (∀ t, problem.exact.enthalpy v.height t = surface ∧
          flux / v.properties.enthalpyConductivity = problem.exact.slope 0 t) ∧
        ∃ base, v.properties.enthalpy 240 0 (v.properties.pressure v.height) = .ok base ∧
          problem.exact.steady 0 = base) ∧
    (∀ (g : Grid ℝ) (dt : ℝ) (setup : Setup) (solver : Conduction ℝ),
      Conduction.build g dt v.properties setup = .ok solver →
        solver.conductivity = v.properties.enthalpyConductivity) ∧
    (∀ {σ : Type} [Stepper σ ℝ] (limit : Nat) (factory : Factory σ ℝ) (sc : Scenario ℝ)
      (report : Report ℝ), sc.regime = regime → Scenario.run limit factory v sc = .ok report →
        report.initial = problem.exact.profile report.z 0 ∧
        ∀ k (hk : k < report.z.size), report.z[k] = k * (v.height / (sc.levels - 1 : Nat))) := by
  refine ⟨?_, ?_, fun g dt setup solver h => Conduction.conductivity_of_build h, ?_⟩
  · rintro rfl
    exact setup_dirichletNeumann_consistent hsetup
  · rintro rfl
    exact setup_neumannDirichlet_consistent hsetup
  · intro σ _ limit factory sc report hregime hrun
    obtain ⟨problem', grid, hproblem, hgrid, hz, hinitial⟩ := Scenario.initial_of_run hrun
    rw [hregime, hsetup, Except.ok.injEq] at hproblem
    subst hproblem
    refine ⟨by rw [hinitial, Year.toSeconds_zero, hz], fun k hk => ?_⟩
    have hheights := Grid.z_of_build hgrid
    simp only [hz, hheights]
    exact Grid.heights_getElem (Grid.two_le_of_build hgrid) (by simpa [hz, hheights] using hk)

/-- The boundary problem of polar ice in a column of 1000 m, with the base held. -/
theorem setup_poses_solved_problem_standard :
    let v : Verification ℝ := Verification.standard
    ∃ problem, setup .dirichletNeumann v = .ok problem ∧
    ((Regime.dirichletNeumann = .dirichletNeumann →
      ∃ base flux, problem.conditions = ⟨.dirichlet base, .heatFlux flux⟩ ∧
        v.properties.enthalpy 230 0 (v.properties.pressure v.height) = .ok base ∧
        (∀ t, problem.exact.enthalpy 0 t = base ∧
          flux / v.properties.enthalpyConductivity = problem.exact.slope v.height t) ∧
        ∃ surface, v.properties.enthalpy 270 0 (v.properties.pressure 0) = .ok surface ∧
          problem.exact.steady v.height = surface - 25 * v.height) ∧
    (Regime.dirichletNeumann = .neumannDirichlet →
      ∃ flux surface, problem.conditions = ⟨.heatFlux flux, .dirichlet surface⟩ ∧
        v.properties.enthalpy 260 0 (v.properties.pressure 0) = .ok surface ∧
        (∀ t, problem.exact.enthalpy v.height t = surface ∧
          flux / v.properties.enthalpyConductivity = problem.exact.slope 0 t) ∧
        ∃ base, v.properties.enthalpy 240 0 (v.properties.pressure v.height) = .ok base ∧
          problem.exact.steady 0 = base) ∧
    (∀ (g : Grid ℝ) (dt : ℝ) (setup : Setup) (solver : Conduction ℝ),
      Conduction.build g dt v.properties setup = .ok solver →
        solver.conductivity = v.properties.enthalpyConductivity) ∧
    (∀ {σ : Type} [Stepper σ ℝ] (limit : Nat) (factory : Factory σ ℝ) (sc : Scenario ℝ)
      (report : Report ℝ), sc.regime = .dirichletNeumann →
        Scenario.run limit factory v sc = .ok report →
        report.initial = problem.exact.profile report.z 0 ∧
        ∀ k (hk : k < report.z.size), report.z[k] = k * (v.height / (sc.levels - 1 : Nat)))) := by
  intro v
  obtain ⟨problem, hsetup⟩ := setup_standard
  exact ⟨problem, hsetup, setup_poses_solved_problem hsetup⟩

end Exact

end Problem

end IceEnthalpy
