import IceEnthalpy.Proofs.Analytic
import IceEnthalpy.Proofs.Column
import IceEnthalpy.Proofs.Tridiagonal
import IceEnthalpy.Solver.Conduction

/-!
# One θ-step on a steady line plus an eigenmode

The rows of a step are an interior row of the θ-scheme, with the base condition imposed on the
first row and the surface condition on the last.  In exact arithmetic the step maps a profile of
the form `E_s(z) + a·sin(λ·φ(z))`, a steady line plus a multiple of the mode of an analytic
solution, to the profile of the same form with `a` multiplied by the amplification factor

  `G = (1 - (1-θ)·α²μ·Δt) / (1 + θ·α²μ·Δt)`,  `μ = 2·(1 - cos(λ·Δz))/Δz²`,

provided the ends carry the solution's own conditions.  The steady line has no second
difference and meets the conditions exactly; the mode's second difference is `-μ·Δz²` times the
mode, at interior levels by the sum formula for the sine, and at the flux end through the ghost
level because the mode's cosine vanishes there; at the fixed end the mode is zero.  Each
identity of the section `Balance` is one kind of row, with implicit weight `I = r·θ` and explicit
weight `X = r·(1-θ)`, evaluated on the profile with amplitude `a·G` against the stored profile
with amplitude `a`; its hypothesis `hG` says that `G` is the amplification factor of the mode.

The system's diagonal dominates for every `r = α²·Δt/Δz² ≥ 0`, so elimination refuses no pivot
and the solve returns the new profile.
-/

namespace IceEnthalpy

namespace Eigenmode

variable (ex : Eigenmode ℝ)

/-- The steady line plus `a` times the mode: `E_s(z) + a·sin(λ·φ(z))`. -/
noncomputable def withAmplitude (a z : ℝ) : ℝ :=
  ex.steady z + a * Real.sin (ex.eigenvalue * ex.phase z)

/-- The edge at the base that holds a column on the solution: the reference value for
`dirichletNeumann`, the steady gradient otherwise. -/
def baseEdge : Edge ℝ :=
  match ex.regime with
  | .dirichletNeumann => .value ex.reference
  | .neumannDirichlet => .gradient ex.gradient

/-- The edge at the surface that holds a column on the solution: the steady gradient for
`dirichletNeumann`, the reference value otherwise. -/
def surfaceEdge : Edge ℝ :=
  match ex.regime with
  | .dirichletNeumann => .gradient ex.gradient
  | .neumannDirichlet => .value ex.reference

/-- The solution at time `t` is the steady line plus the mode with amplitude `A·exp(-λ²α²t)`. -/
theorem enthalpy_eq_withAmplitude
    (z t : ℝ) :
    ex.enthalpy z t = ex.withAmplitude (ex.amplitude * Real.exp (-ex.decayRate * t)) z := by
  rw [ex.enthalpy_eq, withAmplitude]
  ring

theorem phase_add
    (z h : ℝ) :
    ex.phase (z + h) = ex.phase z + ex.phaseRate * h := by
  rw [ex.phase_eq (z + h), ex.phase_eq z]
  ring

theorem cos_mul_phaseRate
    (x : ℝ) :
    Real.cos (x * ex.phaseRate) = Real.cos x := by
  unfold phaseRate
  split <;> simp

/-- The sum formula for the sine: the mode at two levels `h` apart around `z` adds up to
`2·cos(λ·h)` times the mode at `z`. -/
theorem sin_phase_sub_add
    (z h : ℝ) :
    Real.sin (ex.eigenvalue * ex.phase (z - h)) + Real.sin (ex.eigenvalue * ex.phase (z + h)) =
      2 * Real.cos (ex.eigenvalue * h) * Real.sin (ex.eigenvalue * ex.phase z) := by
  have hdown : ex.eigenvalue * ex.phase (z - h) =
      ex.eigenvalue * ex.phase z - ex.eigenvalue * h * ex.phaseRate := by
    rw [sub_eq_add_neg, ex.phase_add]
    ring
  have hup : ex.eigenvalue * ex.phase (z + h) =
      ex.eigenvalue * ex.phase z + ex.eigenvalue * h * ex.phaseRate := by
    rw [ex.phase_add]
    ring
  rw [hdown, hup, Real.sin_sub, Real.sin_add, ex.cos_mul_phaseRate]
  ring

/-- One level inward from the far end of the phase, the mode is `cos(λ·h)` times its value at
the end, because the mode's cosine vanishes there. -/
theorem sin_eigenvalue_mul_length_sub
    (h : ℝ) :
    Real.sin (ex.eigenvalue * (ex.length - h)) =
      Real.cos (ex.eigenvalue * h) * Real.sin (ex.eigenvalue * ex.length) := by
  rw [mul_sub, Real.sin_sub, ex.cos_eigenvalue_mul_length]
  ring

section Balance

variable {implicit explicit G a : ℝ}

theorem withAmplitude_base_of_dirichletNeumann
    (hr : ex.regime = .dirichletNeumann)
    (b : ℝ) :
    ex.withAmplitude b 0 = ex.reference := by
  simp [withAmplitude, steady, phase, hr]

theorem withAmplitude_surface_of_neumannDirichlet
    (hr : ex.regime = .neumannDirichlet)
    (b : ℝ) :
    ex.withAmplitude b ex.length = ex.reference := by
  simp [withAmplitude, steady, phase, hr]

/-- An interior row: the steady line has no second difference, and the mode's second difference
is `-2·(1 - cos(λ·Δz))` times the mode. -/
theorem withAmplitude_interior
    (z dz : ℝ)
    (hG : G * (1 + 2 * implicit * (1 - Real.cos (ex.eigenvalue * dz))) =
      1 - 2 * explicit * (1 - Real.cos (ex.eigenvalue * dz))) :
    -implicit * ex.withAmplitude (a * G) (z - dz) +
        (1 + 2 * implicit) * ex.withAmplitude (a * G) z +
        -implicit * ex.withAmplitude (a * G) (z + dz) =
      ex.withAmplitude a z + explicit * (ex.withAmplitude a (z - dz) -
        2 * ex.withAmplitude a z + ex.withAmplitude a (z + dz)) := by
  have hsteady : ex.steady (z - dz) + ex.steady (z + dz) = 2 * ex.steady z := by
    rw [ex.steady_eq (z - dz), ex.steady_eq (z + dz), ex.steady_eq z]
    ring
  have hmode := ex.sin_phase_sub_add z dz
  unfold withAmplitude
  linear_combination (-(implicit + explicit)) * hsteady +
    (-(a * G * implicit + explicit * a)) * hmode +
    (a * Real.sin (ex.eigenvalue * ex.phase z)) * hG

/-- A row at an end with a gradient condition, the ghost level beyond the end `z` mirrored from
the level `z'` inside it.  The steady line has the imposed gradient, and the mode is `cos(λ·Δz)`
times its end value at `z'` because its cosine vanishes at the end. -/
theorem withAmplitude_flux_end
    {z z' dz : ℝ}
    (hmode : Real.sin (ex.eigenvalue * ex.phase z') =
      Real.cos (ex.eigenvalue * dz) * Real.sin (ex.eigenvalue * ex.phase z))
    (hG : G * (1 + 2 * implicit * (1 - Real.cos (ex.eigenvalue * dz))) =
      1 - 2 * explicit * (1 - Real.cos (ex.eigenvalue * dz))) :
    (1 + 2 * implicit) * ex.withAmplitude (a * G) z +
        -2 * implicit * ex.withAmplitude (a * G) z' =
      ex.withAmplitude a z + (explicit * (2 * ex.withAmplitude a z' -
        2 * ex.withAmplitude a z - 2 * (z' - z) * ex.gradient) -
          implicit * 2 * (z' - z) * ex.gradient) := by
  have hsteady : ex.steady z' = ex.steady z + ex.gradient * (z' - z) := by
    rw [ex.steady_eq z', ex.steady_eq z]
    ring
  unfold withAmplitude
  linear_combination (-(2 * implicit + 2 * explicit)) * hsteady +
    (-(2 * a * G * implicit + 2 * explicit * a)) * hmode +
    (a * Real.sin (ex.eigenvalue * ex.phase z)) * hG

/-- At the base under `neumannDirichlet` the phase runs down from `L`. -/
theorem sin_phase_of_neumannDirichlet
    (hr : ex.regime = .neumannDirichlet)
    (h : ℝ) :
    Real.sin (ex.eigenvalue * ex.phase h) =
      Real.cos (ex.eigenvalue * h) * Real.sin (ex.eigenvalue * ex.phase 0) := by
  simp only [phase, hr, sub_zero]
  exact ex.sin_eigenvalue_mul_length_sub h

/-- At the surface under `dirichletNeumann` the phase runs up to `L`. -/
theorem sin_phase_of_dirichletNeumann
    (hr : ex.regime = .dirichletNeumann)
    (h : ℝ) :
    Real.sin (ex.eigenvalue * ex.phase (ex.length - h)) =
      Real.cos (ex.eigenvalue * h) * Real.sin (ex.eigenvalue * ex.phase ex.length) := by
  simp only [phase, hr]
  exact ex.sin_eigenvalue_mul_length_sub h

end Balance

end Eigenmode

namespace Scheme

/-- The factor `G = (1 - (1-θ)·Dμ·Δt)/(1 + θ·Dμ·Δt)` by which one step of a scheme with
diffusivity `D`, spacing `Δz` and time step `Δt` multiplies a mode of wavenumber `k`, where
`μ = 2·(1 - cos(k·Δz))/Δz²` is the eigenvalue of the second difference on the mode. -/
noncomputable def amplification (scheme : Scheme) (diffusivity dz dt k : ℝ) : ℝ :=
  let θ : ℝ := scheme.theta
  let μ := 2 * (1 - Real.cos (k * dz)) / dz ^ 2
  (1 - (1 - θ) * diffusivity * μ * dt) / (1 + θ * diffusivity * μ * dt)

theorem theta_mem
    (scheme : Scheme) :
    0 ≤ (scheme.theta : ℝ) ∧ (scheme.theta : ℝ) ≤ 1 := by
  cases scheme <;> norm_num [Scheme.theta]

end Scheme

namespace Conduction

/-- A count that fits in a word is computed without wrapping. -/
theorem fineLevels_of_lt {n ρ : Nat} (h : (n - 1) * ρ + 1 < 2 ^ 64) :
    fineLevels n ρ = (n - 1) * ρ + 1 := by
  unfold fineLevels
  split
  · exact Nat.mod_eq_of_lt h
  · rfl

/-- Refining once keeps the count of a column. -/
theorem fineLevels_one {n : Nat} (hn : 1 ≤ n) : fineLevels n 1 = n := by
  unfold fineLevels
  split
  · next hword =>
      rw [Nat.mul_one, Nat.sub_add_cancel hn]
      exact Nat.mod_eq_of_lt hword
  · omega

/-- Refining zero times leaves a single level. -/
theorem fineLevels_zero (n : Nat) : fineLevels n 0 = 1 := by
  unfold fineLevels
  split <;> simp

/-- A column of two levels or more, refined at least once into a count that fits in a word, gives
the solver two levels or more. -/
theorem two_le_fineLevels {n ρ : Nat} (hn : 2 ≤ n) (hρ : ρ ≠ 0) (h : (n - 1) * ρ + 1 < 2 ^ 64) :
    2 ≤ fineLevels n ρ := by
  rw [fineLevels_of_lt h]
  have : 1 ≤ (n - 1) * ρ := Nat.one_le_iff_ne_zero.mpr (Nat.mul_ne_zero (by omega) hρ)
  omega

section Rows

variable {top : Nat} {dz implicit explicit : ℝ} {e : Nat → ℝ} {base surface : Edge ℝ}

theorem row_interior
    {i : Nat}
    (h0 : i ≠ 0)
    (htop : i ≠ top) :
    row top dz implicit explicit e base surface i =
      ⟨-implicit, 1 + 2 * implicit, -implicit,
        e i + explicit * (e (i - 1) - 2 * e i + e (i + 1))⟩ := by
  simp [row, h0, htop]
  norm_num

theorem row_base_value
    {v : ℝ}
    (htop : 0 ≠ top) :
    row top dz implicit explicit e (.value v) surface 0 = ⟨-implicit, 1, 0, v⟩ := by
  simp [row, htop]
  norm_num

theorem row_base_gradient
    {g : ℝ}
    (htop : 0 ≠ top) :
    row top dz implicit explicit e (.gradient g) surface 0 =
      ⟨-implicit, 1 + 2 * implicit, -2 * implicit,
        e 0 + (explicit * (2 * e 1 - 2 * e 0 - 2 * dz * g) - implicit * 2 * dz * g)⟩ := by
  simp [row, htop]
  norm_num

theorem row_surface_value
    {v : ℝ}
    (htop : top ≠ 0) :
    row top dz implicit explicit e base (.value v) top = ⟨0, 1, -implicit, v⟩ := by
  simp [row, htop]
  norm_num

theorem row_surface_gradient
    {g : ℝ}
    (htop : top ≠ 0) :
    row top dz implicit explicit e base (.gradient g) top =
      ⟨-2 * implicit, 1 + 2 * implicit, -implicit,
        e top + (explicit * (2 * e (top - 1) - 2 * e top + 2 * dz * g) +
          implicit * 2 * dz * g)⟩ := by
  simp [row, htop]
  norm_num

end Rows

section Mode

variable (ex : Eigenmode ℝ)
variable {n : Nat} {dz implicit explicit G a : ℝ} {e x : Nat → ℝ}

/-- Row `i` of a step on the `n` levels `j·Δz`, from the profile with amplitude `a`, holds at the
profile with amplitude `a·G`, when the top level is the column length and `G` is the
amplification factor. -/
theorem row_withAmplitude
    (hn : 2 ≤ n)
    (hlength : ((n - 1 : Nat) : ℝ) * dz = ex.length)
    (hG : G * (1 + 2 * implicit * (1 - Real.cos (ex.eigenvalue * dz))) =
      1 - 2 * explicit * (1 - Real.cos (ex.eigenvalue * dz)))
    (he : ∀ j < n, e j = ex.withAmplitude a (j * dz))
    (hx : ∀ j < n, x j = ex.withAmplitude (a * G) (j * dz))
    {i : Nat}
    (hi : i < n) :
    (row (n - 1) dz implicit explicit e ex.baseEdge ex.surfaceEdge i).lower *
          (if i = 0 then 0 else x (i - 1)) +
        (row (n - 1) dz implicit explicit e ex.baseEdge ex.surfaceEdge i).diag * x i +
        (if i + 1 < n then
          (row (n - 1) dz implicit explicit e ex.baseEdge ex.surfaceEdge i).upper * x (i + 1)
        else 0) =
      (row (n - 1) dz implicit explicit e ex.baseEdge ex.surfaceEdge i).rhs := by
  have htop : 0 ≠ n - 1 := by omega
  by_cases h0 : i = 0
  · subst h0
    have hup : 0 + 1 < n := by omega
    cases hr : ex.regime with
    | dirichletNeumann =>
        rw [show ex.baseEdge = .value ex.reference by simp [Eigenmode.baseEdge, hr],
          row_base_value htop, hx 0 hi]
        simp [hup, ex.withAmplitude_base_of_dirichletNeumann hr]
    | neumannDirichlet =>
        rw [show ex.baseEdge = .gradient ex.gradient by simp [Eigenmode.baseEdge, hr],
          row_base_gradient htop]
        simp only [↓reduceIte, hup, mul_zero, zero_add]
        rw [he 0 hi, he 1 hup, hx 0 hi, hx 1 hup, Nat.cast_zero, Nat.cast_one, zero_mul, one_mul]
        linear_combination ex.withAmplitude_flux_end (a := a)
          (ex.sin_phase_of_neumannDirichlet hr dz) hG
  · by_cases hlast : i = n - 1
    · subst hlast
      have hbelow : ((n - 1 - 1 : Nat) : ℝ) * dz = ex.length - dz := by
        rw [Nat.cast_sub (by omega : 1 ≤ n - 1), ← hlength]
        push_cast
        ring
      have hno : ¬(n - 1 + 1 < n) := by omega
      cases hr : ex.regime with
      | dirichletNeumann =>
          rw [show ex.surfaceEdge = .gradient ex.gradient by simp [Eigenmode.surfaceEdge, hr],
            row_surface_gradient h0]
          simp only [h0, hno, ↓reduceIte, add_zero]
          rw [he (n - 1) hi, he (n - 1 - 1) (by omega), hx (n - 1) hi, hx (n - 1 - 1) (by omega),
            hbelow, hlength]
          linear_combination ex.withAmplitude_flux_end (a := a)
            (ex.sin_phase_of_dirichletNeumann hr dz) hG
      | neumannDirichlet =>
          rw [show ex.surfaceEdge = .value ex.reference by simp [Eigenmode.surfaceEdge, hr],
            row_surface_value h0, hx (n - 1) hi, hlength]
          simp [hno, ex.withAmplitude_surface_of_neumannDirichlet hr]
    · have hup : i + 1 < n := by omega
      have hbelow : ((i - 1 : Nat) : ℝ) * dz = i * dz - dz := by
        rw [Nat.cast_sub (Nat.one_le_iff_ne_zero.mpr h0)]
        push_cast
        ring
      have habove : ((i + 1 : Nat) : ℝ) * dz = i * dz + dz := by
        push_cast
        ring
      rw [row_interior h0 hlast]
      simp only [h0, hup, ↓reduceIte]
      rw [he i hi, he (i - 1) (by omega), he (i + 1) hup, hx i hi, hx (i - 1) (by omega),
        hx (i + 1) hup, hbelow, habove]
      exact ex.withAmplitude_interior (i * dz) dz hG

end Mode

section Exact

variable (s : Conduction ℝ)

/-- The mesh ratio `r = α²·Δt/Δz²` of a step. -/
noncomputable def meshRatio : ℝ :=
  s.diffusivity * s.dt / (s.grid.spacing * s.grid.spacing)

/-- The factor by which a step of the solver multiplies a mode of wavenumber `k`. -/
noncomputable def amplification (k : ℝ) : ℝ :=
  s.scheme.amplification s.diffusivity s.grid.spacing s.dt k

/-- The factor does not depend on the profile the solver holds nor on where it stands in the
cycle. -/
@[simp] theorem amplification_with
    (e : Array ℝ)
    (p : Phase ℝ)
    (k : ℝ) :
    ({ s with enthalpy := e, phase := p } : Conduction ℝ).amplification k = s.amplification k :=
  rfl

theorem meshRatio_nonneg
    (hD : 0 ≤ s.diffusivity)
    (hdt : 0 ≤ s.dt) :
    0 ≤ s.meshRatio := by
  unfold meshRatio
  have := mul_self_nonneg s.grid.spacing
  positivity

/-- Row `i` of a step, read exactly: the rows of `row` with `r·θ` and `r·(1-θ)`. -/
theorem getElem_system
    (base surface : Edge ℝ)
    {i : Nat}
    (hi : i < (s.system base surface).length) :
    (s.system base surface)[i] =
      row (s.grid.levels - 1) s.grid.spacing (s.meshRatio * s.scheme.theta)
        (s.meshRatio * (1 - s.scheme.theta)) (fun j => s.enthalpy.getD j 0) base surface i := by
  simp only [system, List.getElem_map, List.getElem_range]
  norm_num [meshRatio]

/-- The multiplication by `G` undone: the identity that every row of a step reduces to on the
mode. -/
theorem amplification_mul
    {k : ℝ}
    (hD : 0 ≤ s.diffusivity)
    (hdt : 0 ≤ s.dt)
    (hdz : s.grid.spacing ≠ 0) :
    s.amplification k *
        (1 + 2 * (s.meshRatio * s.scheme.theta) * (1 - Real.cos (k * s.grid.spacing))) =
      1 - 2 * (s.meshRatio * (1 - s.scheme.theta)) * (1 - Real.cos (k * s.grid.spacing)) := by
  obtain ⟨hθ0, -⟩ := Scheme.theta_mem s.scheme
  have hcos : 0 ≤ 1 - Real.cos (k * s.grid.spacing) := by
    linarith [Real.cos_le_one (k * s.grid.spacing)]
  have hden : 0 < 1 + (s.scheme.theta : ℝ) * s.diffusivity *
      (2 * (1 - Real.cos (k * s.grid.spacing)) / s.grid.spacing ^ 2) * s.dt := by
    have : 0 ≤ (s.scheme.theta : ℝ) * s.diffusivity *
        (2 * (1 - Real.cos (k * s.grid.spacing)) / s.grid.spacing ^ 2) * s.dt := by
      positivity
    linarith
  unfold amplification Scheme.amplification meshRatio
  dsimp only
  field_simp

/-- Every row of a step has a diagonal that exceeds its other coefficients together by one and a
coefficient above that is not positive, whatever the edges, when the mesh ratio is not
negative. -/
theorem system_contracting
    (base surface : Edge ℝ)
    (hr : 0 ≤ s.meshRatio) :
    Tridiagonal.Contracting 0 (s.system base surface) := by
  have hI : 0 ≤ s.meshRatio * s.scheme.theta := mul_nonneg hr (Scheme.theta_mem s.scheme).1
  have hn := s.grid.two_le_size
  apply Tridiagonal.contracting_of_getElem
  intro i hi
  rw [length_system] at hi
  simp only [getElem_system, length_system]
  by_cases h0 : i = 0
  · subst h0
    cases base with
    | value v =>
        rw [row_base_value (by unfold Grid.levels; omega)]
        norm_num
    | gradient g =>
        rw [row_base_gradient (by unfold Grid.levels; omega)]
        simp only [↓reduceIte, zero_mul, abs_neg, abs_mul, abs_two, abs_of_nonneg hI]
        refine ⟨by linarith, fun _ => ⟨by linarith, by linarith⟩⟩
  · by_cases hlast : i = s.grid.levels - 1
    · subst hlast
      have hno : ¬(s.grid.levels - 1 + 1 < s.grid.levels) := by omega
      cases surface with
      | value v =>
          rw [row_surface_value h0]
          simp [h0, hno]
      | gradient g =>
          rw [row_surface_gradient h0]
          simp only [h0, hno, ↓reduceIte, abs_neg, abs_mul, abs_two, abs_of_nonneg hI,
            false_implies, and_true]
          linarith
    · rw [row_interior h0 hlast]
      simp only [h0, ↓reduceIte, abs_neg, abs_of_nonneg hI]
      refine ⟨by linarith, fun _ => ⟨by linarith, by linarith⟩⟩

/-- So every system of a step is diagonally dominant. -/
theorem system_dominant
    (base surface : Edge ℝ)
    (hr : 0 ≤ s.meshRatio) :
    Tridiagonal.Dominant 0 (s.system base surface) :=
  (s.system_contracting base surface hr).dominant

variable (ex : Eigenmode ℝ)

/-- A profile on levels that are the multiples of the spacing, read at level `j`. -/
theorem getD_map_of_levels
    (hz : ∀ j (hj : j < s.grid.z.size), s.grid.z[j] = j * s.grid.spacing)
    (f : ℝ → ℝ)
    {j : Nat}
    (hj : j < s.grid.levels) :
    (s.grid.z.map f).getD j 0 = f (j * s.grid.spacing) := by
  have hsize : j < s.grid.z.size := hj
  rw [getD_of_lt _ _ (by simpa using hsize), Array.getElem_map, hz j hsize]

/-- On a grid that spans the column of `ex` in multiples of its spacing, the rows of a step
from the steady line plus `a` times the mode are solved by the steady line plus `a·G` times the
mode, `G` the amplification factor of the mode's eigenvalue. -/
theorem system_solves_withAmplitude
    {a : ℝ}
    (hD : 0 ≤ s.diffusivity)
    (hdt : 0 ≤ s.dt)
    (hz : ∀ j (hj : j < s.grid.z.size), s.grid.z[j] = j * s.grid.spacing)
    (hlength : ((s.grid.levels - 1 : Nat) : ℝ) * s.grid.spacing = ex.length)
    (henthalpy : s.enthalpy = s.grid.z.map (ex.withAmplitude a)) :
    Tridiagonal.Solves 0 (s.system ex.baseEdge ex.surfaceEdge)
      (s.grid.z.map (ex.withAmplitude (a * s.amplification ex.eigenvalue))).toList := by
  have hn : 2 ≤ s.grid.levels := s.grid.two_le_size
  have hdz : s.grid.spacing ≠ 0 := by
    intro hzero
    rw [hzero, mul_zero] at hlength
    exact ex.zero_lt_length.ne hlength
  apply Tridiagonal.solves_of_getD
  · simp [Grid.levels]
  · intro i hi
    rw [length_system] at hi
    have hrow := row_withAmplitude ex hn hlength (s.amplification_mul hD hdt hdz)
      (e := fun j => s.enthalpy.getD j 0)
      (x := fun j => (s.grid.z.map (ex.withAmplitude (a * s.amplification ex.eigenvalue))).getD j 0)
      (fun j hj => by rw [henthalpy, s.getD_map_of_levels hz _ hj])
      (fun j hj => s.getD_map_of_levels hz _ hj) hi
    simp only [getElem_system, length_system, Array.getD_eq_getD_getElem?, List.getD_eq_getElem?_getD,
      Array.getElem?_toList] at hrow ⊢
    exact hrow

/-- Solving with the solution's own edges takes the steady line plus `a` times the mode to the
steady line plus `a·G` times it, and leaves the solver idle with the new profile. -/
theorem solve_withAmplitude
    {a : ℝ}
    (hD : 0 ≤ s.diffusivity)
    (hdt : 0 ≤ s.dt)
    (hz : ∀ j (hj : j < s.grid.z.size), s.grid.z[j] = j * s.grid.spacing)
    (hlength : ((s.grid.levels - 1 : Nat) : ℝ) * s.grid.spacing = ex.length)
    (henthalpy : s.enthalpy = s.grid.z.map (ex.withAmplitude a))
    (hphase : s.phase = .ready (some ex.baseEdge) (some ex.surfaceEdge)) :
    s.solve =
      .ok (s.grid.z.map (ex.withAmplitude (a * s.amplification ex.eigenvalue)),
        { s with
          enthalpy := s.grid.z.map (ex.withAmplitude (a * s.amplification ex.eigenvalue))
          phase := .idle }) := by
  have hsolve := Tridiagonal.solve_eq_of_dominant
    (s.system_dominant ex.baseEdge ex.surfaceEdge (s.meshRatio_nonneg hD hdt))
    (s.system_solves_withAmplitude ex hD hdt hz hlength henthalpy)
  simp only [solve, hphase, hsolve, Array.toArray_toList]

end Exact

section Step

/-- A stage that succeeds runs as its function: the result, and the next state. -/
theorem run_ofExcept_ok
    {σ β ρ : Type} {f : σ → Except (SolverError β) (ρ × σ)} {s next : σ} {r : ρ}
    (h : f s = .ok (r, next)) :
    (Step.ofExcept f).run.run s = pure (.ok r, next) := by
  simp [Step.ofExcept, ExceptT.run, ExceptT.mk, StateT.run, h]

variable {α : Type} [Scalar α]

/-- A full step of the cycle runs its four stages in order; when all succeed it returns the
solved profile and the remapped column, with the state the solve left. -/
theorem advance_eq_ok
    {s s₁ s₂ s₃ s₄ : Conduction α} {c c' : Column α} {conditions : Conditions α}
    {x : Array α}
    (hprepare : s.prepare c false c.grid.height = .ok s₁)
    (hbase : s₁.impose .base conditions.base = .ok s₂)
    (hsurface : s₂.impose .surface conditions.surface = .ok s₃)
    (hsolve : s₃.solve = .ok (x, s₄))
    (hremap : s₄.remap x c = .ok c') :
    ((Stepper.advance c conditions).run.run s).run = (.ok (x, c'), s₄) := by
  have h₁ : (Stepper.prepare c false c.grid.height : Step (Conduction α) α Unit).run.run s =
      pure (.ok (), s₁) :=
    run_ofExcept_ok (by simp [hprepare, Except.map])
  have h₂ : (Stepper.impose .base conditions.base : Step (Conduction α) α Unit).run.run s₁ =
      pure (.ok (), s₂) :=
    run_ofExcept_ok (by simp [hbase, Except.map])
  have h₃ : (Stepper.impose .surface conditions.surface : Step (Conduction α) α Unit).run.run
      s₂ = pure (.ok (), s₃) :=
    run_ofExcept_ok (by simp [hsurface, Except.map])
  have h₄ : (Stepper.solve : Step (Conduction α) α (Array α)).run.run s₃ = pure (.ok x, s₄) :=
    run_ofExcept_ok hsolve
  have h₅ : (Stepper.remap x c : Step (Conduction α) α (Column α)).run.run s₄ =
      pure (.ok c', s₄) :=
    run_ofExcept_ok (by simp [hremap, Except.map])
  simp [Stepper.advance, Stepper.apply, ExceptT.run_bind, StateT.run_bind, Except.map,
    h₁, h₂, h₃, h₄, h₅]

/-- Writing a profile leaves the registers other than the enthalpy, so what `prepare` checks of
them. -/
theorem otherPhysics_of_setProfile
    {c c' : Column α} {values : Array α}
    (h : c.setProfile values = .ok c') :
    otherPhysics c' = otherPhysics c := by
  obtain ⟨-, -, hu, hv, hw, hheat⟩ := Column.fields_of_setProfile h
  simp [otherPhysics, Column.register, List.find?_cons, hu, hv, hw, hheat]

/-- A reset column holds no other physics, when zero equals zero. -/
theorem otherPhysics_reset
    (hzero : ((0.0 : α) != 0.0) = false) (c : Column α) :
    otherPhysics c.resetVelocity.resetStrainHeating = none := by
  have hzeros : ∀ n, (Array.replicate n (0.0 : α)).any (fun x => x != 0.0) = false := by
    intro n
    rw [Array.any_replicate]
    split <;> simp [hzero]
  simp only [otherPhysics, Column.register, Column.resetVelocity, Column.resetStrainHeating,
    Column.zerosOn, hzeros, List.find?_cons, List.find?_nil]

end Step

section ExactStep

variable (s : Conduction ℝ) (ex : Eigenmode ℝ)
variable {c : Column ℝ}

/-- Read exactly, a height is never farther from itself than the thickness tolerance allows. -/
theorem thickness_exact (x : ℝ) (hx : (0.0 : ℝ) < x) :
    ¬Scalar.abs (x - x) > thicknessTolerance * x := by
  rw [sub_self]
  norm_num [thicknessTolerance] at hx ⊢
  positivity

/-- On its column's own grid the solver takes the column's enthalpy as it is: interpolation
at the levels themselves returns the values. -/
theorem prepare_of_grid
    (hgrid : s.grid = s.column)
    (hcolumn : c.grid = s.column)
    (hinc : Interpolation.Increasing s.grid.z)
    (hother : otherPhysics c = none) :
    s.prepare c false c.grid.height =
      .ok { s with enthalpy := c.enthalpy, phase := .ready none none } := by
  have hlevels : ¬(c.grid.levels ≠ s.column.levels) := by
    rw [hcolumn]
    exact not_not_intro rfl
  have hthickness : ¬(Scalar.abs (c.grid.height - s.column.height) >
      thicknessTolerance * s.column.height) := by
    rw [hcolumn]
    exact thickness_exact _ s.column.height_pos
  have hinterpolate : Interpolation.interpolate s.column.z c.enthalpy s.grid.z = c.enthalpy := by
    rw [← hgrid]
    apply Interpolation.interpolate_self hinc
    rw [c.size_enthalpy, hcolumn, ← hgrid]
    rfl
  unfold prepare
  rw [if_neg hlevels, if_neg hthickness, hother, hinterpolate]

/-- On the same grid, remapping a profile stores it as the column's enthalpy. -/
theorem remap_of_grid
    {x : Array ℝ}
    (hgrid : s.grid = s.column)
    (hcolumn : c.grid = s.column)
    (hinc : Interpolation.Increasing s.grid.z)
    (hsize : x.size = s.grid.levels) :
    ∃ c', s.remap x c = .ok c' ∧ c'.enthalpy = x ∧ c'.grid = c.grid ∧
      otherPhysics c' = otherPhysics c := by
  have hlevels : ¬(c.grid.levels ≠ s.column.levels) := by
    rw [hcolumn]
    exact not_not_intro rfl
  have hinterpolate : Interpolation.interpolate s.grid.z x c.z = x := by
    rw [Column.z, hcolumn, ← hgrid]
    exact Interpolation.interpolate_self hinc hsize
  have hfits : x.size = c.grid.levels := by
    rw [hsize, hcolumn, hgrid]
  refine ⟨{ c with enthalpy := x, size_enthalpy := hfits }, ?_, rfl, rfl, ?_⟩
  · unfold remap
    rw [if_neg (by omega), if_neg hlevels, hinterpolate, Column.setProfile_of_size c hfits]
    rfl
  · exact otherPhysics_of_setProfile (Column.setProfile_of_size c hfits)

/-- One step of the cycle on the solution's own grid, with the solution's conditions, takes a
column holding the steady line plus `a` times the mode to one holding the steady line plus
`a·G` times it; the solver keeps everything but its profile and is idle again. -/
theorem advance_withAmplitude
    {n : Nat} {conditions : Conditions ℝ} {a : ℝ}
    (hD : 0 ≤ s.diffusivity)
    (hdt : 0 ≤ s.dt)
    (hbuild : Grid.build n ex.length = .ok s.grid)
    (hgrid : s.grid = s.column)
    (hcolumn : c.grid = s.column)
    (hbase : conditions.base.toEdge s.conductivity = ex.baseEdge)
    (hsurface : conditions.surface.toEdge s.conductivity = ex.surfaceEdge)
    (hother : otherPhysics c = none)
    (henthalpy : c.enthalpy = s.grid.z.map (ex.withAmplitude a)) :
    ∃ c', ((Stepper.advance c conditions).run.run s).run =
        (.ok (c'.enthalpy, c'), { s with enthalpy := c'.enthalpy, phase := .idle }) ∧
      c'.enthalpy = s.grid.z.map (ex.withAmplitude (a * s.amplification ex.eigenvalue)) ∧
      c'.grid = c.grid ∧ otherPhysics c' = none := by
  have hinc := Grid.increasing_of_build hbuild
  obtain ⟨x, hx⟩ : ∃ x, x = s.grid.z.map (ex.withAmplitude (a * s.amplification ex.eigenvalue)) :=
    ⟨_, rfl⟩
  obtain ⟨c', hremap, hprofile, hgrid', hother'⟩ :=
    remap_of_grid { s with enthalpy := x, phase := .idle } (x := x) hgrid hcolumn hinc
      (by simp [hx, Grid.levels])
  refine ⟨c', ?_, hprofile.trans hx, hgrid', hother' ▸ hother⟩
  rw [hprofile]
  have hbase' :
      ({ s with enthalpy := c.enthalpy, phase := .ready none none } : Conduction ℝ).impose
        .base conditions.base =
      .ok { s with enthalpy := c.enthalpy, phase := .ready (some ex.baseEdge) none } := by
    simp [impose, hbase]
  have hsurface' :
      ({ s with enthalpy := c.enthalpy, phase := .ready (some ex.baseEdge) none } :
        Conduction ℝ).impose .surface conditions.surface =
      .ok { s with
        enthalpy := c.enthalpy
        phase := .ready (some ex.baseEdge) (some ex.surfaceEdge) } := by
    simp [impose, hsurface]
  have hsolve := solve_withAmplitude
    { s with
      enthalpy := c.enthalpy
      phase := .ready (some ex.baseEdge) (some ex.surfaceEdge) }
    ex hD hdt (fun j hj => Grid.getElem_z_of_build hbuild hj) (Grid.length_of_build hbuild)
    henthalpy rfl
  simp only [amplification_with] at hsolve
  rw [← hx] at hsolve
  exact advance_eq_ok (s.prepare_of_grid hgrid hcolumn hinc hother) hbase' hsurface' hsolve hremap

end ExactStep

end Conduction

end IceEnthalpy
