import IceEnthalpy.Proofs.DiscreteMode

/-!
# Conservation of heat by a step

With a heat flux through both ends, a step of the θ-scheme changes the trapezoidal integral of
the enthalpy over the column, `Δz·(e₀/2 + e₁ + … + e_{n-2} + e_{n-1}/2)`, by what the fluxes
bring in: `α²·Δt·(g_s - g_b)`, with the gradients `g = F/K` that the solver stores.  Since
`α² = k/(c·ρ)` and `K = k/c`, the density times the integral changes by `Δt·(F_s - F_b)`.

Weighted by the trapezoidal rule, the second differences of the levels telescope, and the ghost
levels beyond the two ends leave only the two gradients.  This holds at the new and at the old
time level alike, so it holds for every weight `θ`.
-/

namespace IceEnthalpy
namespace Conduction

/-- The trapezoidal integral `Δz·(v₀/2 + v₁ + … + v_{top-1} + v_top/2)` of the values `v` at the
levels `0, …, top`. -/
noncomputable def trapezoid (top : Nat) (dz : ℝ) (v : Nat → ℝ) : ℝ :=
  dz * ((v 0 + v top) / 2 + ∑ i ∈ Finset.range (top - 1), v (i + 1))

/-- The second difference of `y` at level `i` of the levels `0, …, top`, the ghost levels of the
gradients `gb` at the base and `gs` at the surface standing in beyond the ends. -/
noncomputable def secondDifference (top : Nat) (dz gb gs : ℝ) (y : Nat → ℝ) (i : Nat) : ℝ :=
  if i = 0 then (y 1 - 2 * dz * gb) - 2 * y 0 + y 1
  else if i = top then y (top - 1) - 2 * y top + (y (top - 1) + 2 * dz * gs)
  else y (i - 1) - 2 * y i + y (i + 1)

section Trapezoid

variable {top : Nat} {dz : ℝ}

/-- The trapezoidal integral reads the values at the levels `0, …, top` only. -/
theorem trapezoid_congr
    {u v : Nat → ℝ}
    (h : ∀ i ≤ top, u i = v i) :
    trapezoid top dz u = trapezoid top dz v := by
  unfold trapezoid
  rw [h 0 (Nat.zero_le _), h top le_rfl,
    Finset.sum_congr rfl fun i hi => h (i + 1) (by rw [Finset.mem_range] at hi; omega)]

theorem trapezoid_add_mul
    (a b : ℝ) (u v : Nat → ℝ) :
    trapezoid top dz (fun i => a * u i + b * v i) =
      a * trapezoid top dz u + b * trapezoid top dz v := by
  unfold trapezoid
  rw [Finset.sum_add_distrib, ← Finset.mul_sum, ← Finset.mul_sum]
  ring

theorem trapezoid_sub
    (u v : Nat → ℝ) :
    trapezoid top dz u - trapezoid top dz v = trapezoid top dz (fun i => u i - v i) := by
  unfold trapezoid
  rw [Finset.sum_sub_distrib]
  ring

/-- Weighted by the trapezoidal rule, the second differences telescope to the difference of the
two gradients: an interior second difference is the change of slope across its level. -/
theorem trapezoid_secondDifference
    (htop : 0 < top)
    (gb gs : ℝ) (y : Nat → ℝ) :
    trapezoid top dz (secondDifference top dz gb gs y) = dz * dz * (gs - gb) := by
  have hinterior : ∀ i ∈ Finset.range (top - 1), secondDifference top dz gb gs y (i + 1) =
      (y (i + 1 + 1) - y (i + 1)) - (y (i + 1) - y i) := by
    intro i hi
    rw [Finset.mem_range] at hi
    rw [secondDifference, if_neg (Nat.succ_ne_zero i), if_neg (by omega), Nat.add_sub_cancel]
    ring
  have htelescope := Finset.sum_range_sub (fun i => y (i + 1) - y i) (top - 1)
  have hlast : top - 1 + 1 = top := by omega
  unfold trapezoid
  rw [Finset.sum_congr rfl hinterior, htelescope, hlast]
  simp only [secondDifference, ↓reduceIte, htop.ne']
  ring

end Trapezoid

/-- At a level of a step between two gradient edges, the change is `r` times the second
difference, weighted `θ` at the new time level and `1 - θ` at the old. -/
theorem sub_of_level_gradient
    {top : Nat} {dz r θ gb gs : ℝ} {e x : Nat → ℝ} {i : Nat}
    (htop : 0 < top)
    (h : Level top dz r θ (.gradient gb) (.gradient gs) e x i) :
    x i - e i = r * (θ * secondDifference top dz gb gs x i +
      (1 - θ) * secondDifference top dz gb gs e i) := by
  unfold Level Balanced at h
  unfold secondDifference
  split_ifs at h ⊢ with h0 hlast
  · subst h0
    exact h
  · subst hlast
    exact h
  · exact h

/-- A step between two gradient edges changes the trapezoidal integral of the profile by
`r·Δz²·(g_s - g_b)`. -/
theorem trapezoid_of_advances
    (s : Conduction ℝ) {gb gs : ℝ} {x : Array ℝ}
    (hx : s.Advances (.gradient gb) (.gradient gs) x) :
    trapezoid (s.grid.levels - 1) s.grid.spacing (fun j => x.getD j 0) =
      trapezoid (s.grid.levels - 1) s.grid.spacing (fun j => s.enthalpy.getD j 0) +
        s.meshRatio * s.grid.spacing ^ 2 * (gs - gb) := by
  set top := s.grid.levels - 1
  set dz := s.grid.spacing
  set r := s.meshRatio
  set θ : ℝ := s.scheme.theta
  set X := fun j => x.getD j 0
  set E := fun j => s.enthalpy.getD j 0
  have htop : 0 < top := by
    have := s.grid.two_le_size
    unfold top Grid.levels
    omega
  have hstep : ∀ i ≤ top, X i - E i =
      r * θ * secondDifference top dz gb gs X i + r * (1 - θ) * secondDifference top dz gb gs E i := by
    intro i hi
    rw [sub_of_level_gradient htop (hx.2 i (by omega))]
    ring
  calc trapezoid top dz X
      = trapezoid top dz E + trapezoid top dz (fun i => X i - E i) := by
        rw [← trapezoid_sub]
        ring
    _ = trapezoid top dz E + (r * θ * trapezoid top dz (secondDifference top dz gb gs X) +
          r * (1 - θ) * trapezoid top dz (secondDifference top dz gb gs E)) := by
        rw [trapezoid_congr hstep, trapezoid_add_mul]
    _ = trapezoid top dz E + r * dz ^ 2 * (gs - gb) := by
        rw [trapezoid_secondDifference htop, trapezoid_secondDifference htop]
        ring

/-- The mesh ratio times the square of a non-zero spacing is the diffusivity times the time
step. -/
theorem meshRatio_mul_sq
    (s : Conduction ℝ)
    (hdz : s.grid.spacing ≠ 0) :
    s.meshRatio * s.grid.spacing ^ 2 = s.diffusivity * s.dt := by
  unfold meshRatio
  field_simp

/-- In exact arithmetic, a step of a built solver with a heat flux through each end conserves
heat: the trapezoidal integral of the enthalpy changes by `α²·Δt·(F_s/K - F_b/K)`, and the
density times it by `Δt·(F_s - F_b)`, whatever the profile and the scheme, since `ρ·α²/K = 1`. -/
theorem solve_conserves_heat
    {g : Grid ℝ} {dt : ℝ} {p : Ice.Properties ℝ} {setup : Setup} {s : Conduction ℝ}
    (hbuild : build g dt p setup = .ok s)
    (e : Array ℝ) (Fb Fs : ℝ) :
    ∃ x, (({ s with enthalpy := e, phase := .ready none none } : Conduction ℝ).impose .base
          (.heatFlux Fb) >>= fun s₁ => s₁.impose .surface (.heatFlux Fs) >>= solve) =
        .ok (x, { s with enthalpy := x, phase := .idle }) ∧
      trapezoid (s.grid.levels - 1) s.grid.spacing (fun j => x.getD j 0) =
        trapezoid (s.grid.levels - 1) s.grid.spacing (fun j => e.getD j 0) +
          s.diffusivity * s.dt * (Fs / s.conductivity - Fb / s.conductivity) ∧
      p.density * trapezoid (s.grid.levels - 1) s.grid.spacing (fun j => x.getD j 0) =
        p.density * trapezoid (s.grid.levels - 1) s.grid.spacing (fun j => e.getD j 0) +
          dt * (Fs - Fb) := by
  obtain ⟨-, -, -, -, hdt, hD⟩ := fields_of_build hbuild
  obtain ⟨hpos, hcheck, hfine⟩ := fine_of_build hbuild
  obtain ⟨hk, hc, hρ⟩ := Ice.Properties.pos_of_check hcheck
  have hK := conductivity_of_build hbuild
  have hdz := (Grid.zero_lt_spacing_of_build hfine).ne'
  obtain ⟨x, hsolve, hx⟩ := exists_solve_ready s (hD ▸ (Ice.Properties.zero_lt_diffusivity hcheck).le)
    (hdt ▸ hpos.le) e (.gradient (Fb / s.conductivity)) (.gradient (Fs / s.conductivity))
  have hheat := trapezoid_of_advances _ hx
  rw [show ({ s with enthalpy := e } : Conduction ℝ).meshRatio = s.meshRatio from rfl,
    meshRatio_mul_sq s hdz] at hheat
  refine ⟨x, by rw [impose_bind_solve]; exact hsolve, hheat, ?_⟩
  rw [hheat, hD, hdt, hK]
  unfold Ice.Properties.diffusivity Ice.Properties.enthalpyConductivity
  field_simp

/-- A built Crank–Nicolson solver for polar ice on a 300 m column of four levels, refined twice,
one year per step, with heat coming in at the base and leaving at the surface. -/
theorem solve_conserves_heat_refined :
    ∃ (g : Grid ℝ) (s : Conduction ℝ), Grid.build 4 300 = .ok g ∧
      build g 3.15e7 Ice.Properties.standard ⟨.crankNicolson, 2⟩ = .ok s ∧
      ∃ x, (({ s with enthalpy := #[1, 2, 4, 8, 16, 32, 64], phase := .ready none none } :
            Conduction ℝ).impose .base (.heatFlux 0.05) >>=
            fun s₁ => s₁.impose .surface (.heatFlux (-0.03)) >>= solve) =
          .ok (x, { s with enthalpy := x, phase := .idle }) ∧
        trapezoid (s.grid.levels - 1) s.grid.spacing (fun j => x.getD j 0) =
          trapezoid (s.grid.levels - 1) s.grid.spacing
              (fun j => (#[1, 2, 4, 8, 16, 32, 64] : Array ℝ).getD j 0) +
            s.diffusivity * s.dt * (-0.03 / s.conductivity - 0.05 / s.conductivity) ∧
        Ice.Properties.standard.density *
            trapezoid (s.grid.levels - 1) s.grid.spacing (fun j => x.getD j 0) =
          Ice.Properties.standard.density * trapezoid (s.grid.levels - 1) s.grid.spacing
              (fun j => (#[1, 2, 4, 8, 16, 32, 64] : Array ℝ).getD j 0) +
            3.15e7 * (-0.03 - 0.05) := by
  obtain ⟨g, hg⟩ := Grid.build_eq_ok (n := 4) (H := 300) (by decide) (by norm_num)
  obtain ⟨s, hs⟩ :=
    build_standard_eq_ok hg (by norm_num : (0 : ℝ) < 3.15e7) ⟨.crankNicolson, 2⟩ (by decide)
  exact ⟨g, s, hg, hs, solve_conserves_heat hs #[1, 2, 4, 8, 16, 32, 64] 0.05 (-0.03)⟩

end Conduction
end IceEnthalpy
