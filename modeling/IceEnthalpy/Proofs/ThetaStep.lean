import IceEnthalpy.Proofs.Failures

/-!
# What a step of the θ-scheme computes

A solve assembles a tridiagonal system, patches its first and last rows for the edges and hands
it to the Thomas algorithm.  This module says, without the rows, what comes out.  With the mesh
ratio `r = α²·Δt/Δz²`, the change of level `i` over a step is `r` times the second difference,
weighted `θ` at the new time level and `1 - θ` at the old:

  `x_i - e_i = r·(θ·(x_{i-1} - 2x_i + x_{i+1}) + (1-θ)·(e_{i-1} - 2e_i + e_{i+1}))`.

A value edge fixes its level.  A gradient edge `g` keeps the equation at its level, with a ghost
level beyond the end mirrored from the level inside it: `x_{-1} = x_1 - 2Δz·g` at the base and
`x_n = x_{n-2} + 2Δz·g` at the surface, and the same for the stored profile.

Main statement: in exact arithmetic a solve that holds both edges returns the one vector that
satisfies these equations, and keeps it as its profile.  Each patched row is its level's equation
multiplied out, so the system says exactly what the equations say; its diagonal dominates, so the
Thomas algorithm returns a solution, and any solution is the one it returns.
-/

namespace IceEnthalpy
namespace Conduction

/-- The θ-scheme at one level: the change from `e` to `x` is `r` times the second difference,
weighted `θ` at the new time level and `1 - θ` at the old.  The neighbours below and above are
passed in, so that a ghost level can stand in for one of them at an end. -/
def Balanced (r θ eBelow e eAbove xBelow x xAbove : ℝ) : Prop :=
  x - e = r * (θ * (xBelow - 2 * x + xAbove) + (1 - θ) * (eBelow - 2 * e + eAbove))

/-- The equation of level `i` of a step on the levels `0, …, top`, from the profile `e` to `x`:
the base edge at level `0`, the surface edge at level `top`, the θ-scheme in between.  A gradient
edge `g` puts a ghost level `2·Δz·g` below the level inside the base, or above the level inside
the surface. -/
def Level (top : Nat) (dz r θ : ℝ) (base surface : Edge ℝ) (e x : Nat → ℝ) (i : Nat) : Prop :=
  if i = 0 then
    match base with
    | .value v => x 0 = v
    | .gradient g => Balanced r θ (e 1 - 2 * dz * g) (e 0) (e 1) (x 1 - 2 * dz * g) (x 0) (x 1)
  else if i = top then
    match surface with
    | .value v => x top = v
    | .gradient g =>
      Balanced r θ (e (top - 1)) (e top) (e (top - 1) + 2 * dz * g)
        (x (top - 1)) (x top) (x (top - 1) + 2 * dz * g)
  else Balanced r θ (e (i - 1)) (e i) (e (i + 1)) (x (i - 1)) (x i) (x (i + 1))

/-- `x` advances the solver's profile by one θ-step between the edges `base` and `surface`: it
has one value per level of the solver's grid and satisfies every level's equation, with the
grid's spacing `Δz`, the mesh ratio `r = α²·Δt/Δz²` and the scheme's weight `θ`. -/
def Advances (s : Conduction ℝ) (base surface : Edge ℝ) (x : Array ℝ) : Prop :=
  x.size = s.grid.levels ∧
    ∀ i < s.grid.levels, Level (s.grid.levels - 1) s.grid.spacing s.meshRatio s.scheme.theta
      base surface (fun j => s.enthalpy.getD j 0) (fun j => x.getD j 0) i

section Equations

variable {top : Nat} {dz r θ : ℝ} {base surface : Edge ℝ} {e x e' x' : Nat → ℝ}

/-- The θ-scheme at a level does not tell its neighbours below from those above. -/
theorem balanced_comm
    {eBelow e eAbove xBelow x xAbove : ℝ} :
    Balanced r θ eBelow e eAbove xBelow x xAbove ↔ Balanced r θ eAbove e eBelow xAbove x xBelow := by
  unfold Balanced
  constructor <;> intro h <;> linear_combination h

/-- The equation of a level reads the profiles at the levels `0, …, top` only. -/
theorem level_congr
    (htop : 0 < top)
    (he : ∀ j ≤ top, e j = e' j)
    (hx : ∀ j ≤ top, x j = x' j)
    {i : Nat}
    (hi : i ≤ top) :
    Level top dz r θ base surface e x i ↔ Level top dz r θ base surface e' x' i := by
  unfold Level
  split_ifs with h0 hlast
  · cases base <;> simp (disch := omega) only [he, hx]
  · cases surface <;> simp (disch := omega) only [he, hx]
  · simp (disch := omega) only [he, hx]

/-- The θ-scheme on a mode of the second difference: when the neighbours of `e` add up to
`2c·e`, the step multiplies `e` by the factor `G` with `G·(1 + 2rθ·(1-c)) = 1 - 2r(1-θ)·(1-c)`. -/
theorem balanced_mode
    {r θ c G eBelow e eAbove : ℝ}
    (hsum : eBelow + eAbove = 2 * c * e)
    (hG : G * (1 + 2 * (r * θ) * (1 - c)) = 1 - 2 * (r * (1 - θ)) * (1 - c)) :
    Balanced r θ eBelow e eAbove (G * eBelow) (G * e) (G * eAbove) := by
  unfold Balanced
  linear_combination (-(r * θ * G + r * (1 - θ))) * hsum + e * hG

/-- A level whose neighbours have no second difference is its own step. -/
theorem balanced_flat
    {r θ eBelow e eAbove : ℝ}
    (hsum : eBelow + eAbove = 2 * e) :
    Balanced r θ eBelow e eAbove eBelow e eAbove := by
  simpa using balanced_mode (r := r) (θ := θ) (c := 1) (G := 1) (by linarith) (by ring)

end Equations

section Rows

variable {n : Nat} {dz r θ : ℝ} {e x : Nat → ℝ} {base surface : Edge ℝ}

/-- Row `i` of the system of a step on `n ≥ 2` levels holds at `x`, nothing standing below the
first row or above the last, exactly when level `i`'s equation holds. -/
theorem row_holds_iff_level
    (hn : 2 ≤ n)
    {i : Nat}
    (hi : i < n) :
    (row (n - 1) dz (r * θ) (r * (1 - θ)) e base surface i).lower *
          (if i = 0 then 0 else x (i - 1)) +
        (row (n - 1) dz (r * θ) (r * (1 - θ)) e base surface i).diag * x i +
        (if i + 1 < n then (row (n - 1) dz (r * θ) (r * (1 - θ)) e base surface i).upper * x (i + 1)
          else 0) =
      (row (n - 1) dz (r * θ) (r * (1 - θ)) e base surface i).rhs ↔
    Level (n - 1) dz r θ base surface e x i := by
  by_cases h0 : i = 0
  · subst h0
    have hup : 0 + 1 < n := by omega
    cases base with
    | value v =>
        rw [row_base_value (by omega)]
        simp [Level, hup]
    | gradient g =>
        rw [row_base_gradient (by omega)]
        simp only [Level, Balanced, ↓reduceIte, hup, mul_zero, zero_add]
        constructor <;> intro h <;> linear_combination h
  · by_cases hlast : i = n - 1
    · subst hlast
      have hno : ¬(n - 1 + 1 < n) := by omega
      cases surface with
      | value v =>
          rw [row_surface_value h0]
          simp [Level, h0, hno]
      | gradient g =>
          rw [row_surface_gradient h0]
          simp only [Level, Balanced, h0, hno, ↓reduceIte, add_zero]
          constructor <;> intro h <;> linear_combination h
    · have hup : i + 1 < n := by omega
      rw [row_interior h0 hlast]
      simp only [Level, Balanced, h0, hlast, hup, ↓reduceIte]
      constructor <;> intro h <;> linear_combination h

end Rows

/-- A vector satisfies the rows of a step exactly when it advances the profile by that step. -/
theorem solves_system_iff_advances
    (s : Conduction ℝ) (base surface : Edge ℝ) (x : Array ℝ) :
    Tridiagonal.Solves 0 (s.system base surface) x.toList ↔ s.Advances base surface x := by
  have hn : 2 ≤ s.grid.levels := s.grid.two_le_size
  have hrow : ∀ i (hi : i < (s.system base surface).length),
      (s.system base surface)[i].lower * (if i = 0 then 0 else x.toList.getD (i - 1) 0) +
          (s.system base surface)[i].diag * x.toList.getD i 0 +
          (if i + 1 < (s.system base surface).length then
            (s.system base surface)[i].upper * x.toList.getD (i + 1) 0
          else 0) =
        (s.system base surface)[i].rhs ↔
      Level (s.grid.levels - 1) s.grid.spacing s.meshRatio s.scheme.theta base surface
        (fun j => s.enthalpy.getD j 0) (fun j => x.getD j 0) i := by
    intro i hi
    rw [length_system] at hi
    simp only [getElem_system, length_system, List.getD_eq_getElem?_getD, Array.getElem?_toList,
      ← Array.getD_eq_getD_getElem?]
    exact row_holds_iff_level (x := fun j => x.getD j 0) hn hi
  constructor
  · intro h
    have hsize : x.size = s.grid.levels := by
      simpa using Tridiagonal.length_of_solves h
    refine ⟨hsize, fun i hi => ?_⟩
    have hi' : i < (s.system base surface).length := by rwa [length_system]
    exact (hrow i hi').mp (Tridiagonal.getD_of_solves h i hi')
  · rintro ⟨hsize, hlevels⟩
    refine (Tridiagonal.solves_iff_getD (by simpa using hsize)).mpr fun i hi => ?_
    exact (hrow i hi).mpr (hlevels i (by rwa [length_system] at hi))

/-- In exact arithmetic, a solve that holds both edges returns `x` exactly when `x` advances the
profile between them, and then leaves an idle solver holding `x`. -/
theorem solve_eq_ok_iff_advances
    (s : Conduction ℝ) {base surface : Edge ℝ}
    (hD : 0 ≤ s.diffusivity)
    (hdt : 0 ≤ s.dt)
    (hphase : s.phase = .ready (some base) (some surface))
    {x : Array ℝ} {next : Conduction ℝ} :
    s.solve = .ok (x, next) ↔
      s.Advances base surface x ∧ next = { s with enthalpy := x, phase := .idle } := by
  have hdom := s.system_dominant base surface (s.meshRatio_nonneg hD hdt)
  constructor
  · intro h
    obtain ⟨base', surface', xs, hph, hxs, rfl, rfl⟩ := s.solve_eq_ok h
    rw [hphase, Phase.ready.injEq, Option.some.injEq, Option.some.injEq] at hph
    obtain ⟨rfl, rfl⟩ := hph
    refine ⟨?_, rfl⟩
    rw [← solves_system_iff_advances, List.toList_toArray]
    exact Tridiagonal.solves_of_solve hxs
  · rintro ⟨hx, rfl⟩
    have hsolve := (Tridiagonal.solve_eq_ok_iff hdom).mpr
      ((s.solves_system_iff_advances base surface x).mpr hx)
    simp only [solve, hphase, hsolve, Array.toArray_toList]

/-- The same, for a solver given a profile and both edges. -/
theorem solve_ready_eq_ok_iff
    (s : Conduction ℝ)
    (hD : 0 ≤ s.diffusivity)
    (hdt : 0 ≤ s.dt)
    {e x : Array ℝ} {base surface : Edge ℝ} :
    ({ s with enthalpy := e, phase := .ready (some base) (some surface) } : Conduction ℝ).solve =
        .ok (x, { s with enthalpy := x, phase := .idle }) ↔
      ({ s with enthalpy := e } : Conduction ℝ).Advances base surface x := by
  rw [solve_eq_ok_iff_advances { s with enthalpy := e, phase := .ready (some base) (some surface) }
    hD hdt rfl]
  exact ⟨fun h => h.1, fun h => ⟨h, rfl⟩⟩

/-- In exact arithmetic, a solver given a profile and both edges returns a vector that advances
the profile. -/
theorem exists_solve_ready
    (s : Conduction ℝ)
    (hD : 0 ≤ s.diffusivity)
    (hdt : 0 ≤ s.dt)
    (e : Array ℝ) (base surface : Edge ℝ) :
    ∃ x, ({ s with enthalpy := e, phase := .ready (some base) (some surface) } :
        Conduction ℝ).solve = .ok (x, { s with enthalpy := x, phase := .idle }) ∧
      ({ s with enthalpy := e } : Conduction ℝ).Advances base surface x := by
  let s₁ : Conduction ℝ := { s with enthalpy := e, phase := .ready (some base) (some surface) }
  obtain ⟨x, next, hsolve⟩ := solve_ok_of_ready s₁ hD hdt rfl
  obtain ⟨hx, rfl⟩ := (solve_eq_ok_iff_advances s₁ hD hdt rfl).mp hsolve
  exact ⟨x, hsolve, hx⟩

/-- In exact arithmetic, a solve that holds both edges returns the one vector that advances the
stored profile by a θ-step between them, and keeps it as the profile of an idle solver. -/
theorem solve_eq_unique_advance
    (s : Conduction ℝ) {base surface : Edge ℝ}
    (hD : 0 ≤ s.diffusivity)
    (hdt : 0 ≤ s.dt)
    (hphase : s.phase = .ready (some base) (some surface)) :
    ∃ x, s.solve = .ok (x, { s with enthalpy := x, phase := .idle }) ∧
      ∀ y, s.Advances base surface y ↔ y = x := by
  obtain ⟨x, next, hsolve⟩ := solve_ok_of_ready s hD hdt hphase
  obtain ⟨hx, rfl⟩ := (s.solve_eq_ok_iff_advances hD hdt hphase).mp hsolve
  refine ⟨x, hsolve, fun y => ⟨fun hy => ?_, fun hyx => hyx ▸ hx⟩⟩
  have hy' := (s.solve_eq_ok_iff_advances hD hdt hphase).mpr ⟨hy, rfl⟩
  rw [hsolve, Except.ok.injEq, Prod.mk.injEq] at hy'
  exact hy'.1.symm

/-- A Crank–Nicolson solver for polar ice on four levels spanning 300 m, one year per step,
holding a fixed base and a gradient at the surface, returns the one θ-step of its profile. -/
theorem solve_eq_unique_advance_four :
    ∃ (g : Grid ℝ) (s₀ : Conduction ℝ), Grid.build 4 300 = .ok g ∧
      build g 3.15e7 Ice.Properties.standard ⟨.crankNicolson, 1⟩ = .ok s₀ ∧
      let s : Conduction ℝ :=
        { s₀ with
          enthalpy := #[1, 2, 4, 8]
          phase := .ready (some (.value 1)) (some (.gradient 0.05)) }
      0 ≤ s.diffusivity ∧ 0 ≤ s.dt ∧ s.phase = .ready (some (.value 1)) (some (.gradient 0.05)) ∧
        ∃ x, s.solve = .ok (x, { s with enthalpy := x, phase := .idle }) ∧
          ∀ y, s.Advances (.value 1) (.gradient 0.05) y ↔ y = x := by
  obtain ⟨g, hg⟩ := Grid.build_eq_ok (n := 4) (H := 300) (by decide) (by norm_num)
  obtain ⟨s₀, hs₀⟩ :=
    build_standard_eq_ok hg (by norm_num : (0 : ℝ) < 3.15e7) ⟨.crankNicolson, 1⟩ (by decide)
  obtain ⟨hdt, hD⟩ := zero_lt_of_build hs₀
  refine ⟨g, s₀, hg, hs₀, hD.le, hdt.le, rfl, ?_⟩
  exact solve_eq_unique_advance
    { s₀ with
      enthalpy := #[1, 2, 4, 8]
      phase := .ready (some (.value 1)) (some (.gradient 0.05)) } hD.le hdt.le rfl

end Conduction
end IceEnthalpy
