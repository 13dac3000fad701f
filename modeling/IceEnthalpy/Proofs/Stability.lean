import IceEnthalpy.Proofs.ThetaStep

/-!
# Stability of a step in the maximum norm

Two profiles stepped with the same edges differ, after the step, by a vector that satisfies the
step's equations from their difference with the data of the edges taken away: a value edge holds
the difference at zero, and a gradient edge mirrors it across the end.  At a level where that
difference is largest in magnitude, the level's equation

  `(1 + 2rθ)·w = rθ·(w_{i-1} + w_{i+1}) + (1 - 2r(1-θ))·d_i + r(1-θ)·(d_{i-1} + d_{i+1})`

bounds it by the largest difference before the step, as long as every weight on the right is
non-negative, that is `2r·(1-θ) ≤ 1`.

Main statement: in exact arithmetic, a backward Euler step never increases the largest
difference between two profiles, whatever the mesh ratio `r`, and a Crank–Nicolson step does not
either when `r ≤ 1`.
-/

namespace IceEnthalpy

/-- An edge with its datum taken away: the condition that two solutions with the same edge leave
on their difference. -/
def Edge.homogeneous : Edge ℝ → Edge ℝ
  | .value _ => .value 0
  | .gradient _ => .gradient 0

namespace Conduction

section Equations

variable {top : Nat} {dz r θ : ℝ} {base surface : Edge ℝ} {e f x y : Nat → ℝ}

/-- The difference of two steps with the same edges is a step of the difference with the edges'
data taken away. -/
theorem level_sub
    {i : Nat}
    (hx : Level top dz r θ base surface e x i)
    (hy : Level top dz r θ base surface f y i) :
    Level top dz r θ base.homogeneous surface.homogeneous (fun j => e j - f j)
      (fun j => x j - y j) i := by
  unfold Level at hx hy ⊢
  split_ifs at hx hy ⊢ with h0 hlast
  · cases base <;> simp only [Edge.homogeneous, Balanced] at hx hy ⊢ <;>
      linear_combination hx - hy
  · cases surface <;> simp only [Edge.homogeneous, Balanced] at hx hy ⊢ <;>
      linear_combination hx - hy
  · simp only [Balanced] at hx hy ⊢
    linear_combination hx - hy

/-- A level whose neighbours after the step are no larger than itself is bounded by the largest
value before the step, when the weight `1 - 2r(1-θ)` of its own old value is not negative. -/
theorem abs_le_of_balanced
    (hr : 0 ≤ r) (hθ : 0 ≤ θ) (hθ' : θ ≤ 1) (hweight : 2 * r * (1 - θ) ≤ 1)
    {dBelow d dAbove wBelow w wAbove M : ℝ}
    (hBelow : |wBelow| ≤ |w|) (hAbove : |wAbove| ≤ |w|)
    (hdBelow : |dBelow| ≤ M) (hd : |d| ≤ M) (hdAbove : |dAbove| ≤ M)
    (h : Balanced r θ dBelow d dAbove wBelow w wAbove) :
    |w| ≤ M := by
  have hexplicit : 0 ≤ r * (1 - θ) := mul_nonneg hr (by linarith)
  have hown : 0 ≤ 1 - 2 * r * (1 - θ) := by linarith
  have hsolve : (1 + 2 * r * θ) * w = r * θ * (wBelow + wAbove) + (1 - 2 * r * (1 - θ)) * d +
      r * (1 - θ) * (dBelow + dAbove) := by
    unfold Balanced at h
    linear_combination h
  have hbound : (1 + 2 * r * θ) * |w| ≤ 2 * r * θ * |w| + M := by
    calc (1 + 2 * r * θ) * |w|
        = |r * θ * (wBelow + wAbove) + (1 - 2 * r * (1 - θ)) * d +
            r * (1 - θ) * (dBelow + dAbove)| := by
          rw [← hsolve, abs_mul, abs_of_nonneg (by positivity : 0 ≤ 1 + 2 * r * θ)]
      _ ≤ r * θ * (|wBelow| + |wAbove|) + (1 - 2 * r * (1 - θ)) * |d| +
            r * (1 - θ) * (|dBelow| + |dAbove|) := by
          refine (abs_add_three _ _ _).trans ?_
          rw [abs_mul (r * θ), abs_mul (1 - 2 * r * (1 - θ)), abs_mul (r * (1 - θ)),
            abs_of_nonneg (mul_nonneg hr hθ), abs_of_nonneg hown, abs_of_nonneg hexplicit]
          gcongr <;> exact abs_add_le _ _
      _ ≤ r * θ * (|w| + |w|) + (1 - 2 * r * (1 - θ)) * M + r * (1 - θ) * (M + M) := by
          have := mul_nonneg hr hθ
          gcongr
      _ = 2 * r * θ * |w| + M := by ring
  linarith

/-- The maximum principle of a step whose edges carry no data: after the step, no level exceeds
in magnitude the largest value before it, as the equation of the largest level bounds it. -/
theorem abs_le_of_homogeneous
    (hr : 0 ≤ r) (hθ : 0 ≤ θ) (hθ' : θ ≤ 1) (hweight : 2 * r * (1 - θ) ≤ 1)
    (htop : 0 < top)
    {d w : Nat → ℝ} {M : ℝ}
    (hstep : ∀ i ≤ top, Level top dz r θ base.homogeneous surface.homogeneous d w i)
    (hd : ∀ j ≤ top, |d j| ≤ M) :
    ∀ i ≤ top, |w i| ≤ M := by
  obtain ⟨k, hk, hlargest⟩ :=
    Finset.exists_max_image (Finset.range (top + 1)) (fun i => |w i|) ⟨0, by simp⟩
  rw [Finset.mem_range] at hk
  have hmax : ∀ j ≤ top, |w j| ≤ |w k| := fun j hj => hlargest j (by simp; omega)
  have hwk : |w k| ≤ M := by
    have h := hstep k (by omega)
    unfold Level at h
    split_ifs at h with h0 hlast
    · subst h0
      cases base with
      | value v =>
          simp only [Edge.homogeneous] at h
          rw [h, abs_zero]
          exact (abs_nonneg _).trans (hd 0 (Nat.zero_le _))
      | gradient g =>
          simp only [Edge.homogeneous, mul_zero, sub_zero] at h
          exact abs_le_of_balanced hr hθ hθ' hweight (hmax 1 htop) (hmax 1 htop) (hd 1 htop)
            (hd 0 (Nat.zero_le _)) (hd 1 htop) h
    · subst hlast
      cases surface with
      | value v =>
          simp only [Edge.homogeneous] at h
          rw [h, abs_zero]
          exact (abs_nonneg _).trans (hd k le_rfl)
      | gradient g =>
          simp only [Edge.homogeneous, mul_zero, add_zero] at h
          exact abs_le_of_balanced hr hθ hθ' hweight (hmax (k - 1) (by omega))
            (hmax (k - 1) (by omega)) (hd (k - 1) (by omega)) (hd k le_rfl)
            (hd (k - 1) (by omega)) h
    · exact abs_le_of_balanced hr hθ hθ' hweight (hmax (k - 1) (by omega))
        (hmax (k + 1) (by omega)) (hd (k - 1) (by omega)) (hd k (by omega))
        (hd (k + 1) (by omega)) h
  intro i hi
  exact (hmax i hi).trans hwk

end Equations

/-- The weight of a level's own old value is not negative: always for backward Euler, and for
Crank–Nicolson when the mesh ratio is at most one. -/
theorem explicit_weight_le
    (s : Conduction ℝ)
    (hcfl : s.scheme = .crankNicolson → s.meshRatio ≤ 1) :
    2 * s.meshRatio * (1 - s.scheme.theta) ≤ 1 := by
  cases hscheme : s.scheme with
  | backwardEuler => norm_num [Scheme.theta]
  | crankNicolson =>
      have := hcfl hscheme
      norm_num [Scheme.theta]
      linarith

/-- Two profiles stepped with the same edges end no further apart, level by level, than the
largest distance between them before the step. -/
theorem abs_sub_le_of_advances
    (s : Conduction ℝ)
    (hr : 0 ≤ s.meshRatio)
    (hcfl : s.scheme = .crankNicolson → s.meshRatio ≤ 1)
    {e f x y : Array ℝ} {base surface : Edge ℝ}
    (hx : ({ s with enthalpy := e } : Conduction ℝ).Advances base surface x)
    (hy : ({ s with enthalpy := f } : Conduction ℝ).Advances base surface y)
    {M : ℝ}
    (hd : ∀ j < s.grid.levels, |e.getD j 0 - f.getD j 0| ≤ M) :
    ∀ i < s.grid.levels, |x.getD i 0 - y.getD i 0| ≤ M := by
  have htop : 0 < s.grid.levels - 1 := by
    have := s.grid.two_le_size
    unfold Grid.levels
    omega
  obtain ⟨hθ, hθ'⟩ := Scheme.theta_mem s.scheme
  have hbound := abs_le_of_homogeneous hr hθ hθ' (explicit_weight_le s hcfl) htop
    (fun i hi => level_sub (hx.2 i (show i < s.grid.levels by omega))
      (hy.2 i (show i < s.grid.levels by omega)))
    (fun j hj => hd j (by omega))
  intro i hi
  exact hbound i (by omega)

/-- In exact arithmetic, two profiles solved with the same edges come out no further apart in
the maximum norm than they went in: with backward Euler at every mesh ratio, with
Crank–Nicolson when the mesh ratio `α²·Δt/Δz²` is at most one. -/
theorem solve_max_gap_le
    (s : Conduction ℝ)
    (hD : 0 ≤ s.diffusivity)
    (hdt : 0 ≤ s.dt)
    (hcfl : s.scheme = .crankNicolson → s.meshRatio ≤ 1)
    (e f : Array ℝ) (base surface : Edge ℝ) :
    ∃ x y,
      ({ s with enthalpy := e, phase := .ready (some base) (some surface) } : Conduction ℝ).solve =
        .ok (x, { s with enthalpy := x, phase := .idle }) ∧
      ({ s with enthalpy := f, phase := .ready (some base) (some surface) } : Conduction ℝ).solve =
        .ok (y, { s with enthalpy := y, phase := .idle }) ∧
      ⨆ i : Fin s.grid.levels, |x.getD i 0 - y.getD i 0| ≤
        ⨆ i : Fin s.grid.levels, |e.getD i 0 - f.getD i 0| := by
  obtain ⟨x, hsolve, hx⟩ := exists_solve_ready s hD hdt e base surface
  obtain ⟨y, hsolve', hy⟩ := exists_solve_ready s hD hdt f base surface
  refine ⟨x, y, hsolve, hsolve', ?_⟩
  have hne : Nonempty (Fin s.grid.levels) := by
    have := s.grid.two_le_size
    exact ⟨⟨0, by unfold Grid.levels; omega⟩⟩
  have hbdd : BddAbove (Set.range fun i : Fin s.grid.levels => |e.getD i 0 - f.getD i 0|) :=
    (Set.finite_range _).bddAbove
  have hbound := abs_sub_le_of_advances s (s.meshRatio_nonneg hD hdt) hcfl hx hy
    (fun j hj => le_ciSup hbdd ⟨j, hj⟩)
  exact ciSup_le fun i => hbound i i.isLt

/-- A Crank–Nicolson solver for polar ice on four levels spanning 300 m, one year per step, has a
mesh ratio below one, and two profiles solved with a fixed base and a gradient at the surface
come out no further apart than they went in. -/
theorem solve_max_gap_le_polar :
    ∃ (g : Grid ℝ) (s : Conduction ℝ), Grid.build 4 300 = .ok g ∧
      build g 3.15e7 Ice.Properties.standard ⟨.crankNicolson, 1⟩ = .ok s ∧
      0 ≤ s.diffusivity ∧ 0 ≤ s.dt ∧ (s.scheme = .crankNicolson → s.meshRatio ≤ 1) ∧
      ∃ x y,
        ({ s with enthalpy := #[1, 2, 4, 8], phase := .ready (some (.value 1)) (some (.gradient 0.05)) } :
            Conduction ℝ).solve = .ok (x, { s with enthalpy := x, phase := .idle }) ∧
        ({ s with enthalpy := #[0, 3, 3, 9], phase := .ready (some (.value 1)) (some (.gradient 0.05)) } :
            Conduction ℝ).solve = .ok (y, { s with enthalpy := y, phase := .idle }) ∧
        ⨆ i : Fin s.grid.levels, |x.getD i 0 - y.getD i 0| ≤
          ⨆ i : Fin s.grid.levels, |(#[1, 2, 4, 8] : Array ℝ).getD i 0 - (#[0, 3, 3, 9] : Array ℝ).getD i 0| := by
  obtain ⟨g, hg⟩ := Grid.build_eq_ok (n := 4) (H := 300) (by decide) (by norm_num)
  obtain ⟨s, hs⟩ :=
    build_standard_eq_ok hg (by norm_num : (0 : ℝ) < 3.15e7) ⟨.crankNicolson, 1⟩ (by decide)
  obtain ⟨hdt, hD⟩ := zero_lt_of_build hs
  obtain ⟨-, -, -, -, hdt', hD'⟩ := fields_of_build hs
  obtain ⟨-, -, hfine⟩ := fine_of_build hs
  rw [Grid.levels_of_build hg, Grid.height_of_build hg, fineLevels_one (by norm_num)] at hfine
  have hratio : s.meshRatio ≤ 1 := by
    rw [meshRatio, Grid.spacing_of_build hfine, hdt', hD']
    norm_num [Ice.Properties.diffusivity, Ice.Properties.standard]
  exact ⟨g, s, hg, hs, hD.le, hdt.le, fun _ => hratio,
    solve_max_gap_le s hD.le hdt.le (fun _ => hratio) #[1, 2, 4, 8] #[0, 3, 3, 9] (.value 1)
      (.gradient 0.05)⟩

end Conduction
end IceEnthalpy
