import IceEnthalpy.Proofs.ThetaStep

/-!
# Reflection of a step

Turning a column upside down maps level `i` of `n` to level `n - 1 - i`, exchanges the base and
the surface, and reverses the sign of every gradient.  The θ-scheme does not see the difference:
the interior equations are symmetric in the neighbours below and above, and the ghost level of a
gradient `g` at the base, `2·Δz·g` below the level inside, is the ghost level of the gradient
`-g` at the surface of the reflected column.

Main statement: in exact arithmetic, a solve from a profile with the edges `(B, S)` returns `x`
exactly when the solve from the reversed profile with the edges `(mirror S, mirror B)` returns
the reversed `x`.  The two edges are assembled by separate rows and the Thomas algorithm
eliminates from the base upwards, so the symmetry is one of the equations, not of the code:
both solves return the solutions of their equations, and reflection maps the one set of
equations onto the other.
-/

namespace IceEnthalpy

/-- An edge as it reads from the other end of the column: a value stays, and a gradient changes
sign, the heights running the other way. -/
def Edge.mirror {α : Type} [Neg α] : Edge α → Edge α
  | .value v => .value v
  | .gradient g => .gradient (-g)

namespace Conduction

section Equations

variable {top : Nat} {dz r θ : ℝ} {base surface : Edge ℝ} {e x : Nat → ℝ}

/-- Level `i` of a step is level `top - i` of the reflected step: the profiles read from the
top, the edges exchanged and mirrored. -/
theorem level_reflect
    (htop : 0 < top)
    {i : Nat}
    (hi : i ≤ top) :
    Level top dz r θ base surface e x i ↔
      Level top dz r θ surface.mirror base.mirror (fun j => e (top - j)) (fun j => x (top - j))
        (top - i) := by
  by_cases h0 : i = 0
  · subst h0
    have hinner : top - (top - 1) = 1 := by omega
    cases base with
    | value v =>
        simp [Level, Edge.mirror, htop.ne']
    | gradient g =>
        simp only [Level, Balanced, Edge.mirror, ↓reduceIte, Nat.sub_zero, Nat.sub_self,
          htop.ne', hinner]
        constructor <;> intro h <;> linear_combination h
  · by_cases hlast : i = top
    · subst hlast
      cases surface with
      | value v =>
          simp [Level, Edge.mirror, h0]
      | gradient g =>
          simp only [Level, Balanced, Edge.mirror, ↓reduceIte, Nat.sub_self, Nat.sub_zero, h0]
          constructor <;> intro h <;> linear_combination h
    · have hbelow : top - (top - i - 1) = i + 1 := by omega
      have habove : top - (top - i + 1) = i - 1 := by omega
      have hmid : top - (top - i) = i := by omega
      unfold Level
      rw [if_neg h0, if_neg hlast, if_neg (by omega : top - i ≠ 0),
        if_neg (by omega : top - i ≠ top)]
      dsimp only
      rw [hbelow, habove, hmid]
      exact balanced_comm

end Equations

/-- Read at a level below its size, a reversed array is the array read from the other end. -/
theorem getD_reverse
    {a : Array ℝ} {j : Nat}
    (hj : j < a.size) :
    a.reverse.getD j 0 = a.getD (a.size - 1 - j) 0 := by
  rw [getD_of_lt _ _ (by simpa using hj), getD_of_lt _ _ (by omega), Array.getElem_reverse]

/-- A vector advances a profile between the edges `(B, S)` exactly when its reversal advances
the reversed profile between `(mirror S, mirror B)`: level `i` of the reflected step is level
`top - i` of the step. -/
theorem advances_reflect
    (s : Conduction ℝ) {base surface : Edge ℝ} {e x : Array ℝ}
    (he : e.size = s.grid.levels) :
    ({ s with enthalpy := e } : Conduction ℝ).Advances base surface x ↔
      ({ s with enthalpy := e.reverse } : Conduction ℝ).Advances surface.mirror base.mirror
        x.reverse := by
  have hn : 2 ≤ s.grid.levels := s.grid.two_le_size
  unfold Advances
  simp only [Array.size_reverse]
  refine and_congr_right fun hx => ?_
  have hlevel : ∀ i ≤ s.grid.levels - 1,
      Level (s.grid.levels - 1) s.grid.spacing s.meshRatio s.scheme.theta surface.mirror
          base.mirror (fun j => e.reverse.getD j 0) (fun j => x.reverse.getD j 0) i ↔
        Level (s.grid.levels - 1) s.grid.spacing s.meshRatio s.scheme.theta base surface
          (fun j => e.getD j 0) (fun j => x.getD j 0) (s.grid.levels - 1 - i) := by
    intro i hi
    rw [level_reflect (by omega) (Nat.sub_le _ i), Nat.sub_sub_self hi]
    exact level_congr (by omega) (fun j hj => by rw [getD_reverse (by omega), he])
      (fun j hj => by rw [getD_reverse (by omega), hx]) hi
  constructor
  · intro h i hi
    exact (hlevel i (by omega)).mpr (h _ (by omega))
  · intro h i hi
    have hreflected := (hlevel (s.grid.levels - 1 - i) (by omega)).mp (h _ (by omega))
    rwa [Nat.sub_sub_self (by omega)] at hreflected

/-- In exact arithmetic, solving from a profile with the edges `(B, S)` yields `x` exactly when
solving from the reversed profile with the edges `(mirror S, mirror B)` yields the reversed
`x`: the treatments of the base and of the surface are mirror images. -/
theorem solve_reflect
    (s : Conduction ℝ)
    (hD : 0 ≤ s.diffusivity)
    (hdt : 0 ≤ s.dt)
    {e x : Array ℝ}
    (he : e.size = s.grid.levels)
    (base surface : Edge ℝ) :
    ({ s with enthalpy := e, phase := .ready (some base) (some surface) } : Conduction ℝ).solve =
        .ok (x, { s with enthalpy := x, phase := .idle }) ↔
      ({ s with enthalpy := e.reverse, phase := .ready (some surface.mirror) (some base.mirror) } :
        Conduction ℝ).solve = .ok (x.reverse, { s with enthalpy := x.reverse, phase := .idle }) := by
  rw [solve_ready_eq_ok_iff s hD hdt, solve_ready_eq_ok_iff s hD hdt]
  exact advances_reflect s he

/-- Reflecting a Crank–Nicolson step for polar ice on five levels spanning 400 m, one year per
step, with a fixed base and a gradient at the surface. -/
theorem solve_reflect_five :
    ∃ (g : Grid ℝ) (s₀ : Conduction ℝ), Grid.build 5 400 = .ok g ∧
      build g 3.15e7 Ice.Properties.standard ⟨.crankNicolson, 1⟩ = .ok s₀ ∧
      0 ≤ s₀.diffusivity ∧ 0 ≤ s₀.dt ∧ (#[1, 2, 4, 8, 16] : Array ℝ).size = s₀.grid.levels ∧
      (({ s₀ with
          enthalpy := #[1, 2, 4, 8, 16]
          phase := .ready (some (.value 1)) (some (.gradient 0.05)) } : Conduction ℝ).solve =
          .ok (#[1, 2, 3, 4, 5], { s₀ with enthalpy := #[1, 2, 3, 4, 5], phase := .idle }) ↔
        ({ s₀ with
            enthalpy := (#[1, 2, 4, 8, 16] : Array ℝ).reverse
            phase := .ready (some (Edge.gradient 0.05).mirror) (some (Edge.value 1).mirror) } :
          Conduction ℝ).solve =
          .ok ((#[1, 2, 3, 4, 5] : Array ℝ).reverse,
            { s₀ with enthalpy := (#[1, 2, 3, 4, 5] : Array ℝ).reverse, phase := .idle })) := by
  obtain ⟨g, hg⟩ := Grid.build_eq_ok (n := 5) (H := 400) (by decide) (by norm_num)
  obtain ⟨s₀, hs₀⟩ :=
    build_standard_eq_ok hg (by norm_num : (0 : ℝ) < 3.15e7) ⟨.crankNicolson, 1⟩ (by decide)
  obtain ⟨-, hlevels, -⟩ := fields_of_build hs₀
  obtain ⟨hdt, hD⟩ := zero_lt_of_build hs₀
  have hsize : (#[1, 2, 4, 8, 16] : Array ℝ).size = s₀.grid.levels := by
    rw [hlevels, Grid.levels_of_build hg]
    rfl
  exact ⟨g, s₀, hg, hs₀, hD.le, hdt.le, hsize, solve_reflect s₀ hD.le hdt.le hsize _ _⟩

end Conduction
end IceEnthalpy
