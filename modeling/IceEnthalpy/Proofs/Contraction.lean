import IceEnthalpy.Proofs.Pivots
import IceEnthalpy.Proofs.StepCycle

/-!
# Elimination on the rows of a step contracts

Going down the rows, elimination divides each row by its pivot and carries the multiplier
`cᵢ = upperᵢ/pᵢ` to the row below.  On the rows of a step of the θ-scheme the multiplier stays
in `(-1, 0]` and every pivot is at least one, for either scheme and any pair of edges, as long
as the mesh ratio `r = α²·Δt/Δz²` is not negative.

Every row of a step has a diagonal that exceeds the magnitudes of its other coefficients by
exactly one: `1 + 2rθ` against `rθ` and `rθ` inside, against `2rθ` on the side of a ghost level,
and `1` against `0` in a row that fixes a value; its coefficient above is never positive
(`Conduction.system_contracting`).  Below
a multiplier in `(-1, 0]`, such a row's pivot loses less than its coefficient below, so it still
exceeds the coefficient above by one; the next multiplier `upper/p` is then in `(-1, 0]` again.
The first row has no multiplier above it, and its coefficient below does not count.

Read exactly, no pivot of a step is therefore refused, and a solve never reports a singular
pivot.
-/

namespace IceEnthalpy
namespace Tridiagonal

/-- A coefficient `u ≤ 0` over a pivot that exceeds `|u|` by one gives a multiplier in
`(-1, 0]`. -/
theorem multiplier_mem
    {u p : ℝ}
    (hu : u ≤ 0)
    (hp : 1 + |u| ≤ p) :
    -1 < u / p ∧ u / p ≤ 0 := by
  rw [abs_of_nonpos hu] at hp
  have hpos : 0 < p := by linarith
  refine ⟨?_, div_nonpos_of_nonpos_of_nonneg hu hpos.le⟩
  rw [lt_div_iff₀ hpos]
  linarith

/-- On contracting rows, below a multiplier at most `b` in magnitude, elimination refuses no
pivot: every pivot is at least one, and every multiplier it carries down lies in `(-1, 0]`. -/
theorem eliminate_of_contracting :
    ∀ {rows : List (Row ℝ)} {above before : Option (ℝ × ℝ)} (index : Nat) {b : ℝ},
      0 ≤ b → Bounded b above → Tracks above before → Contracting b rows →
      (∀ p ∈ pivots before rows, 1 ≤ p) ∧
        ∃ reduced, eliminate above index rows = .ok reduced ∧
          ∀ cd ∈ reduced, -1 < cd.1 ∧ cd.1 ≤ 0
  | [], _, _, _, _, _, _, _, _ => ⟨by simp [pivots], [], rfl, by simp⟩
  | [r], above, before, index, b, hb0, hbound, htracks, hrow => by
      have hp : 1 ≤ pivot above r := le_pivot_of_bounded hb0 hbound hrow
      refine ⟨?_, _, eliminate_singleton (singular_eq_false_of_one_le hp), ?_⟩
      · simp only [pivots, List.mem_cons, List.not_mem_nil, or_false, forall_eq]
        rwa [← pivot_of_tracks r htracks]
      · simp only [List.mem_cons, List.not_mem_nil, or_false, forall_eq]
        norm_num
  | r :: r' :: rows, above, before, index, b, hb0, hbound, htracks, ⟨hrow, hup, hrest⟩ => by
      have hp : 1 + |r.upper| ≤ pivot above r := le_pivot_of_bounded hb0 hbound (by linarith)
      have hone : 1 ≤ pivot above r := by linarith [abs_nonneg r.upper]
      have hc := multiplier_mem hup hp
      have hnext : Bounded 1
          (some (r.upper / pivot above r, reducedRhs above r (pivot above r))) :=
        abs_le.mpr ⟨hc.1.le, hc.2.trans zero_le_one⟩
      obtain ⟨hpivots, tail, htail, hmultipliers⟩ := eliminate_of_contracting (index + 1)
        zero_le_one hnext (tracks_after r _ htracks) hrest
      refine ⟨?_, _, by rw [eliminate_cons_cons (singular_eq_false_of_one_le hone), htail]; rfl, ?_⟩
      · intro p hmem
        rw [pivots, List.mem_cons] at hmem
        rcases hmem with rfl | hmem
        · rwa [← pivot_of_tracks r htracks]
        · exact hpivots p hmem
      · intro cd hmem
        simp only [List.mem_cons] at hmem
        rcases hmem with rfl | hmem
        · exact hc
        · exact hmultipliers cd hmem

end Tridiagonal

namespace Conduction

/-- Read exactly, elimination on the rows of a step, for either scheme and any pair of edges,
meets no pivot below one and carries down only multipliers in `(-1, 0]`; so no solve of the
solver reports a singular pivot. -/
theorem system_elimination_contracts
    (s : Conduction ℝ)
    (hD : 0 ≤ s.diffusivity)
    (hdt : 0 ≤ s.dt) :
    (∀ base surface : Edge ℝ,
      (∀ p ∈ Tridiagonal.pivots none (s.system base surface), 1 ≤ p) ∧
        ∃ reduced, Tridiagonal.eliminate none 0 (s.system base surface) = .ok reduced ∧
          ∀ cd ∈ reduced, -1 < cd.1 ∧ cd.1 ≤ 0) ∧
      ∀ p i, s.solve ≠ .error (.nonConvergence (.singularPivot p i)) := by
  have hrows : ∀ base surface : Edge ℝ,
      (∀ p ∈ Tridiagonal.pivots none (s.system base surface), 1 ≤ p) ∧
        ∃ reduced, Tridiagonal.eliminate none 0 (s.system base surface) = .ok reduced ∧
          ∀ cd ∈ reduced, -1 < cd.1 ∧ cd.1 ≤ 0 := fun base surface =>
    Tridiagonal.eliminate_of_contracting 0 le_rfl trivial trivial
      (s.system_contracting base surface (s.meshRatio_nonneg hD hdt))
  refine ⟨hrows, fun p i hsolve => ?_⟩
  obtain ⟨base, surface, -, hsystem⟩ := s.solve_eq_nonConvergence hsolve
  obtain ⟨-, reduced, helim, -⟩ := hrows base surface
  rw [Tridiagonal.solve_eq_map_substitute, helim] at hsystem
  cases hsystem

/-- A backward-Euler solver for standard ice on two levels spanning 1000 m, with a year per
step, where the base row and the surface row are neighbours: elimination contracts. -/
theorem system_elimination_contracts_two :
    ∃ (g : Grid ℝ) (s : Conduction ℝ), Grid.build 2 1000 = .ok g ∧
      build g 3.15e7 Ice.Properties.standard Setup.standard = .ok s ∧
      0 ≤ s.diffusivity ∧ 0 ≤ s.dt ∧
      (∀ base surface : Edge ℝ,
        (∀ p ∈ Tridiagonal.pivots none (s.system base surface), 1 ≤ p) ∧
          ∃ reduced, Tridiagonal.eliminate none 0 (s.system base surface) = .ok reduced ∧
            ∀ cd ∈ reduced, -1 < cd.1 ∧ cd.1 ≤ 0) ∧
      ∀ p i, s.solve ≠ .error (.nonConvergence (.singularPivot p i)) := by
  obtain ⟨g, hg⟩ := Grid.build_eq_ok (n := 2) (H := 1000) (by decide) (by norm_num)
  obtain ⟨s, hs⟩ :=
    build_standard_eq_ok hg (by norm_num : (0 : ℝ) < 3.15e7) Setup.standard (by decide)
  obtain ⟨hdt, hD⟩ := zero_lt_of_build hs
  exact ⟨g, s, hg, hs, hD.le, hdt.le, system_elimination_contracts s hD.le hdt.le⟩

end Conduction
end IceEnthalpy
