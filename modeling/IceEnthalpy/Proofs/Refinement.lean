import IceEnthalpy.Proofs.SteadyLine

/-!
# The solver grid inside the column grid

A solver built with refinement `ρ` for a column grid of `n` levels has a grid of its own, of
`(n-1)·ρ + 1` levels on the same height: its spacing is the column's divided by `ρ`, so its level
`ρ·k` is column level `k`.  The solver takes a column's enthalpy by reading it at its own levels,
and gives a profile back by reading that at the column's levels.

Main statement: in exact arithmetic, the profile that a solver prepares from a column is the
piecewise-linear interpolant of the column's enthalpy; a profile given back sets column level `k`
to solver level `ρ·k` and changes nothing else; and so the prepared profile, given back, returns
the column as it was.
-/

namespace IceEnthalpy

namespace Grid

variable {n ρ : Nat} {H : ℝ} {g f : Grid ℝ}

/-- Every `ρ`-th level of the grid of `(n-1)·ρ + 1` levels is a level of the grid of `n` levels
on the same height. -/
theorem mul_lt_size_refine
    (hg : build n H = .ok g)
    (hf : build ((n - 1) * ρ + 1) H = .ok f)
    {k : Nat}
    (hk : k < g.z.size) :
    ρ * k < f.z.size := by
  have hn := levels_of_build hg
  have hm := levels_of_build hf
  unfold levels at hn hm
  rw [hm]
  have : ρ * k ≤ ρ * (n - 1) := Nat.mul_le_mul_left ρ (by omega)
  rw [Nat.mul_comm ρ (n - 1)] at this
  omega

/-- Level `ρ·k` of the grid of `(n-1)·ρ + 1` levels is level `k` of the grid of `n` levels on the
same height. -/
theorem getElem_z_refine
    (hg : build n H = .ok g)
    (hf : build ((n - 1) * ρ + 1) H = .ok f)
    (hρ : 0 < ρ)
    {k : Nat}
    (hk : k < g.z.size)
    (hfk : ρ * k < f.z.size) :
    f.z[ρ * k] = g.z[k] := by
  have hn := two_le_of_build hg
  have hden : ((n - 1 : Nat) : ℝ) ≠ 0 := by
    exact_mod_cast (by omega : n - 1 ≠ 0)
  have hρ' : (ρ : ℝ) ≠ 0 := by
    exact_mod_cast hρ.ne'
  rw [getElem_z_of_build hf, getElem_z_of_build hg hk, spacing_of_build hf, spacing_of_build hg,
    Nat.add_sub_cancel]
  push_cast
  field_simp

end Grid

namespace Conduction

section Transfer

variable {n ρ : Nat} {H : ℝ} {g : Grid ℝ} {s : Conduction ℝ}

/-- Read at the column's levels, a profile on a solver grid that refines the column grid `ρ`
times gives its values at every `ρ`-th level. -/
theorem interpolate_refine
    (hg : Grid.build n H = .ok g)
    (hf : Grid.build ((n - 1) * ρ + 1) H = .ok s.grid)
    (hρ : 0 < ρ)
    {x : Array ℝ}
    (hsize : x.size = s.grid.levels)
    {k : Nat}
    (hk : k < g.z.size) :
    (Interpolation.interpolate s.grid.z x g.z).getD k 0 = x.getD (ρ * k) 0 := by
  have hfine := Grid.mul_lt_size_refine hg hf hk
  rw [getD_of_lt _ _ (by simpa using hk)]
  simp only [Interpolation.interpolate, Array.getElem_map]
  rw [← Grid.getElem_z_refine hg hf hρ hk hfine,
    Interpolation.valueAt_level (Grid.increasing_of_build hf) hsize hfine,
    getD_of_lt x _ (by rw [hsize]; exact hfine)]

/-- Giving a profile back to a column on the solver's column grid sets column level `k` to solver
level `ρ·k` and changes nothing else. -/
theorem remap_refine
    (hg : Grid.build n H = .ok g)
    (hf : Grid.build ((n - 1) * ρ + 1) H = .ok s.grid)
    (hρ : 0 < ρ)
    (hcolumn : s.column = g)
    {c : Column ℝ}
    (hc : c.grid = g)
    {x : Array ℝ}
    (hsize : x.size = s.grid.levels) :
    ∃ c', s.remap x c = .ok c' ∧ (∀ k < n, c'.enthalpy.getD k 0 = x.getD (ρ * k) 0) ∧
      c'.grid = c.grid ∧ c'.u = c.u ∧ c'.v = c.v ∧ c'.w = c.w ∧
      c'.strainHeating = c.strainHeating := by
  have hfits : (Interpolation.interpolate s.grid.z x c.z).size = c.grid.levels := by
    simp [Column.z, Grid.levels]
  have hlevels : c.grid.levels = s.column.levels := by
    rw [hc, hcolumn]
  refine ⟨{ c with enthalpy := Interpolation.interpolate s.grid.z x c.z, size_enthalpy := hfits },
    ?_, fun k hk => ?_, rfl, rfl, rfl, rfl, rfl⟩
  · unfold remap
    rw [if_neg (not_not_intro hsize), if_neg (not_not_intro hlevels),
      Column.setProfile_of_size c hfits]
    rfl
  · have hk' : k < g.z.size := by
      rw [← Grid.levels, Grid.levels_of_build hg]
      exact hk
    show (Interpolation.interpolate s.grid.z x c.grid.z).getD k 0 = _
    rw [hc]
    exact interpolate_refine hg hf hρ hsize hk'

/-- The profile prepared from a column on the solver's column grid is read off, at each solver
level, the chord between the column levels around it. -/
theorem prepare_refine
    (hg : Grid.build n H = .ok g)
    (hcolumn : s.column = g)
    {c : Column ℝ}
    (hc : c.grid = g)
    {j k : Nat}
    (hj : j < s.grid.levels)
    (hk : k + 1 < n)
    (hlow : g.z.getD k 0 ≤ s.grid.z.getD j 0)
    (hhigh : s.grid.z.getD j 0 ≤ g.z.getD (k + 1) 0) :
    (Interpolation.interpolate s.column.z c.enthalpy s.grid.z).getD j 0 =
      c.enthalpy.getD k 0 + (s.grid.z.getD j 0 - g.z.getD k 0) /
        (g.z.getD (k + 1) 0 - g.z.getD k 0) * (c.enthalpy.getD (k + 1) 0 - c.enthalpy.getD k 0) := by
  have hsize : g.z.size = n := Grid.levels_of_build hg
  have hvalues : c.enthalpy.size = g.z.size := by
    rw [c.size_enthalpy, hc]
    rfl
  have hj' : j < s.grid.z.size := hj
  have hk0 : k < g.z.size := by omega
  have hk1 : k + 1 < g.z.size := by omega
  rw [getD_of_lt g.z _ hk0, getD_of_lt s.grid.z _ hj'] at hlow
  rw [getD_of_lt g.z _ hk1, getD_of_lt s.grid.z _ hj'] at hhigh
  rw [getD_of_lt g.z _ hk0, getD_of_lt g.z _ hk1, getD_of_lt s.grid.z _ hj',
    getD_of_lt _ _ (by simpa using hj')]
  simp only [Interpolation.interpolate, Array.getElem_map]
  rw [hcolumn, Interpolation.valueAt_chord (Grid.increasing_of_build hg) hvalues hk1 hlow hhigh,
    getD_of_lt c.enthalpy _ (by omega), getD_of_lt c.enthalpy _ (by omega)]

/-- Prepared from a column on the solver's column grid and given back, a profile returns the
column as it was. -/
theorem remap_prepared
    (hg : Grid.build n H = .ok g)
    (hf : Grid.build ((n - 1) * ρ + 1) H = .ok s.grid)
    (hρ : 0 < ρ)
    (hcolumn : s.column = g)
    {c : Column ℝ}
    (hc : c.grid = g)
    (ph : Phase ℝ) :
    ({ s with enthalpy := Interpolation.interpolate s.column.z c.enthalpy s.grid.z, phase := ph } :
        Conduction ℝ).remap (Interpolation.interpolate s.column.z c.enthalpy s.grid.z) c = .ok c := by
  have hinc := Grid.increasing_of_build hg
  have hvalues : c.enthalpy.size = g.z.size := by
    rw [c.size_enthalpy, hc]
    rfl
  have hsize : (Interpolation.interpolate s.column.z c.enthalpy s.grid.z).size = s.grid.levels := by
    simp [Grid.levels]
  refine remap_eq_self hsize (by rw [hc, hcolumn]) (Array.ext ?_ fun k hk _ => ?_)
  · simp [Column.z, hc, c.size_enthalpy, Grid.levels]
  · have hk' : k < g.z.size := by simpa [Column.z, hc] using hk
    have hfine := Grid.mul_lt_size_refine hg hf hk'
    have hread := interpolate_refine hg hf hρ hsize hk'
    rw [getD_of_lt _ _ (by simpa using hk'), getD_of_lt _ _ (by simpa using hfine)] at hread
    simp only [Column.z, hc]
    rw [hread]
    simp only [Interpolation.interpolate, Array.getElem_map]
    rw [hcolumn, Grid.getElem_z_refine hg hf hρ hk' hfine, Interpolation.valueAt_level hinc hvalues hk']

end Transfer

/-- In exact arithmetic, a solver built for a column grid of `n` levels with refinement `ρ`, where
`(n-1)·ρ + 1` fits in a word, has a grid of `(n-1)·ρ + 1` levels whose level `ρ·k` is column
level `k`.  For a column on that grid,
`prepare` stores the piecewise-linear interpolant of the column's enthalpy, which the solver,
given it back, returns as the column itself; and a profile given back at any point of the cycle
sets column level `k` to solver level `ρ·k` and changes nothing else. -/
theorem build_transfer_round_trip
    {n : Nat} {H dt : ℝ} {g : Grid ℝ} {p : Ice.Properties ℝ} {setup : Setup} {s : Conduction ℝ}
    (hg : Grid.build n H = .ok g)
    (hbuild : build g dt p setup = .ok s)
    (hword : (n - 1) * setup.refinement + 1 < 2 ^ 64) :
    s.grid.levels = (n - 1) * setup.refinement + 1 ∧
      (∀ k < n, s.grid.z.getD (setup.refinement * k) 0 = g.z.getD k 0) ∧
      ∀ c : Column ℝ, c.grid = g →
        (∀ (marginal : Bool) (thickness : ℝ) (s' : Conduction ℝ),
          s.prepare c marginal thickness = .ok s' →
            s'.enthalpy.size = s.grid.levels ∧
            (∀ j < s.grid.levels, ∀ k, k + 1 < n →
              g.z.getD k 0 ≤ s.grid.z.getD j 0 → s.grid.z.getD j 0 ≤ g.z.getD (k + 1) 0 →
              s'.enthalpy.getD j 0 = c.enthalpy.getD k 0 +
                (s.grid.z.getD j 0 - g.z.getD k 0) / (g.z.getD (k + 1) 0 - g.z.getD k 0) *
                  (c.enthalpy.getD (k + 1) 0 - c.enthalpy.getD k 0)) ∧
            s'.remap s'.enthalpy c = .ok c) ∧
        ∀ (e : Array ℝ) (ph : Phase ℝ) (x : Array ℝ), x.size = s.grid.levels →
          ∃ c', ({ s with enthalpy := e, phase := ph } : Conduction ℝ).remap x c = .ok c' ∧
            (∀ k < n, c'.enthalpy.getD k 0 = x.getD (setup.refinement * k) 0) ∧
            c'.grid = c.grid ∧ c'.u = c.u ∧ c'.v = c.v ∧ c'.w = c.w ∧
            c'.strainHeating = c.strainHeating := by
  obtain ⟨hcolumn, hlevels, -, -, -, -⟩ := fields_of_build hbuild
  obtain ⟨-, -, hfine⟩ := fine_of_build hbuild
  rw [Grid.levels_of_build hg, Grid.height_of_build hg, fineLevels_of_lt hword] at hfine
  rw [Grid.levels_of_build hg, fineLevels_of_lt hword] at hlevels
  have hρ : 0 < setup.refinement := by
    have := s.grid.two_le_size
    unfold Grid.levels at hlevels
    rw [hlevels] at this
    exact Nat.pos_of_ne_zero fun h => by simp [h] at this
  refine ⟨hlevels, fun k hk => ?_, fun c hc => ⟨fun marginal thickness s' hprepare => ?_,
    fun e ph x hx => remap_refine (s := { s with enthalpy := e, phase := ph }) hg hfine hρ
      hcolumn hc hx⟩⟩
  · have hk' : k < g.z.size := by
      rw [← Grid.levels, Grid.levels_of_build hg]
      exact hk
    rw [getD_of_lt _ _ (Grid.mul_lt_size_refine hg hfine hk'), getD_of_lt _ _ hk',
      Grid.getElem_z_refine hg hfine hρ hk' (Grid.mul_lt_size_refine hg hfine hk')]
  · rw [s.prepare_eq_ok hprepare]
    exact ⟨by simp [Grid.levels],
      fun j hj k hk hlow hhigh => prepare_refine hg hcolumn hc hj hk hlow hhigh,
      remap_prepared hg hfine hρ hcolumn hc _⟩

/-- A backward Euler solver for polar ice refined three times on a 100 m column of three levels:
its grid of seven levels holds the column's, and a column on that grid comes back from the round
trip unchanged. -/
theorem build_transfer_round_trip_refined :
    ∃ (g : Grid ℝ) (s : Conduction ℝ), Grid.build 3 100 = .ok g ∧
      build g 3.15e7 Ice.Properties.standard ⟨.backwardEuler, 3⟩ = .ok s ∧
      (3 - 1) * 3 + 1 < 2 ^ 64 ∧
      s.grid.levels = (3 - 1) * 3 + 1 ∧
      (∀ k < 3, s.grid.z.getD (3 * k) 0 = g.z.getD k 0) ∧
      ∀ c : Column ℝ, c.grid = g →
        (∀ (marginal : Bool) (thickness : ℝ) (s' : Conduction ℝ),
          s.prepare c marginal thickness = .ok s' →
            s'.enthalpy.size = s.grid.levels ∧
            (∀ j < s.grid.levels, ∀ k, k + 1 < 3 →
              g.z.getD k 0 ≤ s.grid.z.getD j 0 → s.grid.z.getD j 0 ≤ g.z.getD (k + 1) 0 →
              s'.enthalpy.getD j 0 = c.enthalpy.getD k 0 +
                (s.grid.z.getD j 0 - g.z.getD k 0) / (g.z.getD (k + 1) 0 - g.z.getD k 0) *
                  (c.enthalpy.getD (k + 1) 0 - c.enthalpy.getD k 0)) ∧
            s'.remap s'.enthalpy c = .ok c) ∧
        ∀ (e : Array ℝ) (ph : Phase ℝ) (x : Array ℝ), x.size = s.grid.levels →
          ∃ c', ({ s with enthalpy := e, phase := ph } : Conduction ℝ).remap x c = .ok c' ∧
            (∀ k < 3, c'.enthalpy.getD k 0 = x.getD (3 * k) 0) ∧
            c'.grid = c.grid ∧ c'.u = c.u ∧ c'.v = c.v ∧ c'.w = c.w ∧
            c'.strainHeating = c.strainHeating := by
  obtain ⟨g, hg⟩ := Grid.build_eq_ok (n := 3) (H := 100) (by decide) (by norm_num)
  obtain ⟨s, hs⟩ :=
    build_standard_eq_ok hg (by norm_num : (0 : ℝ) < 3.15e7) ⟨.backwardEuler, 3⟩ (by decide)
  exact ⟨g, s, hg, hs, by norm_num, build_transfer_round_trip hg hs (by norm_num)⟩

/-- A solver for polar ice built for a column of four levels spanning 1000 m and refined
12297829382473034412 times: the count `3·ρ + 1` wraps modulo `2⁶⁴` to five, so its grid has five
levels and not `3·ρ + 1`, and has no level `ρ` at the column's level a third of the way up. -/
theorem build_grid_wraps :
    ∃ (g : Grid ℝ) (s : Conduction ℝ), Grid.build 4 1000 = .ok g ∧
      build g 1 Ice.Properties.standard ⟨.backwardEuler, 12297829382473034412⟩ = .ok s ∧
      s.grid.levels = 5 ∧ s.grid.levels ≠ (4 - 1) * 12297829382473034412 + 1 ∧
      s.grid.z.getD (12297829382473034412 * 1) 0 ≠ g.z.getD 1 0 := by
  obtain ⟨g, hg⟩ := Grid.build_eq_ok (n := 4) (H := 1000) (by decide) (by norm_num)
  obtain ⟨s, hs⟩ := build_standard_eq_ok hg (by norm_num : (0 : ℝ) < 1)
    ⟨.backwardEuler, 12297829382473034412⟩ (by decide)
  obtain ⟨-, hlevels, -⟩ := fields_of_build hs
  have hfive : s.grid.levels = 5 := by
    rw [hlevels, Grid.levels_of_build hg]
    decide
  have hthird : g.z.getD 1 0 = 1000 / 3 := by
    have hk : 1 < g.z.size := by
      rw [← Grid.levels, Grid.levels_of_build hg]
      decide
    rw [getD_of_lt _ _ hk, Grid.getElem_z_of_build hg hk, Grid.spacing_of_build hg]
    norm_num
  have hbeyond : s.grid.z.getD (12297829382473034412 * 1) 0 = 0 := by
    have hsize : s.grid.z.size = 5 := hfive
    rw [Array.getD_eq_getD_getElem?, Array.getElem?_eq_none (by rw [hsize]; decide)]
    rfl
  refine ⟨g, s, hg, hs, hfive, by rw [hfive]; decide, ?_⟩
  rw [hbeyond, hthird]
  norm_num

end Conduction
end IceEnthalpy
