import IceEnthalpy.Proofs.Interpolation
import IceEnthalpy.Column.Basic

/-!
# Grids and columns in exact arithmetic

Read exactly, the `n` levels of a grid of height `H` are the multiples `k·Δz` of the spacing
`Δz = H/(n-1)`: the top level, which the code sets to `H` itself rather than computing it, is
the `(n-1)`-th multiple as well.  The levels therefore increase strictly, from the base at zero
to the surface at `H`, and interpolation carries a line from one grid of a column to another
exactly.

Writing a profile into a column changes its enthalpy and nothing else.
-/

namespace IceEnthalpy

namespace Grid

variable {α : Type} [Scalar α]

theorem z_of_build
    {n : Nat} {H : α} {g : Grid α}
    (h : build n H = .ok g) :
    g.z = heights n H := by
  unfold build at h
  split at h
  · cases h
  · split at h
    · cases h
      rfl
    · cases h

/-- A built grid has the two levels it was asked for at least. -/
theorem two_le_of_build
    {n : Nat} {H : α} {g : Grid α}
    (h : build n H = .ok g) :
    2 ≤ n := by
  have hlevels := levels_of_build h
  have hsize := g.two_le_size
  unfold levels at hlevels
  omega

section Exact

variable {n : Nat} {H : ℝ}

/-- A grid of at least two levels on a positive height is built. -/
theorem build_eq_ok
    (hn : 2 ≤ n)
    (hH : 0 < H) :
    ∃ g, build n H = .ok g := by
  have hH' : (0.0 : ℝ) < H := by
    norm_num
    exact hH
  exact ⟨_, by rw [build, dif_neg (by omega), dif_pos hH']⟩

/-- The `k`-th of `n ≥ 2` equally spaced heights is `k·H/(n-1)`, the top one included. -/
theorem heights_getElem
    (hn : 2 ≤ n)
    {k : Nat}
    (hk : k < (heights n H).size) :
    (heights n H)[k] = k * (H / (n - 1 : Nat)) := by
  have hden : ((n - 1 : Nat) : ℝ) ≠ 0 := by
    have : 1 ≤ n - 1 := by omega
    exact_mod_cast (by omega : n - 1 ≠ 0)
  simp only [heights, Array.getElem_ofFn, Exact.ofNat_eq]
  split
  · next htop =>
      rw [htop, mul_div_cancel₀ _ hden]
  · ring

/-- The spacing of a built grid is `H/(n-1)`. -/
theorem spacing_of_build
    {g : Grid ℝ}
    (h : build n H = .ok g) :
    g.spacing = H / (n - 1 : Nat) := by
  have hn := two_le_of_build h
  have hz := z_of_build h
  have hsize : 1 < (heights n H).size := by
    rw [size_heights]
    omega
  unfold spacing
  simp only [hz]
  rw [heights_getElem hn hsize, heights_getElem hn (by omega)]
  push_cast
  ring

/-- The top level of a built grid, `n - 1` spacings up, is the height. -/
theorem length_of_build
    {g : Grid ℝ}
    (h : build n H = .ok g) :
    ((g.levels - 1 : Nat) : ℝ) * g.spacing = H := by
  have hn := two_le_of_build h
  have hden : ((n - 1 : Nat) : ℝ) ≠ 0 := by
    exact_mod_cast (by omega : n - 1 ≠ 0)
  rw [spacing_of_build h, levels_of_build h, mul_div_cancel₀ _ hden]

/-- A grid is built on a positive height only. -/
theorem zero_lt_height_of_build
    {g : Grid ℝ}
    (h : build n H = .ok g) :
    0 < H := by
  have := g.height_pos
  rw [height_of_build h] at this
  norm_num at this
  exact this

/-- The levels of a built grid are a positive spacing apart. -/
theorem zero_lt_spacing_of_build
    {g : Grid ℝ}
    (h : build n H = .ok g) :
    0 < g.spacing := by
  have hn := two_le_of_build h
  have hH := zero_lt_height_of_build h
  have hden : (0 : ℝ) < (n - 1 : Nat) := by
    exact_mod_cast (by omega : 0 < n - 1)
  rw [spacing_of_build h]
  positivity

/-- The levels of a built grid are the multiples of its spacing. -/
theorem getElem_z_of_build
    {g : Grid ℝ}
    (h : build n H = .ok g)
    {k : Nat}
    (hk : k < g.z.size) :
    g.z[k] = k * g.spacing := by
  have hn := two_le_of_build h
  have hz := z_of_build h
  rw [spacing_of_build h]
  simp only [hz]
  exact heights_getElem hn (by rw [← hz]; exact hk)

/-- The levels of a built grid increase strictly. -/
theorem increasing_of_build
    {g : Grid ℝ}
    (h : build n H = .ok g) :
    Interpolation.Increasing g.z := by
  intro i j hi hj hij
  rw [getElem_z_of_build h hi, getElem_z_of_build h hj]
  have hspacing := zero_lt_spacing_of_build h
  have hcast : (i : ℝ) < j := by exact_mod_cast hij
  exact mul_lt_mul_of_pos_right hcast hspacing

/-- The levels of a built grid lie between the base, at zero, and the surface, at the height. -/
theorem getElem_z_mem_of_build
    {g : Grid ℝ}
    (h : build n H = .ok g)
    {k : Nat}
    (hk : k < g.z.size) :
    0 ≤ g.z[k] ∧ g.z[k] ≤ H := by
  have hspacing := (zero_lt_spacing_of_build h).le
  have hk' : (k : ℝ) ≤ (g.levels - 1 : Nat) := by
    exact_mod_cast (by unfold levels; omega : k ≤ g.levels - 1)
  rw [getElem_z_of_build h hk, ← length_of_build h]
  exact ⟨by positivity, mul_le_mul_of_nonneg_right hk' hspacing⟩

/-- The lowest level of a built grid is the base, at zero. -/
theorem getElem_z_zero_of_build
    {g : Grid ℝ}
    (h : build n H = .ok g)
    (h0 : 0 < g.z.size) :
    g.z[0] = 0 := by
  rw [getElem_z_of_build h h0, Nat.cast_zero, zero_mul]

/-- The highest level of a built grid is the surface, at the height. -/
theorem getElem_z_top_of_build
    {g : Grid ℝ}
    (h : build n H = .ok g)
    (htop : g.z.size - 1 < g.z.size) :
    g.z[g.z.size - 1] = H := by
  rw [getElem_z_of_build h htop]
  exact length_of_build h

/-- A built grid is symmetric about its middle: read from the top, its levels are the depths
below the surface. -/
theorem reverse_map_of_build
    {g : Grid ℝ}
    (h : build n H = .ok g)
    (f : ℝ → ℝ) :
    (g.z.map f).reverse = g.z.map fun z => f (H - z) := by
  apply Array.ext
  · simp
  · intro j hj _
    simp only [Array.size_reverse, Array.size_map] at hj
    simp only [Array.getElem_reverse, Array.getElem_map, Array.size_map]
    rw [getElem_z_of_build h, getElem_z_of_build h, ← length_of_build h, levels,
      Nat.cast_sub (by omega), Nat.cast_sub (by omega)]
    congr 1
    ring

/-- Interpolation carries a line from one grid of a column to another grid of the same height
exactly. -/
theorem interpolate_affine_of_build
    {n' : Nat} {g g' : Grid ℝ}
    (hg : build n H = .ok g)
    (hg' : build n' H = .ok g')
    (a b : ℝ) :
    Interpolation.interpolate g.z (g.z.map fun y => a + b * y) g'.z =
      g'.z.map fun y => a + b * y := by
  have hsize : 0 < g.z.size := by
    have := g.two_le_size
    omega
  apply Interpolation.interpolate_affine (increasing_of_build hg) a b hsize
  intro z hz
  obtain ⟨k, hk, rfl⟩ := Array.mem_iff_getElem.mp hz
  rw [getElem_z_zero_of_build hg hsize, getElem_z_top_of_build hg (by omega)]
  exact getElem_z_mem_of_build hg' hk

end Exact

end Grid

namespace Column

variable {α : Type} [Scalar α]

/-- Writing a profile stores it as the enthalpy and leaves the grid and the other registers. -/
theorem fields_of_setProfile
    {c c' : Column α} {values : Array α}
    (h : c.setProfile values = .ok c') :
    c'.enthalpy = values ∧ c'.grid = c.grid ∧ c'.u = c.u ∧ c'.v = c.v ∧ c'.w = c.w ∧
      c'.strainHeating = c.strainHeating := by
  by_cases hsize : values.size = c.grid.levels
  · rw [setProfile_of_size c hsize, Except.ok.injEq] at h
    subst h
    exact ⟨rfl, rfl, rfl, rfl, rfl, rfl⟩
  · rw [setProfile_of_size_ne c hsize] at h
    cases h

end Column

end IceEnthalpy
