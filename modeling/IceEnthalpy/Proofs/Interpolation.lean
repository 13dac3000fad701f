import IceEnthalpy.Proofs.Basic
import IceEnthalpy.Solver.Interpolation

/-!
# The halving search and interpolation at the levels

The level search of `Interpolation.valueAt` is a halving search for the partition point of a
test that holds on a prefix of the levels and fails after it.  Its invariant is a window
`[base, base + size)` that contains the last level passing the test (the first level when none
does); each halving keeps it, and a window of one entry is the answer.

On strictly increasing levels the test `· ≤ z` at a level `z = zⱼ` holds exactly on the first
`j + 1` levels, so interpolation at a level reads the value stored there: in exact arithmetic,
interpolating a profile back onto its own levels returns the profile.  At a height between two
levels, the value is read off the chord between them, so a profile on a line is read back on
that line anywhere between the first and the last level.

The reading is stated once, over every scalar whose comparisons chain (`x < y` and `y ≤ w` give
`x ≤ w`, as for binary64 and for the reals).  There the test `· ≤ z` holds on a prefix of
strictly increasing levels, so the halving search finds the length of that prefix, and the value
at `z` is

* the first value when the first level is not at most `z`: below the levels, or, in binary64,
  at a NaN, of which no comparison holds;
* the last value when the last level is at most `z`;
* otherwise the value on the chord over the one pair of neighbouring levels with `zⱼ ≤ z` and
  `zⱼ₊₁` not at most `z`.

The statements in exact arithmetic follow from it.  There the chord's weight
`(z - zⱼ)/(zⱼ₊₁ - zⱼ)` lies in `[0, 1)`, so a value read between two levels lies between their
values, and no value read leaves an interval that holds all the values.
-/

namespace IceEnthalpy

/-- The reals' comparisons chain: `x < y` and `y ≤ w` give `x ≤ w`. -/
theorem Exact.le_of_lt_of_le (x y w : ℝ) (hxy : x < y) (hyw : y ≤ w) : x ≤ w :=
  (hxy.trans_le hyw).le

namespace Interpolation

section Search

variable {α : Type}

/-- `k` splits the levels for a test: the test holds on the first `k` levels and fails on the
others. -/
def Splits
    (levels : Array α) (atMost : α → Bool) (k : Nat) : Prop :=
  k ≤ levels.size ∧
    (∀ i (h : i < levels.size), i < k → atMost levels[i] = true) ∧
    (∀ i (h : i < levels.size), k ≤ i → atMost levels[i] = false)

/-- The window `[base, base + size)` of the halving search lies within the levels and contains
`k - 1`, the last level passing the test, or the first level when none does. -/
def Window
    (levels : Array α) (k base size : Nat) : Prop :=
  0 < size ∧ base + size ≤ levels.size ∧ base ≤ k - 1 ∧ k - 1 < base + size

variable {levels : Array α} {atMost : α → Bool} {k : Nat}

/-- A level that passes the test lies before the splitting point. -/
theorem Splits.lt_of_pass
    (hs : Splits levels atMost k)
    {i : Nat} (hi : i < levels.size)
    (hpass : atMost levels[i] = true) :
    i < k := by
  by_contra hafter
  rw [hs.2.2 i hi (by omega)] at hpass
  exact Bool.false_ne_true hpass

/-- A level that fails the test lies at or after the splitting point. -/
theorem Splits.le_of_fail
    (hs : Splits levels atMost k)
    {i : Nat} (hi : i < levels.size)
    (hfail : atMost levels[i] = false) :
    k ≤ i := by
  by_contra hbefore
  rw [hs.2.1 i hi (by omega)] at hfail
  exact Bool.false_ne_true hfail.symm

/-- One halving keeps the window around `k - 1`. -/
theorem window_halve
    (hs : Splits levels atMost k)
    {base size : Nat}
    (hw : Window levels k base size)
    (hsize : ¬size ≤ 1) :
    Window levels k
      (if (levels[base + size / 2]?.map atMost).getD false then base + size / 2 else base)
      (size - size / 2) := by
  obtain ⟨hpos, hfit, hlow, hhigh⟩ := hw
  have hmid : base + size / 2 < levels.size := by omega
  rw [Array.getElem?_eq_getElem hmid]
  simp only [Option.map_some, Option.getD_some]
  split
  · next hpass =>
      have hbefore : base + size / 2 < k := hs.lt_of_pass hmid hpass
      refine ⟨by omega, by omega, by omega, by omega⟩
  · next hfail =>
      have hafter : k ≤ base + size / 2 := hs.le_of_fail hmid (Bool.eq_false_iff.mpr hfail)
      refine ⟨by omega, by omega, hlow, by omega⟩

/-- The halving search ends at `k - 1` from every window around it. -/
theorem narrow_eq
    (hs : Splits levels atMost k)
    {base size : Nat}
    (hw : Window levels k base size) :
    narrow levels atMost base size = k - 1 := by
  fun_induction narrow levels atMost base size with
  | case1 base size hsize =>
      obtain ⟨_, _, hlow, hhigh⟩ := hw
      omega
  | case2 base size hsize half mid next ih =>
      exact ih (window_halve hs hw hsize)

/-- The halving search finds the partition point of a test that splits the levels. -/
theorem partitionPoint_eq
    (hs : Splits levels atMost k) :
    partitionPoint levels atMost = k := by
  unfold partitionPoint
  split
  · next hempty =>
      have hk := hs.1
      omega
  · next hne =>
      have hw : Window levels k 0 levels.size := by
        have hk := hs.1
        refine ⟨by omega, by omega, by omega, by omega⟩
      dsimp only
      rw [narrow_eq hs hw]
      have hlast : k - 1 < levels.size := by
        have hk := hs.1
        omega
      rw [Array.getElem?_eq_getElem hlast]
      simp only [Option.map_some, Option.getD_some]
      split
      · next hpass =>
          have hbefore : k - 1 < k := hs.lt_of_pass hlast hpass
          omega
      · next hfail =>
          have hafter : k ≤ k - 1 := hs.le_of_fail hlast (Bool.eq_false_iff.mpr hfail)
          omega

/-- A test that holds on the levels up to some point and fails after it splits the levels, at
the first level that fails it. -/
theorem exists_splits
    (hanti : ∀ i j (hi : i < levels.size) (hj : j < levels.size), i < j →
      atMost levels[j] = true → atMost levels[i] = true) :
    ∃ k, Splits levels atMost k := by
  classical
  have hex : ∃ k, levels.size ≤ k ∨ ∃ hk : k < levels.size, atMost levels[k] = false :=
    ⟨levels.size, .inl le_rfl⟩
  refine ⟨Nat.find hex, Nat.find_min' hex (.inl le_rfl), fun i hi hlt => ?_, fun i hi hle => ?_⟩
  · have hpass := Nat.find_min hex hlt
    simp only [not_or, not_le, not_exists, Bool.not_eq_false] at hpass
    exact hpass.2 hi
  · rcases Nat.find_spec hex with hsize | ⟨hk, hfail⟩
    · omega
    · rcases Nat.lt_or_eq_of_le hle with hlt | heq
      · by_contra hpass
        rw [hanti _ i hk hi hlt (Bool.not_eq_false _ ▸ hpass)] at hfail
        exact Bool.noConfusion hfail
      · subst heq
        exact hfail

end Search

section Scalar

variable {α : Type} [Scalar α] {levels values : Array α} {z : α}

/-- Over a scalar whose comparisons chain, the test `· ≤ z` splits strictly increasing
levels. -/
theorem exists_splits_of_pairwise
    (hchain : ∀ x y w : α, x < y → y ≤ w → x ≤ w)
    (hinc : levels.Pairwise (· < ·))
    (z : α) :
    ∃ k, Splits levels (fun x => decide (x ≤ z)) k :=
  exists_splits fun i j hi hj hij hz =>
    decide_eq_true (hchain _ _ _ (Array.pairwise_iff_getElem.mp hinc i j hi hj hij)
      (of_decide_eq_true hz))

variable (hchain : ∀ x y w : α, x < y → y ≤ w → x ≤ w) (hinc : levels.Pairwise (· < ·))
include hchain hinc

/-- A height that the first level is not at most reads the first value. -/
theorem valueAt_of_not_le_first
    (hsize : values.size = levels.size)
    (hm : 0 < levels.size)
    (hz : ¬levels[0] ≤ z) :
    valueAt levels values z = values[0] := by
  obtain ⟨k, hs⟩ := exists_splits_of_pairwise hchain hinc z
  have hk : k = 0 := Nat.le_zero.mp (hs.le_of_fail hm (decide_eq_false hz))
  unfold valueAt
  dsimp only
  rw [partitionPoint_eq hs, if_pos hk, getD_of_lt values _ (by omega)]

/-- A height that the last level is at most reads the last value. -/
theorem valueAt_of_le_last
    (hsize : values.size = levels.size)
    (hm : 0 < levels.size)
    (hz : levels[levels.size - 1] ≤ z) :
    valueAt levels values z = values[levels.size - 1] := by
  obtain ⟨k, hs⟩ := exists_splits_of_pairwise hchain hinc z
  have hk : levels.size - 1 < k := hs.lt_of_pass (by omega) (decide_eq_true hz)
  unfold valueAt
  dsimp only
  rw [partitionPoint_eq hs, if_neg (by omega), if_pos (by omega),
    getD_of_lt values _ (by omega)]

/-- A height between neighbouring levels, the lower at most it and the upper not, reads the
chord between their values. -/
theorem valueAt_of_between
    (hsize : values.size = levels.size)
    {j : Nat} (hj : j + 1 < levels.size)
    (hlow : levels[j] ≤ z)
    (hhigh : ¬levels[j + 1] ≤ z) :
    valueAt levels values z =
      values[j] + (z - levels[j]) / (levels[j + 1] - levels[j]) * (values[j + 1] - values[j]) := by
  obtain ⟨k, hs⟩ := exists_splits_of_pairwise hchain hinc z
  have hk : k = j + 1 := by
    have hpass := hs.lt_of_pass (by omega) (decide_eq_true hlow)
    have hfail := hs.le_of_fail hj (decide_eq_false hhigh)
    omega
  unfold valueAt
  dsimp only
  rw [partitionPoint_eq hs, hk, if_neg (Nat.succ_ne_zero j), if_neg (by omega),
    Nat.add_sub_cancel, getD_of_lt levels _ (by omega), getD_of_lt levels _ hj,
    getD_of_lt values _ (by omega), getD_of_lt values _ (by omega)]

/-- A height that the first level is at most and the last is not lies between one pair of
neighbouring levels, the lower at most it and the upper not. -/
theorem existsUnique_between
    (hm : 0 < levels.size)
    (hlow : levels[0] ≤ z)
    (hhigh : ¬levels[levels.size - 1] ≤ z) :
    ∃! j, ∃ hj : j + 1 < levels.size, levels[j] ≤ z ∧ ¬levels[j + 1] ≤ z := by
  obtain ⟨k, hs⟩ := exists_splits_of_pairwise hchain hinc z
  have hfirst : 0 < k := hs.lt_of_pass hm (decide_eq_true hlow)
  have hlast : k ≤ levels.size - 1 := hs.le_of_fail (by omega) (decide_eq_false hhigh)
  refine ⟨k - 1, ⟨by omega, ?_, ?_⟩, ?_⟩
  · exact of_decide_eq_true (hs.2.1 (k - 1) (by omega) (by omega))
  · exact of_decide_eq_false (hs.2.2 (k - 1 + 1) (by omega) (by omega))
  · rintro j ⟨hj, hjlow, hjhigh⟩
    have hpass := hs.lt_of_pass (by omega) (decide_eq_true hjlow)
    have hfail := hs.le_of_fail hj (decide_eq_false hjhigh)
    omega

end Scalar

section Exact

/-- Levels that increase strictly from first to last. -/
def Increasing
    (levels : Array ℝ) : Prop :=
  ∀ i j (hi : i < levels.size) (hj : j < levels.size), i < j → levels[i] < levels[j]

variable {levels values : Array ℝ}

/-- Increasing levels are those whose entries are pairwise in order. -/
theorem increasing_iff_pairwise :
    Increasing levels ↔ levels.Pairwise (· < ·) :=
  Array.pairwise_iff_getElem.symm

/-- Interpolation at a level reads the value stored at that level. -/
theorem valueAt_level
    (hinc : Increasing levels)
    (hsize : values.size = levels.size)
    {j : Nat}
    (hj : j < levels.size) :
    valueAt levels values levels[j] = values[j] := by
  have hpair := increasing_iff_pairwise.mp hinc
  by_cases hnext : j + 1 < levels.size
  · have hhigh : ¬levels[j + 1] ≤ levels[j] := not_le.mpr (hinc j (j + 1) hj hnext (by omega))
    rw [valueAt_of_between Exact.le_of_lt_of_le hpair hsize hnext le_rfl hhigh, sub_self,
      zero_div, zero_mul, add_zero]
  · obtain rfl : j = levels.size - 1 := by omega
    exact valueAt_of_le_last Exact.le_of_lt_of_le hpair hsize (by omega) le_rfl

/-- Interpolating a profile back onto its own increasing levels returns the profile. -/
theorem interpolate_self
    (hinc : Increasing levels)
    (hsize : values.size = levels.size) :
    interpolate levels values levels = values := by
  apply Array.ext
  · rw [size_interpolate, hsize]
  · intro j hj _
    simp only [interpolate, Array.getElem_map]
    rw [size_interpolate] at hj
    exact valueAt_level hinc hsize hj

/-- Between two neighbouring levels, interpolation reads the chord between their values. -/
theorem valueAt_chord
    (hinc : Increasing levels)
    (hsize : values.size = levels.size)
    {k : Nat}
    (hk : k + 1 < levels.size)
    {z : ℝ}
    (hlow : levels[k] ≤ z)
    (hhigh : z ≤ levels[k + 1]) :
    valueAt levels values z =
      values[k] + (z - levels[k]) / (levels[k + 1] - levels[k]) * (values[k + 1] - values[k]) := by
  have hgap : levels[k] < levels[k + 1] := hinc k (k + 1) (by omega) hk (by omega)
  rcases hhigh.lt_or_eq with hbelow | htop
  · exact valueAt_of_between Exact.le_of_lt_of_le (increasing_iff_pairwise.mp hinc) hsize hk hlow
      (not_le.mpr hbelow)
  · rw [htop, valueAt_level hinc hsize hk, div_self (sub_pos.mpr hgap).ne', one_mul]
    ring

/-- Interpolating a profile on the line `a + b·z` reads the line back at every height between the
first and the last level. -/
theorem valueAt_affine
    (hinc : Increasing levels)
    (a b : ℝ) {z : ℝ}
    (hsize : 0 < levels.size)
    (hlow : levels[0] ≤ z)
    (hhigh : z ≤ levels[levels.size - 1]) :
    valueAt levels (levels.map fun y => a + b * y) z = a + b * z := by
  have hpair := increasing_iff_pairwise.mp hinc
  have hvalues : (levels.map fun y => a + b * y).size = levels.size := Array.size_map ..
  by_cases htop : levels[levels.size - 1] ≤ z
  · rw [valueAt_of_le_last Exact.le_of_lt_of_le hpair hvalues hsize htop, Array.getElem_map,
      le_antisymm hhigh htop]
  · obtain ⟨j, ⟨hj, hjlow, hjhigh⟩, -⟩ :=
      existsUnique_between Exact.le_of_lt_of_le hpair hsize hlow htop
    have hgap : levels[j] < levels[j + 1] := hinc j (j + 1) (by omega) hj (by omega)
    rw [valueAt_of_between Exact.le_of_lt_of_le hpair hvalues hj hjlow hjhigh, Array.getElem_map,
      Array.getElem_map]
    field_simp [(sub_pos.mpr hgap).ne']
    ring

/-- Interpolating a profile on a line onto heights between the first and the last level gives the
line at those heights. -/
theorem interpolate_affine
    (hinc : Increasing levels)
    (a b : ℝ) {heights : Array ℝ}
    (hsize : 0 < levels.size)
    (hrange : ∀ z ∈ heights, levels[0] ≤ z ∧ z ≤ levels[levels.size - 1]) :
    interpolate levels (levels.map fun y => a + b * y) heights = heights.map fun y => a + b * y :=
  Array.map_congr_left fun z hz =>
    valueAt_affine hinc a b hsize (hrange z hz).1 (hrange z hz).2

/-- In exact arithmetic interpolation never leaves an interval that holds every value. -/
theorem valueAt_mem_Icc
    (hinc : levels.Pairwise (· < ·))
    (hsize : values.size = levels.size)
    (hm : 0 < levels.size)
    {lo hi : ℝ}
    (hvalues : ∀ v ∈ values, v ∈ Set.Icc lo hi)
    (z : ℝ) :
    valueAt levels values z ∈ Set.Icc lo hi := by
  have hchain := Exact.le_of_lt_of_le
  by_cases hfirst : levels[0] ≤ z
  · by_cases hlast : levels[levels.size - 1] ≤ z
    · rw [valueAt_of_le_last hchain hinc hsize hm hlast]
      exact hvalues _ (Array.getElem_mem _)
    · obtain ⟨j, ⟨hj, hlow, hhigh⟩, -⟩ := existsUnique_between hchain hinc hm hfirst hlast
      rw [valueAt_of_between hchain hinc hsize hj hlow hhigh]
      have hgap : 0 < levels[j + 1] - levels[j] :=
        sub_pos.mpr (Array.pairwise_iff_getElem.mp hinc j (j + 1) (by omega) hj (by omega))
      have hweight : (z - levels[j]) / (levels[j + 1] - levels[j]) ∈ Set.Icc (0 : ℝ) 1 :=
        ⟨div_nonneg (sub_nonneg.mpr hlow) hgap.le,
          (div_le_one hgap).mpr (by linarith [not_le.mp hhigh])⟩
      have hvj : j + 1 < values.size := by omega
      have hchord := (convex_Icc lo hi).add_smul_sub_mem (hvalues values[j] (Array.getElem_mem _))
        (hvalues values[j + 1] (Array.getElem_mem _)) hweight
      rwa [smul_eq_mul] at hchord
  · rw [valueAt_of_not_le_first hchain hinc hsize hm hfirst]
    exact hvalues _ (Array.getElem_mem _)

end Exact

/-- Interpolation returns one value per height, in order.  Over every scalar whose comparisons
chain, on strictly increasing levels with one value each, the value at a height `z` is the first
value when the first level is not at most `z`, the last value when the last level is, and
otherwise the value on the chord over the one pair of neighbouring levels with `zⱼ ≤ z` and
`zⱼ₊₁` not at most `z`.  In exact arithmetic, interpolating at the levels themselves copies the
values, a profile on a line is read back on the line between the first and the last level, and
no value read leaves an interval that holds all the values. -/
theorem interpolate_piecewise_linear :
    (∀ {α : Type} [Scalar α], (∀ x y w : α, x < y → y ≤ w → x ≤ w) →
      ∀ (levels values heights : Array α) (hm : 0 < levels.size),
        levels.Pairwise (· < ·) → ∀ (hsize : values.size = levels.size),
        (interpolate levels values heights).toList = heights.toList.map (valueAt levels values) ∧
        ∀ z : α,
          (¬levels[0] ≤ z → valueAt levels values z = values[0]) ∧
          (levels.back hm ≤ z → valueAt levels values z = values.back (hsize ▸ hm)) ∧
          (levels[0] ≤ z → ¬levels.back hm ≤ z →
            ∃! j, ∃ hj : j + 1 < levels.size, levels[j] ≤ z ∧ ¬levels[j + 1] ≤ z) ∧
          ∀ j (hj : j + 1 < levels.size), levels[j] ≤ z → ¬levels[j + 1] ≤ z →
            valueAt levels values z =
              values[j] + (z - levels[j]) / (levels[j + 1] - levels[j]) *
                (values[j + 1] - values[j])) ∧
      ∀ (levels values : Array ℝ) (hm : 0 < levels.size),
        levels.Pairwise (· < ·) → values.size = levels.size →
        interpolate levels values levels = values ∧
        (∀ z : ℝ, levels[0] ≤ z → z ≤ levels.back hm → ∀ a b : ℝ,
          valueAt levels (levels.map fun y => a + b * y) z = a + b * z) ∧
        ∀ z lo hi : ℝ, (∀ v ∈ values, v ∈ Set.Icc lo hi) → valueAt levels values z ∈ Set.Icc lo hi := by
  refine ⟨fun hchain levels values heights hm hinc hsize => ⟨by simp [interpolate], fun z => ?_⟩,
    fun levels values hm hinc hsize =>
      ⟨interpolate_self (increasing_iff_pairwise.mpr hinc) hsize, fun z hlow hhigh a b => ?_,
        fun z lo hi hvalues => valueAt_mem_Icc hinc hsize hm hvalues z⟩⟩
  · refine ⟨valueAt_of_not_le_first hchain hinc hsize hm, fun hz => ?_, fun hlow hhigh => ?_,
      fun j hj => valueAt_of_between hchain hinc hsize hj⟩
    · rw [Array.back_eq_getElem] at hz
      rw [valueAt_of_le_last hchain hinc hsize hm hz, Array.back_eq_getElem]
      simp only [hsize]
    · rw [Array.back_eq_getElem] at hhigh
      exact existsUnique_between hchain hinc hm hlow hhigh
  · rw [Array.back_eq_getElem] at hhigh
    exact valueAt_affine (increasing_iff_pairwise.mpr hinc) a b hm hlow hhigh

/-- On the levels `0, 2, 4` holding `1, 5, 3`, the heights `-1, 0, …, 5` read the first value
below the levels, the chords between them and the last value above them, all within `[1, 5]`. -/
theorem interpolate_piecewise_linear_coarse :
    ((0 : ℕ) < (#[0, 2, 4] : Array ℝ).size ∧ (#[0, 2, 4] : Array ℝ).Pairwise (· < ·) ∧
        (#[1, 5, 3] : Array ℝ).size = (#[0, 2, 4] : Array ℝ).size) ∧
      interpolate (#[0, 2, 4] : Array ℝ) #[1, 5, 3] #[-1, 0, 1, 2, 3, 4, 5] =
        #[1, 1, 3, 5, 4, 3, 3] ∧
      ∀ z : ℝ, valueAt (#[0, 2, 4] : Array ℝ) #[1, 5, 3] z ∈ Set.Icc 1 5 := by
  have hinc : (#[0, 2, 4] : Array ℝ).Pairwise (· < ·) := by
    simp [Array.Pairwise]
    norm_num
  obtain ⟨hlist, hcases⟩ := interpolate_piecewise_linear.1 Exact.le_of_lt_of_le
    (#[0, 2, 4] : Array ℝ) #[1, 5, 3] #[-1, 0, 1, 2, 3, 4, 5] (by decide) hinc rfl
  refine ⟨⟨by decide, hinc, rfl⟩, Array.toList_inj.mp ?_, fun z =>
    (interpolate_piecewise_linear.2 (#[0, 2, 4] : Array ℝ) #[1, 5, 3] (by decide) hinc
      rfl).2.2 z 1 5 (by simp; norm_num)⟩
  rw [hlist]
  have below := (hcases (-1)).1
  have above₄ := (hcases 4).2.1
  have above₅ := (hcases 5).2.1
  have chord₀ := (hcases 0).2.2.2 0 (by decide)
  have chord₁ := (hcases 1).2.2.2 0 (by decide)
  have chord₂ := (hcases 2).2.2.2 1 (by decide)
  have chord₃ := (hcases 3).2.2.2 1 (by decide)
  norm_num [Array.back_eq_getElem] at below above₄ above₅ chord₀ chord₁ chord₂ chord₃
  simp [below, above₄, above₅, chord₀, chord₁, chord₂, chord₃]

end Interpolation
end IceEnthalpy
