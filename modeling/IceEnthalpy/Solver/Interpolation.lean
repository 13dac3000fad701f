import IceEnthalpy.Scalar

/-!
# Piecewise-linear interpolation between grids

A profile given at the levels `from` is read at other heights.  For each height `z`, the
level just above is found by halving: the search keeps a window `[base, base + size)`, looks at
the entry `half = size/2` into it, moves the window's start there when that entry is at most `z`,
and shrinks the window by `half`, until one entry is left; the answer is that entry's index,
plus one if the entry is at most `z`.  On increasing levels this is the number of levels at or
below `z`, and for a NaN height it is zero.

Below the first level the first value is taken, at or above the last level the last value;
between levels `j` and `j+1` the value is `v_j + w·(v_{j+1} - v_j)` with
`w = (z - z_j)/(z_{j+1} - z_j)`.
-/

namespace IceEnthalpy

namespace Interpolation

variable {α : Type} [Scalar α]

/-- The halving search within the window `[base, base + size)`: the index where it ends. -/
@[specialize] def narrow (levels : Array α) (atMost : α → Bool) (base size : Nat) : Nat :=
  if _h : size ≤ 1 then base
  else
    let half := size / 2
    let mid := base + half
    let next := if (levels[mid]?.map atMost).getD false then mid else base
    narrow levels atMost next (size - half)
termination_by size
decreasing_by omega

/-- The number of leading levels that the halving search finds to satisfy `atMost`. -/
@[specialize] def partitionPoint (levels : Array α) (atMost : α → Bool) : Nat :=
  if levels.size = 0 then 0
  else
    let base := narrow levels atMost 0 levels.size
    if (levels[base]?.map atMost).getD false then base + 1 else base

/-- The value at height `z` of the profile `values` given at the levels `from`. -/
def valueAt (levels values : Array α) (z : α) : α :=
  let last := levels.size - 1
  let upper := partitionPoint levels (· ≤ z)
  if upper = 0 then values.getD 0 0.0
  else if upper > last then values.getD last 0.0
  else
    let lower := upper - 1
    let zl := levels.getD lower 0.0
    let weight := (z - zl) / (levels.getD upper 0.0 - zl)
    let vl := values.getD lower 0.0
    vl + weight * (values.getD upper 0.0 - vl)

/-- The profile `values` given at the levels `from`, read at each of the `heights`. -/
def interpolate (levels values heights : Array α) : Array α :=
  heights.map (valueAt levels values)

@[simp] theorem size_interpolate (levels values heights : Array α) :
    (interpolate levels values heights).size = heights.size := by
  simp [interpolate]

end Interpolation

end IceEnthalpy
