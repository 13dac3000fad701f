import IceEnthalpy.Proofs.Tridiagonal

/-!
# The pivots of elimination

Elimination divides every row by its pivot.  Written with the coefficients alone, the pivots
are `p₀ = diag₀` and `pᵢ = diagᵢ - lowerᵢ·upperᵢ₋₁/pᵢ₋₁`: the multiplier `cᵢ₋₁` that the
algorithm carries down is `upperᵢ₋₁/pᵢ₋₁`, whatever the right-hand sides.

Read exactly, every value is finite, so a solve can only refuse a pivot.  It refuses the first
pivot whose magnitude is below the smallest normal number `2⁻¹⁰²²`, at that pivot's row, and
otherwise returns; what it returns is then the one vector that satisfies the rows.
-/

namespace IceEnthalpy
namespace Tridiagonal

/-- The pivot of a row, given the pivot `q` and the coefficient above `u` of the row before
it; the first row has no row before it, and its pivot is its diagonal. -/
noncomputable def pivotAfter (before : Option (ℝ × ℝ)) (r : Row ℝ) : ℝ :=
  match before with
  | none => r.diag
  | some (q, u) => r.diag - r.lower * u / q

/-- The pivots of rows in closed form, `p₀ = diag₀` and `pᵢ = diagᵢ - lowerᵢ·upperᵢ₋₁/pᵢ₋₁`,
from the row before them. -/
noncomputable def pivots : Option (ℝ × ℝ) → List (Row ℝ) → List ℝ
  | _, [] => []
  | before, r :: rest =>
      pivotAfter before r :: pivots (some (pivotAfter before r, r.upper)) rest

/-- The reduced row above carries the multiplier `u/q` of the row before: elimination and the
closed form start from the same place. -/
def Tracks : Option (ℝ × ℝ) → Option (ℝ × ℝ) → Prop
  | none, none => True
  | some (c, _), some (q, u) => c = u / q
  | _, _ => False

@[simp] theorem length_pivots (before : Option (ℝ × ℝ)) (rows : List (Row ℝ)) :
    (pivots before rows).length = rows.length := by
  induction rows generalizing before with
  | nil => rfl
  | cons r rest ih => simp [pivots, ih]

/-- Over the reals a pivot is refused exactly when its magnitude is below `2⁻¹⁰²²`. -/
theorem singular_iff {p : ℝ} : singular p = true ↔ |p| < Scalar.minNormal := by
  simp only [singular, Exact.abs_eq, Exact.isFinite_eq, Bool.not_true, Bool.or_false,
    decide_eq_true_eq]

theorem pivot_of_tracks
    {above before : Option (ℝ × ℝ)}
    (r : Row ℝ)
    (htracks : Tracks above before) :
    pivot above r = pivotAfter before r := by
  match above, before, htracks with
  | none, none, _ => rfl
  | some (c, d), some (q, u), htracks =>
      simp only [Tracks] at htracks
      simp only [pivot, pivotAfter, htracks, mul_div_assoc]

/-- Past a row, elimination carries `upper/p` down, as the closed form does. -/
theorem tracks_after
    {above before : Option (ℝ × ℝ)}
    (r : Row ℝ) (d : ℝ)
    (htracks : Tracks above before) :
    Tracks (some (r.upper / pivot above r, d)) (some (pivotAfter before r, r.upper)) := by
  rw [pivot_of_tracks r htracks]
  rfl

/-- A row whose pivot in closed form reaches the smallest normal magnitude is not refused. -/
theorem singular_eq_false_of_tracks
    {above before : Option (ℝ × ℝ)} {r : Row ℝ}
    (htracks : Tracks above before)
    (hpivot : Scalar.minNormal ≤ |pivotAfter before r|) :
    singular (pivot above r) = false := by
  rw [Bool.eq_false_iff, ne_eq, singular_iff, not_lt, pivot_of_tracks r htracks]
  exact hpivot

/-- Elimination refuses no row when every pivot reaches the smallest normal magnitude. -/
theorem eliminate_ok_of_pivots :
    ∀ {rows : List (Row ℝ)} {above before : Option (ℝ × ℝ)} (k : Nat),
      Tracks above before →
      (∀ p ∈ pivots before rows, Scalar.minNormal ≤ |p|) →
      ∃ reduced, eliminate above k rows = .ok reduced
  | [], _, _, _, _, _ => ⟨[], rfl⟩
  | [r], above, before, index, htracks, hpivots => by
      have hp := singular_eq_false_of_tracks htracks (hpivots _ List.mem_cons_self)
      exact ⟨_, eliminate_singleton hp⟩
  | r :: r' :: rows, above, before, index, htracks, hpivots => by
      have hp := singular_eq_false_of_tracks htracks (hpivots _ List.mem_cons_self)
      have hnext := tracks_after r (reducedRhs above r (pivot above r)) htracks
      obtain ⟨tail, htail⟩ := eliminate_ok_of_pivots (index + 1) hnext
        (fun p hp => hpivots p (List.mem_cons_of_mem _ hp))
      rw [eliminate_cons_cons hp, htail]
      exact ⟨_, rfl⟩

/-- Elimination refuses the first pivot below the smallest normal magnitude, at its row. -/
theorem eliminate_eq_error_of_pivots :
    ∀ {rows : List (Row ℝ)} {above before : Option (ℝ × ℝ)} (index : Nat) {j : Nat},
      Tracks above before →
      (hj : j < (pivots before rows).length) →
      |(pivots before rows)[j]| < Scalar.minNormal →
      (∀ p ∈ (pivots before rows).take j, Scalar.minNormal ≤ |p|) →
      eliminate above index rows =
        .error (.singularPivot (pivots before rows)[j] (index + j))
  | [], _, _, _, _, _, hj, _, _ => by simp at hj
  | r :: rest, above, before, index, 0, htracks, _, hsmall, _ => by
      have hp : singular (pivotAfter before r) = true := singular_iff.mpr hsmall
      rw [eliminate]
      simp only [pivot_of_tracks r htracks, hp, ↓reduceIte]
      rfl
  | r :: rest, above, before, index, j + 1, htracks, hj, hsmall, hfirst => by
      have hp := singular_eq_false_of_tracks (r := r) htracks (hfirst _ (by simp [pivots]))
      cases rest with
      | nil => simp [pivots] at hj
      | cons r' rows =>
          have hnext := tracks_after r (reducedRhs above r (pivot above r)) htracks
          have hj' : j < (pivots (some (pivotAfter before r, r.upper)) (r' :: rows)).length := by
            simp only [length_pivots, List.length_cons] at hj ⊢
            omega
          have hrest := eliminate_eq_error_of_pivots (index + 1) hnext hj'
            (by simpa [pivots] using hsmall)
            (fun p hp => hfirst p (by simp only [pivots, List.take_succ_cons]; exact .tail _ hp))
          rw [eliminate_cons_cons hp, hrest]
          simp only [pivots, List.getElem_cons_succ, Except.map]
          rw [Nat.add_right_comm, Nat.add_assoc]

/-- The first of a list of pivots that falls below the smallest normal magnitude, when one
does. -/
theorem exists_first_small
    {ps : List ℝ}
    (h : ∃ p ∈ ps, |p| < Scalar.minNormal) :
    ∃ j, ∃ hj : j < ps.length, |ps[j]| < Scalar.minNormal ∧
      ∀ p ∈ ps.take j, Scalar.minNormal ≤ |p| := by
  have hlt : ps.findIdx (fun p => decide (|p| < Scalar.minNormal)) < ps.length :=
    List.findIdx_lt_length_of_exists (by simpa using h)
  refine ⟨_, hlt, by simpa using List.findIdx_getElem (w := hlt), fun p hp => ?_⟩
  obtain ⟨i, hi, rfl⟩ := List.mem_take_iff_getElem.mp hp
  have hbefore := List.not_of_lt_findIdx (lt_of_lt_of_le hi (Nat.min_le_left _ _))
  simpa using hbefore

/-- Read exactly, a solve returns what substitution makes of the reduced rows, or the refusal
of elimination. -/
theorem solve_eq_map_substitute (rows : List (Row ℝ)) :
    solve rows = (eliminate none 0 rows).map substitute := by
  unfold solve
  cases eliminate none 0 rows with
  | error e => rfl
  | ok reduced =>
      rw [Outcome.ok_bind]
      have hnone : (substitute reduced).findIdx? (fun v => !Scalar.isFinite v) = none := by
        simp
      simp only [hnone]
      rfl

/-- Read exactly, a solve returns exactly when every pivot `p₀ = diag₀`,
`pᵢ = diagᵢ - lowerᵢ·upperᵢ₋₁/pᵢ₋₁` has a magnitude of at least `2⁻¹⁰²²`.  It then returns the one
vector that satisfies the rows, the first row's coefficient below and the last row's coefficient
above being ignored; otherwise it refuses the first pivot below `2⁻¹⁰²²`, at its row. -/
theorem solve_eq_ok_iff_pivots (rows : List (Row ℝ)) :
    ((∃ xs, solve rows = .ok xs) ↔ ∀ p ∈ pivots none rows, 2 ^ (-1022 : ℤ) ≤ |p|) ∧
      (∀ xs, solve rows = .ok xs → Solves 0 rows xs ∧ ∀ ys, Solves 0 rows ys → ys = xs) ∧
      ∀ j (hj : j < (pivots none rows).length),
        |(pivots none rows)[j]| < 2 ^ (-1022 : ℤ) →
        (∀ p ∈ (pivots none rows).take j, 2 ^ (-1022 : ℤ) ≤ |p|) →
        solve rows = .error (.singularPivot (pivots none rows)[j] j) := by
  simp only [← Exact.minNormal_eq]
  have hrefused : ∀ j (hj : j < (pivots none rows).length),
      |(pivots none rows)[j]| < Scalar.minNormal →
      (∀ p ∈ (pivots none rows).take j, Scalar.minNormal ≤ |p|) →
      solve rows = .error (.singularPivot (pivots none rows)[j] j) := by
    intro j hj hsmall hfirst
    rw [solve_eq_map_substitute,
      eliminate_eq_error_of_pivots 0 (show Tracks none none from trivial) hj hsmall hfirst,
      Nat.zero_add]
    rfl
  refine ⟨⟨fun ⟨xs, hxs⟩ => ?_, fun hpivots => ?_⟩, fun xs hxs => ?_, hrefused⟩
  · by_contra hsome
    push Not at hsome
    obtain ⟨j, hj, hsmall, hfirst⟩ := exists_first_small hsome
    rw [hrefused j hj hsmall hfirst] at hxs
    cases hxs
  · obtain ⟨reduced, helim⟩ := eliminate_ok_of_pivots 0 (show Tracks none none from trivial) hpivots
    rw [solve_eq_map_substitute, helim]
    exact ⟨_, rfl⟩
  · refine ⟨solves_of_solve hxs, fun ys hys => ?_⟩
    obtain ⟨reduced, helim, -⟩ := Outcome.map_eq_ok.mp (solve_eq_map_substitute rows ▸ hxs)
    rw [solve_eq_of_solves helim hys] at hxs
    exact Except.ok.inj hxs

/-- The rows `2x + y = 3` and `x + 2y = 3` have the pivots `2` and `3/2`, and their solve is
`x = y = 1`.  The row `x + y = 3` written twice has the pivots `1` and `1 - 1·1/1 = 0`, and its
solve refuses the second at row `1`. -/
theorem solve_eq_ok_iff_pivots_two_rows :
    solve ([⟨0, 2, 1, 3⟩, ⟨1, 2, 0, 3⟩] : List (Row ℝ)) = .ok [1, 1] ∧
      solve ([⟨0, 1, 1, 3⟩, ⟨1, 1, 0, 3⟩] : List (Row ℝ)) =
        .error (.singularPivot 0 1) := by
  have hregular : pivots none ([⟨0, 2, 1, 3⟩, ⟨1, 2, 0, 3⟩] : List (Row ℝ)) = [2, 3 / 2] := by
    norm_num [pivots, pivotAfter]
  have hsingular :
      pivots none ([⟨0, 1, 1, 3⟩, ⟨1, 1, 0, 3⟩] : List (Row ℝ)) = [1, 0] := by
    norm_num [pivots, pivotAfter]
  have hunit : (2 : ℝ) ^ (-1022 : ℤ) ≤ 1 := zpow_le_one_of_nonpos₀ (by norm_num) (by norm_num)
  obtain ⟨⟨-, hexists⟩, hunique, -⟩ := solve_eq_ok_iff_pivots [⟨0, 2, 1, 3⟩, ⟨1, 2, 0, 3⟩]
  obtain ⟨xs, hxs⟩ := hexists (by
    rw [hregular]
    intro p hp
    rcases List.mem_pair.mp hp with rfl | rfl <;> exact hunit.trans (by norm_num))
  have hone : Solves 0 [⟨0, 2, 1, 3⟩, ⟨1, 2, 0, 3⟩] [1, 1] := by
    norm_num [Solves]
  refine ⟨(hunique xs hxs).2 [1, 1] hone ▸ hxs, ?_⟩
  have hrefused := (solve_eq_ok_iff_pivots [⟨0, 1, 1, 3⟩, ⟨1, 1, 0, 3⟩]).2.2 1
    (by simp) (by simp [hsingular]) (by simpa [hsingular] using hunit)
  simpa [hsingular] using hrefused

end Tridiagonal
end IceEnthalpy
