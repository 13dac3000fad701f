import IceEnthalpy.Proofs.Basic
import IceEnthalpy.Study.Fit

/-!
# Power-law fits are least-squares lines

A fit checks its points in a fixed order and refuses them with the first check that fails; the
relation `Refuses` states each refusal with the checks that pass before it.  Whatever the scalar,
a fit fails exactly as `Refuses` says, and succeeds exactly when every check passes (`Fits`).

Read exactly, the slope and the intercept of a fit, computed from centred sums after two means,
are the one line that minimises the squared distance `Σᵢ (yᵢ - (s·xᵢ + b))²` of the points
`(log₁₀ pᵢ, log₁₀ eᵢ)`: the squared distance of any line exceeds the least one by
`Sxx·(s - s*)² + n·(ȳ - s·x̄ - b)²`.  So an exact power law is recovered, the order of the points
does not matter, and a change of unit of the parameters or of the errors moves the intercept
only.
-/

namespace IceEnthalpy

theorem Outcome.bind_cons_eq_error
    {ε β : Type} {x : Except ε (List β)} {b : β} {e : ε} :
    (x >>= fun bs => pure (b :: bs)) = .error e ↔ x = .error e := by
  cases x <;> simp [bind, Except.bind, pure, Except.pure]

namespace PowerLaw

section Checks

variable {α : Type} [Scalar α]

/-- A value whose logarithm a fit takes: positive and finite. -/
def Admissible (v : α) : Prop :=
  (0.0 : α) < v ∧ Scalar.isFinite v = true

/-- The step of `logs` at one entry: the logarithm of an admissible value, or the index and the
value. -/
def logAt (vi : α × Nat) : Except (Nat × α) α :=
  if (0.0 : α) < vi.1 && Scalar.isFinite vi.1 then .ok (Scalar.log10 vi.1) else .error (vi.2, vi.1)

theorem logs_eq (vs : List α) : logs vs = vs.zipIdx.mapM logAt := by
  unfold logs
  congr 1

theorem logAt_of_admissible {v : α} (i : Nat) (h : Admissible v) :
    logAt (v, i) = .ok (Scalar.log10 v) := by
  simp [logAt, h.1, h.2]

theorem logAt_of_not_admissible {v : α} (i : Nat) (h : ¬Admissible v) :
    logAt (v, i) = .error (i, v) := by
  unfold Admissible at h
  simp only [logAt, Bool.and_eq_true, decide_eq_true_eq]
  rw [if_neg h]

/-- The logarithms are taken when every value is admissible. -/
theorem mapM_logAt_eq_ok (vs : List α) (n : Nat) {ys : List α} :
    (vs.zipIdx n).mapM logAt = .ok ys ↔ (∀ v ∈ vs, Admissible v) ∧ ys = vs.map Scalar.log10 := by
  induction vs generalizing n ys with
  | nil => simp [pure, Except.pure, eq_comm]
  | cons v rest ih =>
    rw [List.zipIdx_cons, List.mapM_cons]
    by_cases hv : Admissible v
    · simp only [logAt_of_admissible n hv, Outcome.ok_bind, Outcome.bind_eq_ok, Outcome.pure_eq_ok,
        ih, List.forall_mem_cons, List.map_cons]
      constructor
      · rintro ⟨bs, ⟨hall, rfl⟩, rfl⟩
        exact ⟨⟨hv, hall⟩, rfl⟩
      · rintro ⟨⟨-, hall⟩, rfl⟩
        exact ⟨_, ⟨hall, rfl⟩, rfl⟩
    · simp [logAt_of_not_admissible n hv, hv, bind, Except.bind]

/-- Otherwise the first value that is not admissible is reported, with its index counted from
`n`. -/
theorem mapM_logAt_eq_error (vs : List α) (n : Nat) {i : Nat} {w : α} :
    (vs.zipIdx n).mapM logAt = .error (i, w) ↔
      ∃ k, ∃ hk : k < vs.length, i = n + k ∧ vs[k] = w ∧ ¬Admissible w ∧
        ∀ j (hj : j < k), Admissible vs[j] := by
  induction vs generalizing n with
  | nil => simp [pure, Except.pure]
  | cons v rest ih =>
    rw [List.zipIdx_cons, List.mapM_cons]
    by_cases hv : Admissible v
    · rw [logAt_of_admissible n hv, Outcome.ok_bind, Outcome.bind_cons_eq_error, ih]
      constructor
      · rintro ⟨k, hk, rfl, rfl, hw, hbefore⟩
        refine ⟨k + 1, by simpa using hk, by omega, rfl, hw, fun j hj => ?_⟩
        cases j with
        | zero => exact hv
        | succ j => exact hbefore j (by omega)
      · rintro ⟨k, hk, rfl, hwk, hw, hbefore⟩
        cases k with
        | zero => exact absurd (hwk ▸ hv) hw
        | succ k =>
            exact ⟨k, by simpa using hk, by omega, hwk, hw, fun j hj => hbefore (j + 1) (by omega)⟩
    · simp only [logAt_of_not_admissible n hv, bind, Except.bind, Except.error.injEq, Prod.mk.injEq]
      constructor
      · rintro ⟨rfl, rfl⟩
        exact ⟨0, by simp, by omega, rfl, hv, fun j hj => absurd hj (Nat.not_lt_zero j)⟩
      · rintro ⟨k, hk, rfl, hwk, hw, hbefore⟩
        cases k with
        | zero => exact ⟨by omega, hwk⟩
        | succ k => exact absurd (hbefore 0 (by omega)) hv

theorem logs_eq_ok (vs : List α) {ys : List α} :
    logs vs = .ok ys ↔ (∀ v ∈ vs, Admissible v) ∧ ys = vs.map Scalar.log10 := by
  rw [logs_eq]
  exact mapM_logAt_eq_ok vs 0

theorem logs_eq_error (vs : List α) {i : Nat} {w : α} :
    logs vs = .error (i, w) ↔
      ∃ hi : i < vs.length, vs[i] = w ∧ ¬Admissible w ∧ ∀ j (hj : j < i), Admissible vs[j] := by
  rw [logs_eq, mapM_logAt_eq_error vs 0]
  constructor
  · rintro ⟨k, hk, rfl, hw⟩
    simpa using ⟨hk, hw⟩
  · rintro ⟨hi, hw⟩
    exact ⟨i, hi, by omega, hw⟩

/-- The points pass every check of a fit: as many parameters as errors, at least two, every
value positive and finite, and neither all log-parameters nor all log-errors equal. -/
structure Fits (ps es : List α) : Prop where
  length_eq : ps.length = es.length
  two_le : 2 ≤ ps.length
  parameters : ∀ p ∈ ps, Admissible p
  errors : ∀ e ∈ es, Admissible e
  spread : allEqual (ps.map Scalar.log10) = false
  varies : allEqual (es.map Scalar.log10) = false

/-- The refusal of a fit, by the first check that the points fail: different lengths, fewer than
two points, the first parameter and then the first error that is not positive and finite, all
log-parameters equal, and then all log-errors equal. -/
inductive Refuses (ps es : List α) : FitError α → Prop where
  | lengthMismatch
      (h : ps.length ≠ es.length) :
      Refuses ps es (.lengthMismatch ps.length es.length)
  | tooFewPoints
      (hlen : ps.length = es.length)
      (h : ps.length < 2) :
      Refuses ps es (.tooFewPoints ps.length)
  | invalidParameter
      {i : Nat} (hi : i < ps.length)
      (hlen : ps.length = es.length)
      (htwo : 2 ≤ ps.length)
      (hbefore : ∀ j (hj : j < i), Admissible ps[j])
      (h : ¬Admissible ps[i]) :
      Refuses ps es (.invalidParameter i ps[i])
  | invalidError
      {i : Nat} (hi : i < es.length)
      (hlen : ps.length = es.length)
      (htwo : 2 ≤ ps.length)
      (hparameters : ∀ p ∈ ps, Admissible p)
      (hbefore : ∀ j (hj : j < i), Admissible es[j])
      (h : ¬Admissible es[i]) :
      Refuses ps es (.invalidError i es[i])
  | degenerateParameters
      (hlen : ps.length = es.length)
      (htwo : 2 ≤ ps.length)
      (hparameters : ∀ p ∈ ps, Admissible p)
      (herrors : ∀ e ∈ es, Admissible e)
      (h : allEqual (ps.map Scalar.log10) = true) :
      Refuses ps es .degenerateParameters
  | constantError
      (hlen : ps.length = es.length)
      (htwo : 2 ≤ ps.length)
      (hparameters : ∀ p ∈ ps, Admissible p)
      (herrors : ∀ e ∈ es, Admissible e)
      (hspread : allEqual (ps.map Scalar.log10) = false)
      (h : allEqual (es.map Scalar.log10) = true) :
      Refuses ps es .constantError

/-- The least-squares line through the points `(xᵢ, yᵢ)` by centred sums after two means, as a fit
computes it. -/
def line (x y : List α) : PowerLaw α :=
  let n : α := Scalar.ofNat x.length
  let xMean := total x / n
  let yMean := total y / n
  let (sxx, sxy) := (x.zip y).foldl
    (fun (sxx, sxy) (xi, yi) =>
      let dx := xi - xMean
      (sxx + dx * dx, sxy + dx * (yi - yMean)))
    ((0.0 : α), (0.0 : α))
  let slope := sxy / sxx
  ⟨slope, yMean - slope * xMean⟩

variable {ps es : List α}

theorem fit_of_length_ne
    (h : ps.length ≠ es.length) :
    fit ps es = .error (.lengthMismatch ps.length es.length) := by
  unfold fit
  rw [if_pos h]
  rfl

theorem fit_of_lt_two
    (hlen : ps.length = es.length)
    (h : ps.length < 2) :
    fit ps es = .error (.tooFewPoints ps.length) := by
  unfold fit
  rw [if_neg (not_not.mpr hlen), if_pos h]
  rfl

theorem fit_of_parameter
    (hlen : ps.length = es.length)
    (htwo : 2 ≤ ps.length)
    {i : Nat} {v : α}
    (h : logs ps = .error (i, v)) :
    fit ps es = .error (.invalidParameter i v) := by
  unfold fit
  rw [if_neg (not_not.mpr hlen), if_neg (by omega), h]
  rfl

theorem fit_of_error
    (hlen : ps.length = es.length)
    (htwo : 2 ≤ ps.length)
    (hx : logs ps = .ok (ps.map Scalar.log10))
    {i : Nat} {v : α}
    (h : logs es = .error (i, v)) :
    fit ps es = .error (.invalidError i v) := by
  unfold fit
  rw [if_neg (not_not.mpr hlen), if_neg (by omega), hx, h]
  rfl

theorem fit_of_degenerate
    (hlen : ps.length = es.length)
    (htwo : 2 ≤ ps.length)
    (hx : logs ps = .ok (ps.map Scalar.log10))
    (hy : logs es = .ok (es.map Scalar.log10))
    (h : allEqual (ps.map Scalar.log10) = true) :
    fit ps es = .error .degenerateParameters := by
  unfold fit
  rw [if_neg (not_not.mpr hlen), if_neg (by omega), hx, hy]
  simp only [Except.mapError, Outcome.ok_bind, h, ↓reduceIte]
  rfl

theorem fit_of_constant
    (hlen : ps.length = es.length)
    (htwo : 2 ≤ ps.length)
    (hx : logs ps = .ok (ps.map Scalar.log10))
    (hy : logs es = .ok (es.map Scalar.log10))
    (hspread : allEqual (ps.map Scalar.log10) = false)
    (h : allEqual (es.map Scalar.log10) = true) :
    fit ps es = .error .constantError := by
  unfold fit
  rw [if_neg (not_not.mpr hlen), if_neg (by omega), hx, hy]
  simp only [Except.mapError, Outcome.ok_bind, hspread, h, Bool.false_eq_true, ↓reduceIte]
  rfl

/-- Points that pass every check are fitted with the least-squares line of their logarithms. -/
theorem fit_of_fits
    (h : Fits ps es) :
    fit ps es = .ok (line (ps.map Scalar.log10) (es.map Scalar.log10)) := by
  have hx := (logs_eq_ok ps).mpr ⟨h.parameters, rfl⟩
  have hy := (logs_eq_ok es).mpr ⟨h.errors, rfl⟩
  unfold fit
  rw [if_neg (not_not.mpr h.length_eq), if_neg (by have := h.two_le; omega), hx, hy]
  simp only [Except.mapError, Outcome.ok_bind, h.spread, h.varies, Bool.false_eq_true, ↓reduceIte]
  rfl

/-- A fit either succeeds on points that pass every check, or fails as `Refuses` says. -/
theorem fit_cases
    (ps es : List α) :
    (Fits ps es ∧ fit ps es = .ok (line (ps.map Scalar.log10) (es.map Scalar.log10))) ∨
      ∃ err, Refuses ps es err ∧ fit ps es = .error err := by
  by_cases hlen : ps.length = es.length
  swap
  · exact .inr ⟨_, .lengthMismatch hlen, fit_of_length_ne hlen⟩
  by_cases htwo : ps.length < 2
  · exact .inr ⟨_, .tooFewPoints hlen htwo, fit_of_lt_two hlen htwo⟩
  have htwo' : 2 ≤ ps.length := by omega
  cases hx : logs ps with
  | error iv =>
      obtain ⟨i, v⟩ := iv
      obtain ⟨hi, rfl, hv, hbefore⟩ := (logs_eq_error ps).mp hx
      exact .inr ⟨_, .invalidParameter hi hlen htwo' hbefore hv, fit_of_parameter hlen htwo' hx⟩
  | ok xs =>
      obtain ⟨hparameters, rfl⟩ := (logs_eq_ok ps).mp hx
      cases hy : logs es with
      | error iv =>
          obtain ⟨i, v⟩ := iv
          obtain ⟨hi, rfl, hv, hbefore⟩ := (logs_eq_error es).mp hy
          exact .inr ⟨_, .invalidError hi hlen htwo' hparameters hbefore hv,
            fit_of_error hlen htwo' hx hy⟩
      | ok ys =>
          obtain ⟨herrors, rfl⟩ := (logs_eq_ok es).mp hy
          cases hspread : allEqual (ps.map Scalar.log10)
          · cases hvaries : allEqual (es.map Scalar.log10)
            · have hfits : Fits ps es := ⟨hlen, htwo', hparameters, herrors, hspread, hvaries⟩
              exact .inl ⟨hfits, fit_of_fits hfits⟩
            · exact .inr ⟨_, .constantError hlen htwo' hparameters herrors hspread hvaries,
                fit_of_constant hlen htwo' hx hy hspread hvaries⟩
          · exact .inr ⟨_, .degenerateParameters hlen htwo' hparameters herrors hspread,
              fit_of_degenerate hlen htwo' hx hy hspread⟩

/-- Each refusal is what the fit returns. -/
theorem fit_of_refuses
    {err : FitError α}
    (h : Refuses ps es err) :
    fit ps es = .error err := by
  cases h with
  | lengthMismatch h => exact fit_of_length_ne h
  | tooFewPoints hlen h => exact fit_of_lt_two hlen h
  | invalidParameter hi hlen htwo hbefore h =>
      exact fit_of_parameter hlen htwo ((logs_eq_error ps).mpr ⟨hi, rfl, h, hbefore⟩)
  | invalidError hi hlen htwo hparameters hbefore h =>
      exact fit_of_error hlen htwo ((logs_eq_ok ps).mpr ⟨hparameters, rfl⟩)
        ((logs_eq_error es).mpr ⟨hi, rfl, h, hbefore⟩)
  | degenerateParameters hlen htwo hparameters herrors h =>
      exact fit_of_degenerate hlen htwo ((logs_eq_ok ps).mpr ⟨hparameters, rfl⟩)
        ((logs_eq_ok es).mpr ⟨herrors, rfl⟩) h
  | constantError hlen htwo hparameters herrors hspread h =>
      exact fit_of_constant hlen htwo ((logs_eq_ok ps).mpr ⟨hparameters, rfl⟩)
        ((logs_eq_ok es).mpr ⟨herrors, rfl⟩) hspread h

/-- A fit fails exactly with the refusal of the first check that the points fail. -/
theorem fit_eq_error_iff
    {err : FitError α} :
    fit ps es = .error err ↔ Refuses ps es err := by
  refine ⟨fun h => ?_, fit_of_refuses⟩
  rcases fit_cases ps es with ⟨-, hok⟩ | ⟨err', hrefuses, herr⟩
  · rw [hok] at h
    cases h
  · rw [herr, Except.error.injEq] at h
    exact h ▸ hrefuses

/-- A fit succeeds exactly when the points pass every check. -/
theorem fit_eq_ok_iff_fits :
    (∃ law, fit ps es = .ok law) ↔ Fits ps es := by
  constructor
  · rintro ⟨law, h⟩
    rcases fit_cases ps es with ⟨hfits, -⟩ | ⟨err, -, herr⟩
    · exact hfits
    · rw [herr] at h
      cases h
  · intro h
    exact ⟨_, fit_of_fits h⟩

end Checks

section Exact

@[simp] theorem log10_eq (x : ℝ) : Scalar.log10 x = Real.logb 10 x := rfl

/-- Over the reals every value is finite, so a value is admissible exactly when it is positive. -/
@[simp] theorem admissible_iff (v : ℝ) : Admissible v ↔ 0 < v := by
  simp only [Admissible, Exact.isFinite_eq, and_true]
  norm_num

/-- Over the reals, all entries equal the first exactly when any two entries are equal. -/
theorem allEqual_iff (xs : List ℝ) : allEqual xs = true ↔ ∀ a ∈ xs, ∀ b ∈ xs, a = b := by
  cases xs with
  | nil => simp [allEqual]
  | cons x rest =>
      simp only [allEqual, List.all_eq_true, Exact.beq_eq, decide_eq_true_eq, List.mem_cons]
      constructor
      · intro h a ha b hb
        rcases ha with rfl | ha <;> rcases hb with rfl | hb
        · rfl
        · exact (h b hb).symm
        · exact h a ha
        · exact (h a ha).trans (h b hb).symm
      · intro h y hy
        exact h y (.inr hy) x (.inl rfl)

theorem allEqual_perm {xs ys : List ℝ} (h : xs.Perm ys) : allEqual xs = allEqual ys := by
  rw [Bool.eq_iff_iff, allEqual_iff, allEqual_iff]
  simp only [h.mem_iff]

/-- Adding the same number to every entry keeps them equal or unequal. -/
theorem allEqual_map_add (k : ℝ) (xs : List ℝ) : allEqual (xs.map (k + ·)) = allEqual xs := by
  rw [Bool.eq_iff_iff, allEqual_iff, allEqual_iff]
  simp only [List.mem_map, forall_exists_index, and_imp, forall_apply_eq_imp_iff₂, add_right_inj]

theorem total_eq (xs : List ℝ) : total xs = xs.sum := by
  have hfold : ∀ a : ℝ, xs.foldl (· + ·) a = a + xs.sum := by
    induction xs with
    | nil => simp
    | cons x rest ih =>
        intro a
        rw [List.foldl_cons, ih, List.sum_cons, add_assoc]
  rw [total, hfold]
  norm_num

/-- A fold that adds `g` and `h` of each point to a pair adds up their sums. -/
theorem foldl_sums
    {f : ℝ × ℝ → ℝ × ℝ → ℝ × ℝ} {g h : ℝ × ℝ → ℝ}
    (hf : ∀ a b x y, f (a, b) (x, y) = (a + g (x, y), b + h (x, y)))
    (pts : List (ℝ × ℝ)) (a b : ℝ) :
    pts.foldl f (a, b) = (a + (pts.map g).sum, b + (pts.map h).sum) := by
  induction pts generalizing a b with
  | nil => simp
  | cons pt pts ih =>
      obtain ⟨x, y⟩ := pt
      rw [List.foldl_cons, hf, ih, List.map_cons, List.map_cons, List.sum_cons, List.sum_cons,
        add_assoc, add_assoc]

/-- The squared distance `Σᵢ (yᵢ - (s·xᵢ + b))²` of the points from the line of a law. -/
noncomputable def squaredError (law : PowerLaw ℝ) (pts : List (ℝ × ℝ)) : ℝ :=
  (pts.map fun pt => (pt.2 - (law.slope * pt.1 + law.intercept)) ^ 2).sum

/-- The line of the law is closer to the points, in the squared distance, than every other line. -/
def LeastSquares (pts : List (ℝ × ℝ)) (law : PowerLaw ℝ) : Prop :=
  ∀ other : PowerLaw ℝ, law.squaredError pts ≤ other.squaredError pts ∧
    (other.squaredError pts = law.squaredError pts → other = law)

/-- The points of a fit in log–log coordinates, `(log₁₀ pᵢ, log₁₀ eᵢ)`. -/
noncomputable def logPoints (ps es : List ℝ) : List (ℝ × ℝ) :=
  (ps.map (Real.logb 10)).zip (es.map (Real.logb 10))

theorem LeastSquares.unique
    {pts : List (ℝ × ℝ)} {law law' : PowerLaw ℝ}
    (h : LeastSquares pts law) (h' : LeastSquares pts law') :
    law' = law :=
  (h law').2 (le_antisymm (h' law).1 (h law').1)

theorem squaredError_nonneg (law : PowerLaw ℝ) (pts : List (ℝ × ℝ)) : 0 ≤ law.squaredError pts :=
  List.sum_nonneg fun _ hx => by
    obtain ⟨pt, -, rfl⟩ := List.mem_map.mp hx
    positivity

/-- The squared distance of a line, split about a centre `(m, k)`: the scatter of the centred
points about the line through the centre, a cross term, and the line's offset at the centre. -/
theorem squaredError_centred
    (pts : List (ℝ × ℝ)) (s b m k : ℝ) :
    (⟨s, b⟩ : PowerLaw ℝ).squaredError pts =
      (pts.map fun pt => (pt.2 - k) ^ 2).sum - 2 * s * (pts.map fun pt => (pt.1 - m) * (pt.2 - k)).sum +
        s ^ 2 * (pts.map fun pt => (pt.1 - m) * (pt.1 - m)).sum +
        2 * (k - s * m - b) * ((pts.map fun pt => pt.2 - k).sum - s * (pts.map fun pt => pt.1 - m).sum) +
        pts.length * (k - s * m - b) ^ 2 := by
  induction pts with
  | nil => simp [squaredError]
  | cons pt pts ih =>
      simp only [squaredError, List.map_cons, List.sum_cons, List.length_cons] at ih ⊢
      rw [ih]
      push_cast
      ring

theorem sum_map_sub_const
    (xs : List ℝ) (m : ℝ) :
    (xs.map fun x => x - m).sum = xs.sum - xs.length * m := by
  induction xs with
  | nil => simp
  | cons x rest ih =>
      simp only [List.map_cons, List.sum_cons, List.length_cons, ih]
      push_cast
      ring

/-- About the mean, the deviations add up to zero. -/
theorem sum_sub_mean
    (xs : List ℝ) :
    (xs.map fun x => x - xs.sum / xs.length).sum = 0 := by
  rcases Nat.eq_zero_or_pos xs.length with h0 | hpos
  · simp [List.length_eq_zero_iff.mp h0]
  · have hne : (xs.length : ℝ) ≠ 0 := by positivity
    rw [sum_map_sub_const, mul_div_cancel₀ _ hne, sub_self]

/-- About its mean, the deviations of one coordinate of the points add up to zero. -/
theorem sum_map_sub_mean
    {pts : List (ℝ × ℝ)} {f : ℝ × ℝ → ℝ} {xs : List ℝ}
    (h : pts.map f = xs) :
    (pts.map fun pt => f pt - xs.sum / xs.length).sum = 0 := by
  subst h
  simpa only [List.map_map, Function.comp_def] using sum_sub_mean (pts.map f)

/-- The spread `Σ (xᵢ - m)²` of values that are not all equal is positive: a spread of zero puts
every value at `m`. -/
theorem spread_pos
    {pts : List (ℝ × ℝ)}
    (h : allEqual (pts.map Prod.fst) = false)
    (m : ℝ) :
    0 < (pts.map fun pt => (pt.1 - m) * (pt.1 - m)).sum := by
  have hnonneg : ∀ v ∈ pts.map (fun pt => (pt.1 - m) * (pt.1 - m)), 0 ≤ v := by
    intro v hv
    obtain ⟨pt, -, rfl⟩ := List.mem_map.mp hv
    exact mul_self_nonneg _
  refine lt_of_le_of_ne (List.sum_nonneg hnonneg) fun hzero => ?_
  have hat : ∀ a ∈ pts.map Prod.fst, a = m := by
    intro a ha
    obtain ⟨pt, hpt, rfl⟩ := List.mem_map.mp ha
    have := List.all_zero_of_le_zero_le_of_sum_eq_zero hnonneg hzero.symm
      (List.mem_map_of_mem (f := fun pt => (pt.1 - m) * (pt.1 - m)) hpt)
    exact sub_eq_zero.mp (mul_self_eq_zero.mp this)
  have hequal : allEqual (pts.map Prod.fst) = true :=
    (allEqual_iff _).mpr fun a ha b hb => (hat a ha).trans (hat b hb).symm
  rw [h] at hequal
  cases hequal

/-- Read exactly, the line of a fit has the slope `Sxy/Sxx` of the centred sums and passes through
the means. -/
theorem line_eq
    (x y : List ℝ) :
    line x y =
      ⟨((x.zip y).map fun pt => (pt.1 - x.sum / x.length) * (pt.2 - y.sum / x.length)).sum /
          ((x.zip y).map fun pt => (pt.1 - x.sum / x.length) * (pt.1 - x.sum / x.length)).sum,
        y.sum / x.length -
          ((x.zip y).map fun pt => (pt.1 - x.sum / x.length) * (pt.2 - y.sum / x.length)).sum /
            ((x.zip y).map fun pt => (pt.1 - x.sum / x.length) * (pt.1 - x.sum / x.length)).sum *
            (x.sum / x.length)⟩ := by
  simp only [line, total_eq, Exact.ofNat_eq]
  rw [foldl_sums (g := fun pt => (pt.1 - x.sum / x.length) * (pt.1 - x.sum / x.length))
    (h := fun pt => (pt.1 - x.sum / x.length) * (pt.2 - y.sum / x.length)) (fun a b x y => rfl)]
  norm_num

/-- Through points of at least two distinct abscissas, the line of a fit is the one least-squares
line: every other line is farther by `Sxx·(s - s*)² + n·(ȳ - s·x̄ - b)²`. -/
theorem leastSquares_line
    {x y : List ℝ}
    (hlen : x.length = y.length)
    (hspread : allEqual x = false) :
    LeastSquares (x.zip y) (line x y) := by
  have hfst : (x.zip y).map Prod.fst = x := List.map_fst_zip hlen.le
  have hsnd : (x.zip y).map Prod.snd = y := List.map_snd_zip hlen.ge
  have hpos : 0 < (x.length : ℝ) := by
    rcases x with _ | ⟨a, _⟩
    · simp [allEqual] at hspread
    · simp only [List.length_cons]
      positivity
  have hcount : ((x.zip y).length : ℝ) = x.length := by
    rw [List.length_zip, hlen, min_self]
  rw [line_eq]
  set m := x.sum / x.length
  set k := y.sum / x.length
  set sxx := ((x.zip y).map fun pt => (pt.1 - m) * (pt.1 - m)).sum with hsxx_def
  set sxy := ((x.zip y).map fun pt => (pt.1 - m) * (pt.2 - k)).sum with hsxy_def
  have hsxx : 0 < sxx := spread_pos (by rw [hfst]; exact hspread) m
  have hslope : sxy / sxx * sxx = sxy := div_mul_cancel₀ sxy hsxx.ne'
  have hdx : ((x.zip y).map fun pt => pt.1 - m).sum = 0 := sum_map_sub_mean hfst
  have hdy : ((x.zip y).map fun pt => pt.2 - k).sum = 0 := by
    have hk : k = y.sum / y.length := by rw [← hlen]
    rw [hk]
    exact sum_map_sub_mean hsnd
  intro other
  obtain ⟨s, b⟩ := other
  have hgap : (⟨s, b⟩ : PowerLaw ℝ).squaredError (x.zip y) =
      (⟨sxy / sxx, k - sxy / sxx * m⟩ : PowerLaw ℝ).squaredError (x.zip y) +
        sxx * (s - sxy / sxx) ^ 2 + x.length * (k - s * m - b) ^ 2 := by
    rw [squaredError_centred _ s b m k, squaredError_centred _ (sxy / sxx) _ m k, hdx, hdy, hcount,
      ← hsxx_def, ← hsxy_def]
    linear_combination (2 * (s - sxy / sxx)) * hslope
  have hsteep : 0 ≤ sxx * (s - sxy / sxx) ^ 2 := by positivity
  have hoffset : 0 ≤ (x.length : ℝ) * (k - s * m - b) ^ 2 := by positivity
  refine ⟨by rw [hgap]; linarith, fun hequal => ?_⟩
  have hs : s = sxy / sxx := by
    have h0 : sxx * (s - sxy / sxx) ^ 2 = 0 := by linarith
    rw [mul_eq_zero, pow_eq_zero_iff two_ne_zero, sub_eq_zero] at h0
    exact h0.resolve_left hsxx.ne'
  have hb : b = k - s * m := by
    have h0 : (x.length : ℝ) * (k - s * m - b) ^ 2 = 0 := by linarith
    rw [mul_eq_zero, pow_eq_zero_iff two_ne_zero, sub_eq_zero] at h0
    exact (h0.resolve_left hpos.ne').symm
  rw [hb, hs]

theorem LeastSquares.of_squaredError_eq
    {pts pts' : List (ℝ × ℝ)} {law : PowerLaw ℝ}
    (h : LeastSquares pts law)
    (heq : ∀ other : PowerLaw ℝ, other.squaredError pts' = other.squaredError pts) :
    LeastSquares pts' law := by
  intro other
  rw [heq, heq]
  exact h other

/-- Moving every point by `(a, d)` moves the distance of a line to that of the line moved back. -/
theorem squaredError_shift
    (law : PowerLaw ℝ) (pts : List (ℝ × ℝ)) (a d : ℝ) :
    law.squaredError (pts.map fun pt => (pt.1 + a, pt.2 + d)) =
      (⟨law.slope, law.intercept + law.slope * a - d⟩ : PowerLaw ℝ).squaredError pts := by
  unfold squaredError
  rw [List.map_map]
  congr 1
  refine List.map_congr_left fun pt _ => ?_
  simp only [Function.comp_apply]
  ring

/-- The least-squares line of points moved by `(a, d)` is the least-squares line moved by them. -/
theorem LeastSquares.shift
    {pts : List (ℝ × ℝ)} {s₀ b₀ : ℝ}
    (h : LeastSquares pts ⟨s₀, b₀⟩) (a d : ℝ) :
    LeastSquares (pts.map fun pt => (pt.1 + a, pt.2 + d)) ⟨s₀, b₀ - s₀ * a + d⟩ := by
  intro other
  obtain ⟨s, b⟩ := other
  have hback : (⟨s₀, b₀ - s₀ * a + d + s₀ * a - d⟩ : PowerLaw ℝ) = ⟨s₀, b₀⟩ := by
    rw [PowerLaw.mk.injEq]
    exact ⟨rfl, by ring⟩
  rw [squaredError_shift, squaredError_shift, hback]
  refine ⟨(h _).1, fun hequal => ?_⟩
  have hmoved := (h _).2 hequal
  rw [PowerLaw.mk.injEq] at hmoved ⊢
  obtain ⟨rfl, hb⟩ := hmoved
  exact ⟨rfl, by rw [← hb]; ring⟩

variable {ps es : List ℝ} {law : PowerLaw ℝ}

/-- On points that pass the checks, the fit is the least-squares line of their logarithms. -/
theorem fit_eq_ok_iff_leastSquares
    (h : Fits ps es) :
    fit ps es = .ok law ↔ LeastSquares (logPoints ps es) law := by
  have hline : LeastSquares (logPoints ps es) (line (ps.map Scalar.log10) (es.map Scalar.log10)) :=
    leastSquares_line (by simp [h.length_eq]) h.spread
  rw [fit_of_fits h, Except.ok.injEq]
  constructor
  · rintro rfl
    exact hline
  · intro hlaw
    exact (hline.unique hlaw).symm

theorem pos_of_fits
    (h : Fits ps es) :
    (∀ p ∈ ps, 0 < p) ∧ ∀ e ∈ es, 0 < e :=
  ⟨fun p hp => (admissible_iff p).mp (h.parameters p hp),
    fun e he => (admissible_iff e).mp (h.errors e he)⟩

/-- The least-squares line through the points of an exact power law `e = C·pᵠ` is the law, whose
own line passes through every point. -/
theorem law_of_exact
    {C q : ℝ}
    (hC : 0 < C)
    (hps : ∀ p ∈ ps, 0 < p)
    (h : LeastSquares (logPoints ps (ps.map fun p => C * p ^ q)) law) :
    law = ⟨q, Real.logb 10 C⟩ := by
  have hzero : (⟨q, Real.logb 10 C⟩ : PowerLaw ℝ).squaredError
      (logPoints ps (ps.map fun p => C * p ^ q)) = 0 := by
    unfold squaredError logPoints
    rw [List.map_map, List.zip_map', List.map_map]
    refine List.sum_eq_zero fun v hv => ?_
    obtain ⟨p, hp, rfl⟩ := List.mem_map.mp hv
    have hp' := hps p hp
    simp only [Function.comp_apply]
    rw [Real.logb_mul hC.ne' (Real.rpow_pos_of_pos hp' q).ne', Real.logb_rpow_eq_mul_logb_of_pos hp']
    ring
  have hle := (h ⟨q, Real.logb 10 C⟩).1
  rw [hzero] at hle
  exact ((h _).2 (hzero.trans (le_antisymm hle (squaredError_nonneg _ _)).symm)).symm

/-- Points that pass the checks still pass them in another order. -/
theorem fits_of_perm
    {ps' es' : List ℝ}
    (hp : ps'.Perm ps) (he : es'.Perm es)
    (h : Fits ps es) :
    Fits ps' es' where
  length_eq := by rw [hp.length_eq, he.length_eq, h.length_eq]
  two_le := by rw [hp.length_eq]; exact h.two_le
  parameters p hp' := h.parameters p (hp.mem_iff.mp hp')
  errors e he' := h.errors e (he.mem_iff.mp he')
  spread := by rw [allEqual_perm (hp.map _)]; exact h.spread
  varies := by rw [allEqual_perm (he.map _)]; exact h.varies

/-- The order of the points does not change the fit: in log coordinates they are the same points
in another order. -/
theorem fit_perm
    (hfit : fit ps es = .ok law)
    {pts : List (ℝ × ℝ)}
    (hperm : pts.Perm (ps.zip es)) :
    fit (pts.map Prod.fst) (pts.map Prod.snd) = .ok law := by
  have hfits := fit_eq_ok_iff_fits.mp ⟨law, hfit⟩
  have hfst : (pts.map Prod.fst).Perm ps := by
    simpa [List.map_fst_zip hfits.length_eq.le] using hperm.map Prod.fst
  have hsnd : (pts.map Prod.snd).Perm es := by
    simpa [List.map_snd_zip hfits.length_eq.ge] using hperm.map Prod.snd
  have hpoints : (logPoints (pts.map Prod.fst) (pts.map Prod.snd)).Perm (logPoints ps es) := by
    unfold logPoints
    rw [List.map_map, List.map_map, List.zip_map', List.zip_map]
    exact hperm.map _
  refine (fit_eq_ok_iff_leastSquares (fits_of_perm hfst hsnd hfits)).mpr ?_
  exact ((fit_eq_ok_iff_leastSquares hfits).mp hfit).of_squaredError_eq fun other =>
    (hpoints.map _).sum_eq

theorem map_log10 (vs : List ℝ) : vs.map Scalar.log10 = vs.map (Real.logb 10) := rfl

/-- Scaling every value by `c > 0` adds `log₁₀ c` to every logarithm. -/
theorem map_logb_mul
    {vs : List ℝ} {c : ℝ}
    (hc : 0 < c)
    (hvs : ∀ v ∈ vs, 0 < v) :
    (vs.map (c * ·)).map (Real.logb 10) = (vs.map (Real.logb 10)).map (Real.logb 10 c + ·) := by
  rw [List.map_map, List.map_map]
  refine List.map_congr_left fun v hv => ?_
  simp only [Function.comp_apply]
  rw [Real.logb_mul hc.ne' (hvs v hv).ne']

/-- A change of unit by `c > 0` keeps positive values positive and their logarithms equal or
unequal. -/
theorem admissible_allEqual_scale
    {vs : List ℝ} {c : ℝ}
    (hc : 0 < c)
    (hvs : ∀ v ∈ vs, 0 < v) :
    (∀ v ∈ vs.map (c * ·), Admissible v) ∧
      allEqual ((vs.map (c * ·)).map Scalar.log10) = allEqual (vs.map Scalar.log10) := by
  refine ⟨fun v hv => ?_, ?_⟩
  · obtain ⟨v₀, hv₀, rfl⟩ := List.mem_map.mp hv
    exact (admissible_iff _).mpr (mul_pos hc (hvs v₀ hv₀))
  · rw [map_log10, map_logb_mul hc hvs, allEqual_map_add]
    rfl

/-- Points that pass the checks still pass them after a change of the units of the parameters
and of the errors. -/
theorem fits_scale
    (h : Fits ps es)
    {c d : ℝ}
    (hc : 0 < c) (hd : 0 < d) :
    Fits (ps.map (c * ·)) (es.map (d * ·)) where
  length_eq := by rw [List.length_map, List.length_map, h.length_eq]
  two_le := by rw [List.length_map]; exact h.two_le
  parameters := (admissible_allEqual_scale hc (pos_of_fits h).1).1
  errors := (admissible_allEqual_scale hd (pos_of_fits h).2).1
  spread := by rw [(admissible_allEqual_scale hc (pos_of_fits h).1).2]; exact h.spread
  varies := by rw [(admissible_allEqual_scale hd (pos_of_fits h).2).2]; exact h.varies

/-- In log coordinates a change of units moves every point by the logarithms of the factors. -/
theorem logPoints_scale
    {c d : ℝ}
    (hc : 0 < c) (hd : 0 < d)
    (hps : ∀ p ∈ ps, 0 < p) (hes : ∀ e ∈ es, 0 < e) :
    logPoints (ps.map (c * ·)) (es.map (d * ·)) =
      (logPoints ps es).map fun pt => (pt.1 + Real.logb 10 c, pt.2 + Real.logb 10 d) := by
  unfold logPoints
  rw [map_logb_mul hc hps, map_logb_mul hd hes, List.zip_map]
  refine List.map_congr_left fun pt _ => ?_
  simp only [add_comm]
  rfl

/-- A change of the units of the parameters and of the errors, by factors `c, d > 0`, keeps the
slope of a fit and moves its intercept by `log₁₀ d - slope·log₁₀ c`. -/
theorem fit_scale
    (hfit : fit ps es = .ok law)
    {c d : ℝ}
    (hc : 0 < c) (hd : 0 < d) :
    fit (ps.map (c * ·)) (es.map (d * ·)) =
      .ok ⟨law.slope, law.intercept - law.slope * Real.logb 10 c + Real.logb 10 d⟩ := by
  have hfits := fit_eq_ok_iff_fits.mp ⟨law, hfit⟩
  obtain ⟨hps, hes⟩ := pos_of_fits hfits
  have hls := (fit_eq_ok_iff_leastSquares hfits).mp hfit
  refine (fit_eq_ok_iff_leastSquares (fits_scale hfits hc hd)).mpr ?_
  rw [logPoints_scale hc hd hps hes]
  exact hls.shift (Real.logb 10 c) (Real.logb 10 d)

end Exact

/-- A fit refuses its points with the first check they fail, in the order lengths, count, the
first parameter and then the first error that is not positive and finite, all log-parameters
equal, all log-errors equal, whatever the scalar; it succeeds exactly when every check passes.
Read exactly, what it returns is the one least-squares line of `(log₁₀ pᵢ, log₁₀ eᵢ)`: it
recovers an exact power law `e = C·pᵠ`, does not depend on the order of the points, and keeps its
slope when the parameters or the errors change unit. -/
theorem fit_checks_and_least_squares :
    (∀ {α : Type} [Scalar α] (ps es : List α) (err : FitError α),
        fit ps es = .error err ↔ Refuses ps es err) ∧
      (∀ {α : Type} [Scalar α] (ps es : List α), (∃ law, fit ps es = .ok law) ↔ Fits ps es) ∧
      ∀ (ps es : List ℝ) (law : PowerLaw ℝ), fit ps es = .ok law →
        LeastSquares (logPoints ps es) law ∧
        (∀ C q : ℝ, 0 < C → es = ps.map (fun p => C * p ^ q) → law = ⟨q, Real.logb 10 C⟩) ∧
        (∀ pts : List (ℝ × ℝ), pts.Perm (ps.zip es) →
          fit (pts.map Prod.fst) (pts.map Prod.snd) = .ok law) ∧
        ∀ c d : ℝ, 0 < c → 0 < d →
          fit (ps.map (c * ·)) (es.map (d * ·)) =
            .ok ⟨law.slope, law.intercept - law.slope * Real.logb 10 c + Real.logb 10 d⟩ := by
  refine ⟨fun ps es err => fit_eq_error_iff, fun ps es => fit_eq_ok_iff_fits,
    fun ps es law hfit => ?_⟩
  have hfits := fit_eq_ok_iff_fits.mp ⟨law, hfit⟩
  have hls := (fit_eq_ok_iff_leastSquares hfits).mp hfit
  refine ⟨hls, fun C q hC hexact => ?_, fun pts hperm => fit_perm hfit hperm,
    fun c d hc hd => fit_scale hfit hc hd⟩
  subst hexact
  exact law_of_exact hC (pos_of_fits hfits).1 hls

/-- The errors `3·p²` at the parameters `1, 2, 4` are fitted with slope `2` and intercept
`log₁₀ 3`, and the fit is the least-squares line, whatever the order and the units. -/
theorem fit_checks_and_least_squares_square :
    fit ([1, 2, 4] : List ℝ) [3, 12, 48] = .ok ⟨2, Real.logb 10 3⟩ ∧
      LeastSquares (logPoints [1, 2, 4] [3, 12, 48]) ⟨2, Real.logb 10 3⟩ ∧
      (∀ C q : ℝ, 0 < C → ([3, 12, 48] : List ℝ) = [1, 2, 4].map (fun p => C * p ^ q) →
        (⟨2, Real.logb 10 3⟩ : PowerLaw ℝ) = ⟨q, Real.logb 10 C⟩) ∧
      (∀ pts : List (ℝ × ℝ), pts.Perm (([1, 2, 4] : List ℝ).zip [3, 12, 48]) →
        fit (pts.map Prod.fst) (pts.map Prod.snd) = .ok ⟨2, Real.logb 10 3⟩) ∧
      ∀ c d : ℝ, 0 < c → 0 < d →
        fit (([1, 2, 4] : List ℝ).map (c * ·)) (([3, 12, 48] : List ℝ).map (d * ·)) =
          .ok ⟨2, Real.logb 10 3 - 2 * Real.logb 10 c + Real.logb 10 d⟩ := by
  have hlog : Real.logb 10 1 < Real.logb 10 2 ∧ Real.logb 10 3 < Real.logb 10 12 :=
    ⟨Real.logb_lt_logb (by norm_num) (by norm_num) (by norm_num),
      Real.logb_lt_logb (by norm_num) (by norm_num) (by norm_num)⟩
  have hfits : Fits ([1, 2, 4] : List ℝ) [3, 12, 48] := by
    refine ⟨rfl, by simp, fun p hp => ?_, fun e he => ?_, ?_, ?_⟩
    · simp only [List.mem_cons, List.not_mem_nil, or_false] at hp
      rcases hp with rfl | rfl | rfl <;> norm_num
    · simp only [List.mem_cons, List.not_mem_nil, or_false] at he
      rcases he with rfl | rfl | rfl <;> norm_num
    · rw [Bool.eq_false_iff, ne_eq, allEqual_iff]
      intro hequal
      exact hlog.1.ne (hequal _ (by simp) _ (by simp))
    · rw [Bool.eq_false_iff, ne_eq, allEqual_iff]
      intro hequal
      exact hlog.2.ne (hequal _ (by simp) _ (by simp))
  obtain ⟨law, hlaw⟩ := fit_eq_ok_iff_fits.mpr hfits
  have hexact : ([3, 12, 48] : List ℝ) = [1, 2, 4].map fun p => 3 * p ^ (2 : ℝ) := by
    norm_num [Real.rpow_two]
  have hls := (fit_eq_ok_iff_leastSquares hfits).mp hlaw
  rw [hexact] at hls
  rw [law_of_exact (by norm_num) (by simp) hls] at hlaw
  obtain ⟨hls', hrecover, hperm, hscale⟩ := fit_checks_and_least_squares.2.2 _ _ _ hlaw
  exact ⟨hlaw, hls', hrecover, hperm, hscale⟩

end PowerLaw
end IceEnthalpy
