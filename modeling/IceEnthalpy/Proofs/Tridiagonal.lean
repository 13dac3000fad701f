import IceEnthalpy.Proofs.Basic
import IceEnthalpy.Solver.Tridiagonal

/-!
# The Thomas algorithm in exact arithmetic

A tridiagonal system is solved by downward elimination and upward substitution.  Read exactly,
the algorithm is correct whenever it does not refuse a pivot: any vector that satisfies the
rows is the vector it returns.  The argument follows the elimination row by row.  A vector that
satisfies a row, and the reduced row above it, satisfies the reduced row `x[i] + cᵢ·x[i+1] = dᵢ`;
the reduced rows, read from the bottom, leave a single vector, which substitution computes.
Conversely, the vector that substitution computes satisfies the reduced rows, and each reduced
row, tied to the one above it, gives back its row: a solve that returns has solved the system.

Elimination refuses no pivot on a system whose diagonal dominates: when every diagonal exceeds
the magnitude of the coefficient below by at least one, and the sum of the magnitudes of both
off-diagonal coefficients where there is a row below, every multiplier `cᵢ` stays within
`[-1, 1]` and every pivot at least one.  The first row's coefficient below is ignored by the
algorithm and counts as zero.  Rows whose diagonal exceeds both other coefficients together by
one, with a coefficient above that is not positive, are dominant so (`Contracting`).
-/

namespace IceEnthalpy
namespace Tridiagonal

/-- `xs` satisfies the rows, `below` being the unknown under the first row; the last row's
`upper` has no unknown above it. -/
def Solves : ℝ → List (Row ℝ) → List ℝ → Prop
  | _, [], [] => True
  | below, [r], [x] => r.lower * below + r.diag * x = r.rhs
  | below, r :: r' :: rows, x :: x' :: xs =>
      r.lower * below + r.diag * x + r.upper * x' = r.rhs ∧ Solves x (r' :: rows) (x' :: xs)
  | _, _, _ => False

/-- `xs` satisfies the reduced rows `x[i] + cᵢ·x[i+1] = dᵢ`, the last of which is `x = d`. -/
def Reduced : List (ℝ × ℝ) → List ℝ → Prop
  | [], [] => True
  | [(_, d)], [x] => x = d
  | (c, d) :: cd :: rest, x :: x' :: xs => x + c * x' = d ∧ Reduced (cd :: rest) (x' :: xs)
  | _, _ => False

/-- How the unknown under a row is tied to the row's own unknown by the reduced row above it;
with no row above, the unknown under the first row is zero. -/
def Linked : Option (ℝ × ℝ) → ℝ → ℝ → Prop
  | none, below, _ => below = 0
  | some (c, d), below, x => below + c * x = d

/-- The multiplier of the reduced row above is at most `b` in magnitude. -/
def Bounded (b : ℝ) : Option (ℝ × ℝ) → Prop
  | none => True
  | some (c, _) => |c| ≤ b

/-- Rows whose pivots stay at least one when the multiplier above is at most `b` in magnitude:
the diagonal exceeds `b` times the coefficient below by one, and, where a row follows, by the
coefficient above; the rows after the first are taken with `b = 1`. -/
def Dominant : ℝ → List (Row ℝ) → Prop
  | _, [] => True
  | b, [r] => 1 + b * |r.lower| ≤ r.diag
  | b, r :: r' :: rows =>
      1 + b * |r.lower| ≤ r.diag ∧ b * |r.lower| + |r.upper| ≤ r.diag ∧ Dominant 1 (r' :: rows)

/-- Rows on which elimination keeps every pivot at least one and every multiplier in `(-1, 0]`,
below a multiplier at most `b` in magnitude: each diagonal exceeds `b` times the coefficient
below by one and, where a row follows, by the magnitude of the coefficient above as well, which
is not positive.  The rows after the first are taken with `b = 1`. -/
def Contracting : ℝ → List (Row ℝ) → Prop
  | _, [] => True
  | b, [r] => 1 + b * |r.lower| ≤ r.diag
  | b, r :: r' :: rows =>
      1 + b * |r.lower| + |r.upper| ≤ r.diag ∧ r.upper ≤ 0 ∧ Contracting 1 (r' :: rows)

/-- A vector satisfies the rows when every row's equation holds at its index; neighbours are
read with `getD`, and the row above the last and the row below the first contribute nothing
beyond `below`. -/
theorem solves_of_getD :
    ∀ {rows : List (Row ℝ)} {xs : List ℝ} {below : ℝ},
      xs.length = rows.length →
      (∀ i (hi : i < rows.length),
        rows[i].lower * (if i = 0 then below else xs.getD (i - 1) 0) + rows[i].diag * xs.getD i 0 +
          (if i + 1 < rows.length then rows[i].upper * xs.getD (i + 1) 0 else 0) = rows[i].rhs) →
      Solves below rows xs
  | [], [], _, _, _ => trivial
  | [r], [x], below, _, h => by
      have h0 := h 0 (by simp)
      simp only [List.getElem_cons_zero, ↓reduceIte, List.getD_cons_zero, List.length_cons,
        List.length_nil, zero_add, lt_self_iff_false, add_zero] at h0
      exact h0
  | r :: r' :: rows, x :: x' :: xs, below, hlen, h => by
      have h0 := h 0 (by simp)
      simp only [List.getElem_cons_zero, ↓reduceIte, List.getD_cons_zero, List.length_cons,
        zero_add, List.getD_cons_succ, Nat.one_lt_succ_succ] at h0
      refine ⟨h0, solves_of_getD (by simpa using hlen) fun i hi => ?_⟩
      have hs := h (i + 1) (by simp only [List.length_cons] at hi ⊢; omega)
      simp only [List.getElem_cons_succ, Nat.add_eq_zero_iff, one_ne_zero, and_false,
        ↓reduceIte, Nat.add_sub_cancel, List.getD_cons_succ, List.length_cons,
        Nat.add_lt_add_iff_right] at hs
      rcases i with _ | i
      · simpa using hs
      · simpa using hs
  | [], _ :: _, _, hlen, _ | _ :: _, [], _, hlen, _ | [_], _ :: _ :: _, _, hlen, _
  | _ :: _ :: _, [_], _, hlen, _ => by
      simp at hlen

/-- Conversely, a vector that satisfies the rows satisfies every row's equation at its index. -/
theorem getD_of_solves :
    ∀ {rows : List (Row ℝ)} {xs : List ℝ} {below : ℝ},
      Solves below rows xs →
      ∀ i (hi : i < rows.length),
        rows[i].lower * (if i = 0 then below else xs.getD (i - 1) 0) + rows[i].diag * xs.getD i 0 +
          (if i + 1 < rows.length then rows[i].upper * xs.getD (i + 1) 0 else 0) = rows[i].rhs
  | [r], [x], below, h, 0, _ => by
      simp only [Solves] at h
      simpa using h
  | r :: r' :: rows, x :: x' :: xs, below, h, 0, _ => by
      simpa using h.1
  | r :: r' :: rows, x :: x' :: xs, below, h, i + 1, hi => by
      have hs := getD_of_solves h.2 i (by simpa using hi)
      rcases i with _ | i
      · simpa using hs
      · simpa using hs
  | [_], [_], _, _, i + 1, hi => by simp at hi
  | [], _, _, _, i, hi => by simp at hi
  | [_], [], _, h, _, _ | [_], _ :: _ :: _, _, h, _, _ | _ :: _ :: _, [], _, h, _, _
  | _ :: _ :: _, [_], _, h, _, _ => by
      simp [Solves] at h

/-- A vector of one value per row satisfies the rows exactly when every row's equation holds at
its index. -/
theorem solves_iff_getD
    {rows : List (Row ℝ)} {xs : List ℝ} {below : ℝ}
    (hlen : xs.length = rows.length) :
    Solves below rows xs ↔
      ∀ i (hi : i < rows.length),
        rows[i].lower * (if i = 0 then below else xs.getD (i - 1) 0) + rows[i].diag * xs.getD i 0 +
          (if i + 1 < rows.length then rows[i].upper * xs.getD (i + 1) 0 else 0) = rows[i].rhs :=
  ⟨getD_of_solves, solves_of_getD hlen⟩

/-- A vector that satisfies the rows has one value per row. -/
theorem length_of_solves :
    ∀ {rows : List (Row ℝ)} {xs : List ℝ} {below : ℝ}, Solves below rows xs →
      xs.length = rows.length
  | [], [], _, _ | [_], [_], _, _ => rfl
  | _ :: _ :: _, _ :: _ :: _, _, h => by
      simpa using length_of_solves h.2
  | [], _ :: _, _, h | _ :: _, [], _, h | [_], _ :: _ :: _, _, h | _ :: _ :: _, [_], _, h => by
      simp [Solves] at h

/-- Rows contract when every row's conditions hold at its index, the first row's coefficient
below being weighted by `b` and the others' by one. -/
theorem contracting_of_getElem :
    ∀ {rows : List (Row ℝ)} {b : ℝ},
      (∀ i (hi : i < rows.length),
        1 + (if i = 0 then b else 1) * |rows[i].lower| ≤ rows[i].diag ∧
          (i + 1 < rows.length →
            1 + (if i = 0 then b else 1) * |rows[i].lower| + |rows[i].upper| ≤ rows[i].diag ∧
              rows[i].upper ≤ 0)) →
      Contracting b rows
  | [], _, _ => trivial
  | [r], b, h => by
      have h0 := (h 0 (by simp)).1
      simp only [↓reduceIte, List.getElem_cons_zero] at h0
      exact h0
  | r :: r' :: rows, b, h => by
      have h0 := (h 0 (by simp)).2 (by simp)
      simp only [↓reduceIte, List.getElem_cons_zero] at h0
      refine ⟨h0.1, h0.2, contracting_of_getElem fun i hi => ?_⟩
      have hs := h (i + 1) (by simp only [List.length_cons] at hi ⊢; omega)
      simp only [Nat.add_eq_zero_iff, one_ne_zero, and_false, ↓reduceIte,
        List.getElem_cons_succ, List.length_cons, Nat.add_lt_add_iff_right] at hs
      rcases i with _ | i
      · simpa using hs
      · simpa using hs

/-- Contracting rows are dominant: a diagonal that exceeds both other coefficients together by
one exceeds each of them. -/
theorem Contracting.dominant :
    ∀ {rows : List (Row ℝ)} {b : ℝ}, Contracting b rows → Dominant b rows
  | [], _, _ => trivial
  | [_], _, h => h
  | r :: _ :: _, _, ⟨hrow, _, hrest⟩ =>
      ⟨by linarith [abs_nonneg r.upper], by linarith, hrest.dominant⟩

/-- Substitution returns the one vector that satisfies the reduced rows. -/
theorem substitute_eq_of_reduced :
    ∀ {reduced : List (ℝ × ℝ)} {xs : List ℝ}, Reduced reduced xs → substitute reduced = xs
  | [], [], _ => rfl
  | [(c, d)], [x], h => by
      simp only [Reduced] at h
      simp [substitute, h]
  | (c, d) :: cd :: rest, x :: x' :: xs, h => by
      obtain ⟨hrow, hrest⟩ := h
      rw [substitute.eq_2, substitute_eq_of_reduced hrest, ← hrow]
      ring_nf
  | [], _ :: _, h | _ :: _, [], h | [_], _ :: _ :: _, h | _ :: _ :: _, [_], h => by
      simp [Reduced] at h

/-- Substitution satisfies the reduced rows it runs through. -/
theorem reduced_substitute :
    ∀ reduced : List (ℝ × ℝ), Reduced reduced (substitute reduced)
  | [] => trivial
  | [(c, d)] => by
      simp [substitute, Reduced]
  | (c, d) :: cd :: rest => by
      have hrest := reduced_substitute (cd :: rest)
      obtain ⟨x, xs, hxs⟩ : ∃ x xs, substitute (cd :: rest) = x :: xs := by
        cases h : substitute (cd :: rest) with
        | nil =>
            have hlen := length_substitute (cd :: rest)
            simp [h] at hlen
        | cons x xs => exact ⟨x, xs, rfl⟩
      rw [substitute.eq_2, hxs]
      rw [hxs] at hrest
      exact ⟨by ring, hrest⟩

/-- A pivot that is not refused is not zero. -/
theorem pivot_ne_zero_of_not_singular
    {p : ℝ}
    (h : singular p = false) :
    p ≠ 0 := by
  simp only [singular, Exact.isFinite_eq, Bool.not_true, Bool.or_false,
    decide_eq_false_iff_not, not_lt, Exact.abs_eq] at h
  have hmin : (0 : ℝ) < Scalar.minNormal := by
    rw [Exact.minNormal_eq]
    positivity
  intro hp
  rw [hp, abs_zero] at h
  exact absurd h (not_le.mpr hmin)

/-- Elimination of a last row whose pivot is not refused carries the multiplier zero. -/
theorem eliminate_singleton
    {above : Option (ℝ × ℝ)} {index : Nat} {r : Row ℝ}
    (hp : singular (pivot above r) = false) :
    eliminate above index [r] = .ok [((0.0 : ℝ), reducedRhs above r (pivot above r))] := by
  rw [eliminate]
  simp only [hp, Bool.false_eq_true, ↓reduceIte, List.isEmpty_nil]
  rfl

/-- One step of elimination past a row whose pivot is not refused and that has rows below. -/
theorem eliminate_cons_cons
    {above : Option (ℝ × ℝ)} {index : Nat} {r r' : Row ℝ} {rows : List (Row ℝ)}
    (hp : singular (pivot above r) = false) :
    eliminate above index (r :: r' :: rows) =
      (eliminate (some (r.upper / pivot above r, reducedRhs above r (pivot above r)))
        (index + 1) (r' :: rows)).map
        ((r.upper / pivot above r, reducedRhs above r (pivot above r)) :: ·) := by
  rw [eliminate]
  simp only [hp, Bool.false_eq_true, ↓reduceIte, List.isEmpty_cons]

/-- A row that holds, tied to the reduced row above, reduces to `x + u/p = d`, where `u` stands
for the term of the unknown above (zero in the last row). -/
theorem reduce_row
    {above : Option (ℝ × ℝ)} {r : Row ℝ} {below x u : ℝ}
    (hlink : Linked above below x)
    (hp : pivot above r ≠ 0)
    (hrow : r.lower * below + r.diag * x + u = r.rhs) :
    x + u / pivot above r = reducedRhs above r (pivot above r) := by
  cases above with
  | none =>
      simp only [Linked] at hlink
      simp only [pivot, reducedRhs] at hp ⊢
      rw [hlink, mul_zero, zero_add] at hrow
      field_simp
      linarith
  | some cd =>
      obtain ⟨c, d⟩ := cd
      simp only [Linked] at hlink
      simp only [pivot, reducedRhs] at hp ⊢
      field_simp
      rw [← hlink]
      linear_combination hrow

/-- Conversely, a reduced row `x + u/p = d`, tied to the reduced row above, gives back the
row. -/
theorem row_of_reduced_row
    {above : Option (ℝ × ℝ)} {r : Row ℝ} {below x u : ℝ}
    (hlink : Linked above below x)
    (hp : pivot above r ≠ 0)
    (hred : x + u / pivot above r = reducedRhs above r (pivot above r)) :
    r.lower * below + r.diag * x + u = r.rhs := by
  cases above with
  | none =>
      simp only [Linked] at hlink
      simp only [pivot, reducedRhs] at hp hred
      rw [hlink, mul_zero, zero_add]
      field_simp at hred
      linarith
  | some cd =>
      obtain ⟨c, d⟩ := cd
      simp only [Linked] at hlink
      simp only [pivot, reducedRhs] at hp hred
      field_simp at hred
      linear_combination hred + r.lower * hlink

/-- Elimination that refuses no pivot keeps the solutions: a vector tied to the reduced row above
satisfies the rows exactly when it satisfies the reduced rows. -/
theorem solves_iff_reduced :
    ∀ {rows : List (Row ℝ)} {above : Option (ℝ × ℝ)} {index : Nat} {reduced : List (ℝ × ℝ)}
      {below : ℝ} {xs : List ℝ},
      eliminate above index rows = .ok reduced →
      (∀ x ∈ xs.head?, Linked above below x) →
      (Solves below rows xs ↔ Reduced reduced xs)
  | [], _, _, reduced, _, xs, helim, _ => by
      simp only [eliminate, Except.ok.injEq] at helim
      subst helim
      cases xs <;> simp [Solves, Reduced]
  | [r], above, index, reduced, below, xs, helim, hlink => by
      rw [eliminate] at helim
      dsimp only at helim
      split at helim
      · cases helim
      · next hsingular =>
          have hp := pivot_ne_zero_of_not_singular (Bool.not_eq_true _ ▸ hsingular)
          simp only [List.isEmpty_nil, ↓reduceIte, Outcome.map_eq_ok] at helim
          obtain ⟨tail, htail, rfl⟩ := helim
          rw [eliminate, Except.ok.injEq] at htail
          subst htail
          rcases xs with _ | ⟨x, _ | ⟨x', xs⟩⟩
          · simp [Solves, Reduced]
          · simp only [Solves, Reduced]
            constructor
            · intro hrow
              have hred := reduce_row (u := 0) (hlink x rfl) hp (by rw [add_zero]; exact hrow)
              rwa [zero_div, add_zero] at hred
            · intro hred
              have hrow := row_of_reduced_row (u := 0) (hlink x rfl) hp
                (by rw [zero_div, add_zero]; exact hred)
              rwa [add_zero] at hrow
          · simp [Solves, Reduced]
  | r :: r' :: rows, above, index, reduced, below, xs, helim, hlink => by
      rw [eliminate] at helim
      dsimp only at helim
      split at helim
      · cases helim
      · next hsingular =>
          have hp := pivot_ne_zero_of_not_singular (Bool.not_eq_true _ ▸ hsingular)
          simp only [List.isEmpty_cons, Bool.false_eq_true, ↓reduceIte,
            Outcome.map_eq_ok] at helim
          obtain ⟨tail, htail, rfl⟩ := helim
          cases tail with
          | nil =>
              have hlen := length_eliminate htail
              simp at hlen
          | cons cd tail =>
              rcases xs with _ | ⟨x, _ | ⟨x', xs⟩⟩
              · simp [Solves, Reduced]
              · simp [Solves, Reduced]
              · simp only [Solves, Reduced]
                have hrest : x + r.upper / pivot above r * x' =
                    reducedRhs above r (pivot above r) →
                    (Solves x (r' :: rows) (x' :: xs) ↔ Reduced (cd :: tail) (x' :: xs)) :=
                  fun hred => solves_iff_reduced htail (fun y hy => by
                    simp only [List.head?_cons, Option.mem_def, Option.some.injEq] at hy
                    subst hy
                    exact hred)
                constructor
                · rintro ⟨hrow, hsolves⟩
                  have hred : x + r.upper / pivot above r * x' =
                      reducedRhs above r (pivot above r) := by
                    rw [div_mul_eq_mul_div]
                    exact reduce_row (hlink x rfl) hp hrow
                  exact ⟨hred, (hrest hred).mp hsolves⟩
                · rintro ⟨hred, hreduced⟩
                  refine ⟨row_of_reduced_row (hlink x rfl) hp ?_, (hrest hred).mpr hreduced⟩
                  rw [← div_mul_eq_mul_div]
                  exact hred

/-- In exact arithmetic, a solve that refuses no pivot returns every vector that satisfies the
rows, which is therefore the only one. -/
theorem solve_eq_of_solves
    {rows : List (Row ℝ)} {reduced : List (ℝ × ℝ)} {xs : List ℝ}
    (helim : eliminate none 0 rows = .ok reduced)
    (hsolves : Solves 0 rows xs) :
    solve rows = .ok xs := by
  have hsub := substitute_eq_of_reduced
    ((solves_iff_reduced helim (fun _ _ => rfl)).mp hsolves)
  unfold solve
  rw [helim, Outcome.ok_bind, hsub]
  dsimp only
  have hnone : xs.findIdx? (fun v => !Scalar.isFinite v) = none := by
    simp
  rw [hnone]

/-- In exact arithmetic, the vector that a solve returns satisfies the rows. -/
theorem solves_of_solve
    {rows : List (Row ℝ)} {xs : List ℝ}
    (h : solve rows = .ok xs) :
    Solves 0 rows xs := by
  unfold solve at h
  cases he : eliminate none 0 rows with
  | error e => simp [he, bind, Except.bind] at h
  | ok reduced =>
    simp only [he, bind, Except.bind] at h
    split at h
    · cases h
    · cases h
      exact (solves_iff_reduced he (fun _ _ => rfl)).mpr (reduced_substitute reduced)

/-- The pivot of a row is at least its diagonal less `b` times its coefficient below, when the
multiplier above is at most `b` in magnitude. -/
theorem diag_sub_le_pivot
    {above : Option (ℝ × ℝ)} {r : Row ℝ} {b : ℝ}
    (hb0 : 0 ≤ b)
    (hbound : Bounded b above) :
    r.diag - b * |r.lower| ≤ pivot above r := by
  cases above with
  | none =>
      simp only [pivot]
      have hweight := mul_nonneg hb0 (abs_nonneg r.lower)
      linarith
  | some cd =>
      obtain ⟨c, d⟩ := cd
      simp only [Bounded] at hbound
      simp only [pivot]
      have hprod : r.lower * c ≤ b * |r.lower| := by
        calc r.lower * c ≤ |r.lower * c| := le_abs_self _
          _ = |r.lower| * |c| := abs_mul _ _
          _ ≤ |r.lower| * b := mul_le_mul_of_nonneg_left hbound (abs_nonneg _)
          _ = b * |r.lower| := mul_comm _ _
      linarith

/-- Below a multiplier at most `b` in magnitude, the pivot of a row whose diagonal exceeds `b`
times its coefficient below by `m` is at least `m`. -/
theorem le_pivot_of_bounded
    {above : Option (ℝ × ℝ)} {r : Row ℝ} {b m : ℝ}
    (hb0 : 0 ≤ b)
    (hbound : Bounded b above)
    (hrow : m + b * |r.lower| ≤ r.diag) :
    m ≤ pivot above r := by
  have hdiag := diag_sub_le_pivot (r := r) hb0 hbound
  linarith

/-- A pivot of at least one is not refused. -/
theorem singular_eq_false_of_one_le
    {p : ℝ}
    (hp : 1 ≤ p) :
    singular p = false := by
  simp only [singular, Exact.isFinite_eq, Bool.not_true, Bool.or_false,
    decide_eq_false_iff_not, not_lt, Exact.abs_eq]
  rw [abs_of_pos (by linarith)]
  exact le_trans Exact.minNormal_lt_one.le hp

/-- On dominant rows, elimination from a multiplier within `[-b, b]` refuses no pivot: each pivot
is at least one, and the multiplier `upper/p` it carries down is at most one in magnitude. -/
theorem eliminate_ok_of_dominant :
    ∀ {rows : List (Row ℝ)} {above : Option (ℝ × ℝ)} {index : Nat} {b : ℝ},
      0 ≤ b → Bounded b above → Dominant b rows →
      ∃ reduced, eliminate above index rows = .ok reduced
  | [], _, _, _, _, _, _ => ⟨[], rfl⟩
  | [r], above, index, b, hb0, hbound, hlow => by
      have hpivot : 1 ≤ pivot above r := le_pivot_of_bounded hb0 hbound hlow
      exact ⟨_, eliminate_singleton (singular_eq_false_of_one_le hpivot)⟩
  | r :: r' :: rows, above, index, b, hb0, hbound, ⟨hlow, hup, hdom⟩ => by
      have hpivot : 1 ≤ pivot above r := le_pivot_of_bounded hb0 hbound hlow
      have hnext : Bounded 1
          (some (r.upper / pivot above r, reducedRhs above r (pivot above r))) := by
        simp only [Bounded]
        have hpos : 0 < pivot above r := by linarith
        rw [abs_div, abs_of_pos hpos, div_le_one hpos]
        exact le_pivot_of_bounded hb0 hbound (by linarith)
      obtain ⟨tail, htail⟩ :
          ∃ tail, eliminate (some (r.upper / pivot above r,
            reducedRhs above r (pivot above r))) (index + 1) (r' :: rows) = .ok tail :=
        eliminate_ok_of_dominant zero_le_one hnext hdom
      exact ⟨_, by rw [eliminate_cons_cons (singular_eq_false_of_one_le hpivot), htail]; rfl⟩

/-- A system with a dominant diagonal is solved, in exact arithmetic, by the vector that
satisfies its rows. -/
theorem solve_eq_of_dominant
    {rows : List (Row ℝ)} {xs : List ℝ}
    (hdom : Dominant 0 rows)
    (hsolves : Solves 0 rows xs) :
    solve rows = .ok xs := by
  obtain ⟨reduced, helim⟩ := @eliminate_ok_of_dominant rows none 0 0 le_rfl trivial hdom
  exact solve_eq_of_solves helim hsolves

/-- On a system with a dominant diagonal, a solve returns exactly the vector that satisfies the
rows: such a vector exists, and it is the only one. -/
theorem solve_eq_ok_iff
    {rows : List (Row ℝ)} {xs : List ℝ}
    (hdom : Dominant 0 rows) :
    solve rows = .ok xs ↔ Solves 0 rows xs :=
  ⟨solves_of_solve, solve_eq_of_dominant hdom⟩

end Tridiagonal
end IceEnthalpy
