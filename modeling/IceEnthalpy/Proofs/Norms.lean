import IceEnthalpy.Proofs.Basic
import IceEnthalpy.Norms

/-!
# The error norms

Whatever the scalar, the norms check their profiles in a fixed order: profiles of different
lengths, then empty profiles, then the first level whose difference is not finite.  Past these
checks the largest error is the running maximum and the mean error the running sum, both taken
from the first level up, the sum over the number of levels.

Read exactly, every difference is finite, so the norms of two profiles of one positive length
always exist.  The running maximum of `accumulate`, started at zero, ends at the largest
absolute difference: it bounds every difference it has passed and is attained by one of them or
by its start.  The running sum ends at the sum of the differences, so the mean error is that sum
over the number of levels, and lies between zero and the largest error.  For two profiles on
the same levels `z`, `maxError = ⨆ᵢ |f(zᵢ) - g(zᵢ)|` and `avgError = (∑ᵢ |f(zᵢ) - g(zᵢ)|)/n`.

In binary64 each addition of the running sum rounds, and the mean can exceed the largest
error: three differences of `0.1` sum to `0.30000000000000004`, whose third is above `0.1`.
-/

namespace IceEnthalpy
namespace Norms

section Checks

variable {α : Type} [Scalar α]

/-- The absolute differences of pairs of values, level by level. -/
def differences (pairs : List (α × α)) : List α :=
  pairs.map fun ce => Scalar.abs (ce.1 - ce.2)

/-- The running maximum after one more difference, as the norms compare them. -/
def larger (largest d : α) : α :=
  if largest < d then d else largest

@[simp] theorem differences_cons (c e : α) (pairs : List (α × α)) :
    differences ((c, e) :: pairs) = Scalar.abs (c - e) :: differences pairs :=
  rfl

/-- When every difference is finite, the accumulation is the running maximum and the running
sum of the differences, from the first level on. -/
theorem accumulate_of_finite :
    ∀ (pairs : List (α × α)) (index : Nat) (largest sum : α),
      (∀ d ∈ differences pairs, Scalar.isFinite d = true) →
      accumulate index largest sum pairs =
        .ok ((differences pairs).foldl larger largest, (differences pairs).foldl (· + ·) sum)
  | [], _, _, _, _ => rfl
  | (c, e) :: rest, index, largest, sum, hfinite => by
      have hhead : Scalar.isFinite (Scalar.abs (c - e)) = true :=
        hfinite _ List.mem_cons_self
      rw [accumulate]
      simp only [hhead, Bool.not_true, Bool.false_eq_true, ↓reduceIte, differences_cons,
        List.foldl_cons]
      exact accumulate_of_finite rest _ _ _ fun d hd => hfinite d (List.mem_cons_of_mem _ hd)

/-- The accumulation stops at the first difference that is not finite, and names its level. -/
theorem accumulate_of_not_finite :
    ∀ (pairs : List (α × α)) (index : Nat) (largest sum : α),
      (∃ d ∈ differences pairs, Scalar.isFinite d = false) →
      accumulate index largest sum pairs =
        .error (.nonFinite (index + (differences pairs).findIdx fun d => !Scalar.isFinite d))
  | [], _, _, _, hsome => by simp [differences] at hsome
  | (c, e) :: rest, index, largest, sum, hsome => by
      rw [accumulate]
      by_cases hhead : Scalar.isFinite (Scalar.abs (c - e)) = true
      · have hrest : ∃ d ∈ differences rest, Scalar.isFinite d = false := by
          obtain ⟨d, hd, hfin⟩ := hsome
          rcases List.mem_cons.mp hd with rfl | hd
          · rw [hhead] at hfin
            cases hfin
          · exact ⟨d, hd, hfin⟩
        simp only [hhead, Bool.not_true, Bool.false_eq_true, ↓reduceIte, differences_cons,
          List.findIdx_cons, cond_false]
        rw [accumulate_of_not_finite rest (index + 1) _ _ hrest, Nat.add_right_comm,
          Nat.add_assoc]
      · simp only [hhead, Bool.not_false, ↓reduceIte, differences_cons, List.findIdx_cons,
          cond_true, Nat.add_zero]

variable {computed exact : Array α}

/-- Profiles of one length are never refused for their lengths. -/
theorem compute_of_size_eq
    (hsize : computed.size = exact.size) :
    compute computed exact =
      if computed.size = 0 then .error .empty
      else (accumulate 0 0.0 0.0 (computed.toList.zip exact.toList)).map fun r =>
        ⟨r.1, r.2 / Scalar.ofNat computed.size⟩ := by
  unfold compute
  simp only [hsize, ne_eq, not_true_eq_false, ↓reduceIte]
  split
  · rfl
  · cases accumulate 0 0.0 0.0 (computed.toList.zip exact.toList) <;> rfl

/-- Past the two size checks, the norms are the running maximum and mean when every difference
is finite, and otherwise the refusal of the first difference that is not. -/
theorem compute_past_sizes
    (hsize : computed.size = exact.size)
    (hpos : computed.size ≠ 0) :
    ((∀ d ∈ differences (computed.toList.zip exact.toList), Scalar.isFinite d = true) ∧
        compute computed exact =
          .ok ⟨(differences (computed.toList.zip exact.toList)).foldl larger 0.0,
            (differences (computed.toList.zip exact.toList)).foldl (· + ·) 0.0 /
              Scalar.ofNat computed.size⟩) ∨
      ((∃ d ∈ differences (computed.toList.zip exact.toList), Scalar.isFinite d = false) ∧
        compute computed exact = .error (.nonFinite
          ((differences (computed.toList.zip exact.toList)).findIdx
            fun d => !Scalar.isFinite d))) := by
  by_cases hall : ∀ d ∈ differences (computed.toList.zip exact.toList),
      Scalar.isFinite d = true
  · refine .inl ⟨hall, ?_⟩
    rw [compute_of_size_eq hsize, if_neg hpos, accumulate_of_finite _ _ _ _ hall]
    rfl
  · have hsome : ∃ d ∈ differences (computed.toList.zip exact.toList),
        Scalar.isFinite d = false := by
      push Not at hall
      obtain ⟨d, hd, hfin⟩ := hall
      exact ⟨d, hd, by simpa using hfin⟩
    refine .inr ⟨hsome, ?_⟩
    rw [compute_of_size_eq hsize, if_neg hpos, accumulate_of_not_finite _ _ _ _ hsome,
      Nat.zero_add]
    rfl

/-- The checks of the norms in the order they make them: profiles of different lengths are
refused for their lengths, then empty profiles, then the first level whose difference is not
finite.  Past these checks the norms are the running maximum and the running sum, over the
number of levels, of the differences from the first level up. -/
structure ChecksInOrder (computed exact : Array α) : Prop where
  lengthMismatch_iff :
    (∃ m n, compute computed exact = .error (.lengthMismatch m n)) ↔ computed.size ≠ exact.size
  empty_iff : computed.size = exact.size →
    (compute computed exact = .error .empty ↔ computed.size = 0)
  nonFinite_iff : computed.size = exact.size → computed.size ≠ 0 →
    ∀ i, compute computed exact = .error (.nonFinite i) ↔
      (∃ d ∈ differences (computed.toList.zip exact.toList), Scalar.isFinite d = false) ∧
        i = (differences (computed.toList.zip exact.toList)).findIdx
          fun d => !Scalar.isFinite d
  ok_of_finite : computed.size = exact.size → computed.size ≠ 0 →
    (∀ d ∈ differences (computed.toList.zip exact.toList), Scalar.isFinite d = true) →
    compute computed exact =
      .ok ⟨(differences (computed.toList.zip exact.toList)).foldl larger 0.0,
        (differences (computed.toList.zip exact.toList)).foldl (· + ·) 0.0 /
          Scalar.ofNat computed.size⟩

/-- Whatever the scalar, the norms make their checks in order. -/
theorem compute_checks : ChecksInOrder computed exact := by
  refine ⟨⟨fun ⟨m, n, h⟩ hsize => ?_, fun hsize => ⟨_, _, compute_of_size_ne hsize⟩⟩,
    fun hsize => ⟨fun h => ?_, fun hzero => ?_⟩, fun hsize hpos i => ?_,
    fun hsize hpos hall => ?_⟩
  · by_cases hzero : computed.size = 0
    · rw [compute_of_size_eq hsize, if_pos hzero] at h
      cases h
    · rcases compute_past_sizes hsize hzero with ⟨-, hok⟩ | ⟨-, herr⟩
      · rw [hok] at h
        cases h
      · rw [herr] at h
        cases h
  · by_contra hpos
    rcases compute_past_sizes hsize hpos with ⟨-, hok⟩ | ⟨-, herr⟩
    · rw [hok] at h
      cases h
    · rw [herr] at h
      cases h
  · rw [compute_of_size_eq hsize, if_pos hzero]
  · rcases compute_past_sizes hsize hpos with ⟨hall, hok⟩ | ⟨hsome, herr⟩
    · rw [hok]
      refine ⟨fun h => (by cases h), fun ⟨⟨d, hd, hfin⟩, _⟩ => ?_⟩
      rw [hall d hd] at hfin
      cases hfin
    · rw [herr, Except.error.injEq, NormsError.nonFinite.injEq]
      exact ⟨fun h => ⟨hsome, h.symm⟩, fun h => h.2.symm⟩
  · rcases compute_past_sizes hsize hpos with ⟨-, hok⟩ | ⟨⟨d, hd, hfin⟩, -⟩
    · exact hok
    · rw [hall d hd] at hfin
      cases hfin

end Checks

section Exact

/-- The accumulation succeeds; its maximum bounds every difference, is at least its start and
is attained, and its sum adds up all differences. -/
theorem accumulate_eq
    (l : List (ℝ × ℝ)) :
    ∀ (index : Nat) (largest sum : ℝ), ∃ top,
      accumulate index largest sum l = .ok (top, sum + (l.map fun ce => |ce.1 - ce.2|).sum) ∧
      largest ≤ top ∧ (∀ ce ∈ l, |ce.1 - ce.2| ≤ top) ∧
      (top = largest ∨ ∃ ce ∈ l, top = |ce.1 - ce.2|) := by
  induction l with
  | nil =>
      intro index largest sum
      refine ⟨largest, ?_, le_rfl, by simp, Or.inl rfl⟩
      simp [accumulate]
  | cons ce rest ih =>
      intro index largest sum
      obtain ⟨c, e⟩ := ce
      have hmax : (if largest < |c - e| then |c - e| else largest) = max largest |c - e| := by
        split
        · next hlt => exact (max_eq_right hlt.le).symm
        · next hge => exact (max_eq_left (not_lt.mp hge)).symm
      obtain ⟨top, hacc, hle, hbound, hattained⟩ :=
        ih (index + 1) (max largest |c - e|) (sum + |c - e|)
      refine ⟨top, ?_, le_trans (le_max_left _ _) hle, ?_, ?_⟩
      · rw [accumulate]
        simp only [Exact.abs_eq, Exact.isFinite_eq, Bool.not_true, Bool.false_eq_true,
          ↓reduceIte]
        rw [hmax, hacc, List.map_cons, List.sum_cons, add_assoc]
      · intro x hx
        rcases List.mem_cons.mp hx with rfl | hx
        · exact le_trans (le_max_right _ _) hle
        · exact hbound x hx
      · rcases hattained with htop | ⟨x, hx, htop⟩
        · rcases max_choice largest |c - e| with hchoice | hchoice
          · exact Or.inl (htop.trans hchoice)
          · exact Or.inr ⟨(c, e), List.mem_cons_self, htop.trans hchoice⟩
        · exact Or.inr ⟨x, List.mem_cons_of_mem _ hx, htop⟩

variable (z : Array ℝ) (f g : ℝ → ℝ)

/-- The pairs the norms walk through, for two profiles on the same levels. -/
theorem zip_map
    : (z.map f).toList.zip (z.map g).toList = z.toList.map fun x => (f x, g x) := by
  apply List.ext_getElem <;> simp

/-- A sum over the levels, as a sum over their indices. -/
theorem sum_map_toList
    (h : ℝ → ℝ) :
    (z.toList.map h).sum = ∑ i : Fin z.size, h z[i] := by
  rw [← List.sum_ofFn]
  congr 1
  apply List.ext_getElem <;> simp

/-- The largest and the mean absolute difference of two profiles on the same non-empty levels,
read exactly.  The running maximum bounds every level and is attained, so it is the supremum. -/
theorem compute_map
    (hz : 0 < z.size) :
    compute (z.map f) (z.map g) =
      .ok ⟨⨆ i : Fin z.size, |f z[i] - g z[i]|,
        (∑ i : Fin z.size, |f z[i] - g z[i]|) / z.size⟩ := by
  obtain ⟨top, hacc, -, hbound, hattained⟩ :=
    accumulate_eq ((z.map f).toList.zip (z.map g).toList) 0 0 0
  rw [zip_map] at hacc hbound hattained
  simp only [List.map_map, List.forall_mem_map, Function.comp_def, zero_add] at hacc hbound
  have hbdd : BddAbove (Set.range fun i : Fin z.size => |f z[i] - g z[i]|) :=
    (Set.finite_range _).bddAbove
  have hsup : top = ⨆ i : Fin z.size, |f z[i] - g z[i]| := by
    apply le_antisymm
    · rcases hattained with htop | ⟨ce, hce, htop⟩
      · rw [htop]
        exact le_trans (abs_nonneg _) (le_ciSup hbdd ⟨0, hz⟩)
      · obtain ⟨x, hx, rfl⟩ := List.mem_map.mp hce
        obtain ⟨i, hi, rfl⟩ := List.getElem_of_mem hx
        rw [htop]
        simpa using le_ciSup hbdd ⟨i, by simpa using hi⟩
    · have : Nonempty (Fin z.size) := ⟨⟨0, hz⟩⟩
      exact ciSup_le fun i => hbound _ (Array.getElem_mem_toList _)
  have hzero : (0.0 : ℝ) = 0 := by
    norm_num
  unfold compute
  simp only [Array.size_map, ne_eq, not_true_eq_false, ↓reduceIte, Nat.pos_iff_ne_zero.mp hz]
  rw [zip_map, hzero, hacc, Outcome.ok_bind, sum_map_toList, hsup]
  rfl

/-- Read exactly, the norms of two profiles of one positive length are the largest of the
differences and their sum over the number of levels. -/
theorem compute_eq_largest_mean
    {computed exact : Array ℝ}
    (hsize : computed.size = exact.size)
    (hpos : computed.size ≠ 0) :
    ∃ largest, compute computed exact =
        .ok ⟨largest, (differences (computed.toList.zip exact.toList)).sum / computed.size⟩ ∧
      largest ∈ differences (computed.toList.zip exact.toList) ∧
      ∀ d ∈ differences (computed.toList.zip exact.toList), d ≤ largest := by
  have hne : computed.toList.zip exact.toList ≠ [] := by
    rw [← List.length_pos_iff, List.length_zip, Array.length_toList, Array.length_toList, hsize,
      min_self]
    exact Nat.pos_of_ne_zero (hsize ▸ hpos)
  obtain ⟨top, hacc, -, hbound, hattained⟩ :=
    accumulate_eq (computed.toList.zip exact.toList) 0 0.0 0.0
  have hzero : (0.0 : ℝ) = 0 := by
    norm_num
  refine ⟨top, ?_, ?_, fun d hd => ?_⟩
  · rw [compute_of_size_eq hsize, if_neg hpos, hacc, hzero, zero_add]
    rfl
  · rcases hattained with htop | ⟨ce, hce, htop⟩
    · obtain ⟨ce, hce⟩ := List.exists_mem_of_ne_nil _ hne
      have hfirst : |ce.1 - ce.2| = top :=
        le_antisymm (hbound ce hce) (htop ▸ hzero ▸ abs_nonneg _)
      exact List.mem_map.mpr ⟨ce, hce, hfirst⟩
    · exact List.mem_map.mpr ⟨ce, hce, htop.symm⟩
  · obtain ⟨ce, hce, rfl⟩ := List.mem_map.mp hd
    exact hbound ce hce

/-- The mean of non-negative values lies between zero and any bound of them. -/
theorem mean_nonneg_and_le
    {ds : List ℝ} {largest : ℝ}
    (hne : ds ≠ [])
    (hnonneg : ∀ d ∈ ds, 0 ≤ d)
    (hbound : ∀ d ∈ ds, d ≤ largest) :
    0 ≤ ds.sum / ds.length ∧ ds.sum / ds.length ≤ largest := by
  have hlen : (0 : ℝ) < ds.length := by
    exact_mod_cast List.length_pos_iff.mpr hne
  have hsum : ds.sum ≤ ds.length * largest := by
    simpa using List.sum_le_card_nsmul ds largest hbound
  exact ⟨div_nonneg (List.sum_nonneg hnonneg) hlen.le,
    (div_le_iff₀ hlen).mpr (by linarith)⟩

/-- The norms make their checks in order whatever the scalar, binary64 included.  Read exactly,
the norms of two real profiles meet their specification: profiles of different lengths are
refused for their lengths, profiles of one length for being empty, and no difference is ever
refused as not finite.  Otherwise the largest error is the largest difference `|cᵢ - eᵢ|`, the
mean error is the sum of the differences over their number, and `0 ≤ avgError ≤ maxError`. -/
theorem compute_mean_le_max (computed exact : Array ℝ) :
    (∀ {β : Type} [Scalar β] (c e : Array β), ChecksInOrder c e) ∧
      ((∃ m n, compute computed exact = .error (.lengthMismatch m n)) ↔
        computed.size ≠ exact.size) ∧
      (computed.size = exact.size →
        (compute computed exact = .error .empty ↔ computed.size = 0)) ∧
      (∀ i, compute computed exact ≠ .error (.nonFinite i)) ∧
      (computed.size = exact.size → computed.size ≠ 0 →
        ∃ largest mean, compute computed exact = .ok ⟨largest, mean⟩ ∧
          largest ∈ differences (computed.toList.zip exact.toList) ∧
          (∀ d ∈ differences (computed.toList.zip exact.toList), d ≤ largest) ∧
          mean = (differences (computed.toList.zip exact.toList)).sum / computed.size ∧
          0 ≤ mean ∧ mean ≤ largest) := by
  obtain ⟨hlength, hempty, hfinite, -⟩ := @compute_checks ℝ _ computed exact
  refine ⟨fun c e => compute_checks, hlength, hempty, fun i h => ?_, fun hsize hpos => ?_⟩
  · by_cases hsize : computed.size = exact.size
    · by_cases hzero : computed.size = 0
      · rw [(hempty hsize).mpr hzero] at h
        cases h
      · obtain ⟨⟨d, -, hd⟩, -⟩ := (hfinite hsize hzero i).mp h
        simp at hd
    · rw [compute_of_size_ne hsize] at h
      cases h
  obtain ⟨largest, hok, hmem, hbound⟩ := compute_eq_largest_mean hsize hpos
  have hlen : (differences (computed.toList.zip exact.toList)).length = computed.size := by
    simp [differences, hsize]
  have hnonneg : ∀ d ∈ differences (computed.toList.zip exact.toList), 0 ≤ d := by
    intro d hd
    obtain ⟨ce, -, rfl⟩ := List.mem_map.mp hd
    exact abs_nonneg _
  have hmean := mean_nonneg_and_le (List.ne_nil_of_mem hmem) hnonneg hbound
  rw [hlen] at hmean
  exact ⟨largest, _, hok, hmem, hbound, rfl, hmean⟩

/-- The differences of `[1, 4]` from `[2, 2]` are `1` and `2`: the largest error is `2` and the
mean error `3/2`. -/
theorem compute_mean_le_max_two_levels :
    compute (#[1, 4] : Array ℝ) #[2, 2] = .ok ⟨2, 3 / 2⟩ := by
  obtain ⟨-, -, -, -, hok⟩ := compute_mean_le_max #[1, 4] #[2, 2]
  obtain ⟨largest, mean, hcompute, hmem, hbound, hmean, -⟩ := hok rfl (by decide)
  have hdiff :
      differences ((#[1, 4] : Array ℝ).toList.zip (#[2, 2] : Array ℝ).toList) = [1, 2] := by
    norm_num [differences, Exact.abs_eq]
  rw [hdiff] at hmem hbound hmean
  have hlargest : largest = 2 := by
    refine le_antisymm ?_ (hbound 2 (by simp))
    rcases List.mem_pair.mp hmem with rfl | rfl <;> norm_num
  rw [hcompute, hlargest, hmean]
  norm_num

end Exact

end Norms
end IceEnthalpy
