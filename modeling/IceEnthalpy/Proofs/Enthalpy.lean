import IceEnthalpy.Proofs.Setup

/-!
# The enthalpy of ice, read exactly

A state of ice under a pressure has an enthalpy when it is cold ice without water or
temperate ice at the melting point with a water fraction in `[0, 1]`.  Every other state is
refused: a water fraction outside `[0, 1]` first, then a temperature above the melting point,
both out of the domain, and last water in cold ice, a state that cannot exist.

On the states it accepts, the enthalpy orders the states as temperature and then water
fraction do.  Cold ice has `c·(T - T_ref)`, which rises with `T` because `c > 0` and stays
below the transition value `c·(T_m - T_ref)`; temperate ice has the transition value plus
`L·ω`, which rises with `ω` because `L > 0`.  The cold branch reaches the transition value as
`T` rises to the melting point, so no jump separates the two.

Deeper ice is under more pressure and melts at a lower temperature: the transition enthalpy
falls with depth at the rate `c·β·ρ·g`, which the checks of the properties make non-negative.
-/

namespace IceEnthalpy
namespace Ice.Properties

open Filter Topology

section Exact

variable (p : Properties ℝ) (pr : ℝ)

/-- The checks of `enthalpy`, read exactly. -/
theorem enthalpy_eq_ite (T ω : ℝ) :
    p.enthalpy T ω pr =
      if ω ∉ Set.Icc 0 1 then .error (.waterFraction ω)
      else if p.meltingTemperature pr < T then
        .error (.aboveMelting T (p.meltingTemperature pr))
      else if T < p.meltingTemperature pr then
        if 0 < ω then .error (.waterInColdIce T)
        else .ok (p.specificHeat * (T - p.referenceTemperature))
      else .ok (p.transitionEnthalpy pr + p.latentHeat * ω) := by
  have h0 : (0.0 : ℝ) = 0 := by norm_num
  have h1 : (1.0 : ℝ) = 1 := by norm_num
  simp only [enthalpy, h0, h1, Set.mem_Icc, gt_iff_lt, Bool.not_and, Bool.or_eq_true,
    Bool.not_eq_true', decide_eq_false_iff_not, not_and_or]

variable {p pr}

theorem enthalpy_of_not_mem {T ω : ℝ} (hω : ω ∉ Set.Icc 0 1) :
    p.enthalpy T ω pr = .error (.waterFraction ω) := by
  rw [enthalpy_eq_ite, if_pos hω]

theorem enthalpy_of_above {T ω : ℝ}
    (hω : ω ∈ Set.Icc 0 1)
    (hT : p.meltingTemperature pr < T) :
    p.enthalpy T ω pr = .error (.aboveMelting T (p.meltingTemperature pr)) := by
  rw [enthalpy_eq_ite, if_neg (not_not.mpr hω), if_pos hT]

theorem enthalpy_of_wet_cold {T ω : ℝ}
    (hω : ω ∈ Set.Icc 0 1)
    (hT : T < p.meltingTemperature pr)
    (hwet : 0 < ω) :
    p.enthalpy T ω pr = .error (.waterInColdIce T) := by
  rw [enthalpy_eq_ite, if_neg (not_not.mpr hω), if_neg (lt_asymm hT), if_pos hT, if_pos hwet]

theorem enthalpy_of_cold {T : ℝ} (hT : T < p.meltingTemperature pr) :
    p.enthalpy T 0 pr = .ok (p.specificHeat * (T - p.referenceTemperature)) := by
  have hzero : (0 : ℝ) ∈ Set.Icc 0 1 := Set.left_mem_Icc.mpr zero_le_one
  rw [enthalpy_eq_ite, if_neg (not_not.mpr hzero), if_neg (lt_asymm hT), if_pos hT,
    if_neg (lt_irrefl 0)]

theorem enthalpy_of_melting {ω : ℝ} (hω : ω ∈ Set.Icc 0 1) :
    p.enthalpy (p.meltingTemperature pr) ω pr =
      .ok (p.transitionEnthalpy pr + p.latentHeat * ω) := by
  rw [enthalpy_eq_ite, if_neg (not_not.mpr hω), if_neg (lt_irrefl _), if_neg (lt_irrefl _)]

/-- Every state falls in one of five cases: three refusals, in the order they are checked,
and the two kinds of ice that have an enthalpy. -/
theorem enthalpy_cases (p : Properties ℝ) (pr T ω : ℝ) :
    (ω ∉ Set.Icc 0 1 ∧ p.enthalpy T ω pr = .error (.waterFraction ω)) ∨
      (ω ∈ Set.Icc 0 1 ∧ p.meltingTemperature pr < T ∧
        p.enthalpy T ω pr = .error (.aboveMelting T (p.meltingTemperature pr))) ∨
      (ω ∈ Set.Icc 0 1 ∧ T < p.meltingTemperature pr ∧ 0 < ω ∧
        p.enthalpy T ω pr = .error (.waterInColdIce T)) ∨
      (T < p.meltingTemperature pr ∧ ω = 0 ∧
        p.enthalpy T ω pr = .ok (p.specificHeat * (T - p.referenceTemperature))) ∨
      (T = p.meltingTemperature pr ∧ ω ∈ Set.Icc 0 1 ∧
        p.enthalpy T ω pr = .ok (p.transitionEnthalpy pr + p.latentHeat * ω)) := by
  by_cases hω : ω ∈ Set.Icc 0 1
  · rcases lt_trichotomy T (p.meltingTemperature pr) with hT | rfl | hT
    · rcases hω.1.lt_or_eq with hwet | hdry
      · exact .inr (.inr (.inl ⟨hω, hT, hwet, enthalpy_of_wet_cold hω hT hwet⟩))
      · subst hdry
        exact .inr (.inr (.inr (.inl ⟨hT, rfl, enthalpy_of_cold hT⟩)))
    · exact .inr (.inr (.inr (.inr ⟨rfl, hω, enthalpy_of_melting hω⟩)))
    · exact .inr (.inl ⟨hω, hT, enthalpy_of_above hω hT⟩)
  · exact .inl ⟨hω, enthalpy_of_not_mem hω⟩

/-- The states that have an enthalpy, with the enthalpy of each: cold ice without water, and
ice at the melting point with a water fraction in `[0, 1]`. -/
theorem enthalpy_eq_ok_iff {T ω E : ℝ} :
    p.enthalpy T ω pr = .ok E ↔
      (T < p.meltingTemperature pr ∧ ω = 0 ∧
          E = p.specificHeat * (T - p.referenceTemperature)) ∨
        (T = p.meltingTemperature pr ∧ ω ∈ Set.Icc 0 1 ∧
          E = p.transitionEnthalpy pr + p.latentHeat * ω) := by
  have hzero : (0 : ℝ) ∈ Set.Icc 0 1 := Set.left_mem_Icc.mpr zero_le_one
  rcases enthalpy_cases p pr T ω with ⟨hω, h⟩ | ⟨hω, hT, h⟩ | ⟨hω, hT, hwet, h⟩ | ⟨hT, rfl, h⟩ |
      ⟨rfl, hω, h⟩
  · simp only [h, reduceCtorEq, false_iff, not_or, not_and]
    exact ⟨fun _ h0 => absurd (h0 ▸ hzero) hω, fun _ hω' => absurd hω' hω⟩
  · simp only [h, reduceCtorEq, false_iff, not_or, not_and]
    exact ⟨fun hlt => absurd hlt (lt_asymm hT), fun heq => absurd heq hT.ne'⟩
  · simp only [h, reduceCtorEq, false_iff, not_or, not_and]
    exact ⟨fun _ h0 => absurd h0 hwet.ne', fun heq => absurd heq hT.ne⟩
  · simp only [h, Except.ok.injEq, hT, true_and, hT.ne, false_and, or_false]
    exact eq_comm
  · simp only [h, Except.ok.injEq, lt_irrefl, false_and, true_and, false_or, hω]
    exact eq_comm

/-- The states that are refused, each with its reason: a water fraction outside `[0, 1]`
whatever the temperature, a temperature above the melting point, and water in cold ice. -/
theorem enthalpy_eq_error_iff {T ω : ℝ} {e : StateError ℝ} :
    p.enthalpy T ω pr = .error e ↔
      (ω ∉ Set.Icc 0 1 ∧ e = .waterFraction ω) ∨
        (ω ∈ Set.Icc 0 1 ∧ p.meltingTemperature pr < T ∧
          e = .aboveMelting T (p.meltingTemperature pr)) ∨
        (ω ∈ Set.Icc 0 1 ∧ T < p.meltingTemperature pr ∧ 0 < ω ∧
          e = .waterInColdIce T) := by
  have hzero : (0 : ℝ) ∈ Set.Icc 0 1 := Set.left_mem_Icc.mpr zero_le_one
  rcases enthalpy_cases p pr T ω with ⟨hω, h⟩ | ⟨hω, hT, h⟩ | ⟨hω, hT, hwet, h⟩ | ⟨hT, rfl, h⟩ |
      ⟨rfl, hω, h⟩
  · simp only [h, Except.error.injEq, hω, not_false_eq_true, true_and, false_and, or_false]
    exact eq_comm
  · simp only [h, Except.error.injEq, hω, not_true_eq_false, false_and, true_and, hT,
      lt_asymm hT, false_or, or_false]
    exact eq_comm
  · simp only [h, Except.error.injEq, hω, not_true_eq_false, false_and, true_and, hT, hwet,
      lt_asymm hT, false_or]
    exact eq_comm
  · simp only [h, reduceCtorEq, hzero, not_true_eq_false, false_and, lt_asymm hT, lt_irrefl,
      and_false, or_self]
  · simp only [h, reduceCtorEq, hω, not_true_eq_false, false_and, true_and, lt_irrefl, or_self]

/-- The refusals out of the domain: a water fraction outside `[0, 1]` or a temperature above
the melting point. -/
theorem enthalpy_outOfDomain_iff {T ω : ℝ} :
    (∃ e, p.enthalpy T ω pr = .error e ∧ e.name = "OutOfDomain") ↔
      ω ∉ Set.Icc 0 1 ∨ p.meltingTemperature pr < T := by
  simp only [enthalpy_eq_error_iff]
  constructor
  · rintro ⟨e, ⟨hω, -⟩ | ⟨-, hT, -⟩ | ⟨-, -, -, rfl⟩, hname⟩
    · exact .inl hω
    · exact .inr hT
    · simp [StateError.name] at hname
  · rintro (hω | hT)
    · exact ⟨_, .inl ⟨hω, rfl⟩, rfl⟩
    · by_cases hω : ω ∈ Set.Icc 0 1
      · exact ⟨_, .inr (.inl ⟨hω, hT, rfl⟩), rfl⟩
      · exact ⟨_, .inl ⟨hω, rfl⟩, rfl⟩

/-- The refusals of impossible states: water in cold ice, once the state is in the domain. -/
theorem enthalpy_invalidState_iff {T ω : ℝ} :
    (∃ e, p.enthalpy T ω pr = .error e ∧ e.name = "InvalidState") ↔
      ω ∈ Set.Icc 0 1 ∧ T < p.meltingTemperature pr ∧ 0 < ω := by
  simp only [enthalpy_eq_error_iff]
  constructor
  · rintro ⟨e, ⟨-, rfl⟩ | ⟨-, -, rfl⟩ | ⟨hω, hT, hwet, -⟩, hname⟩
    · simp [StateError.name] at hname
    · simp [StateError.name] at hname
    · exact ⟨hω, hT, hwet⟩
  · rintro ⟨hω, hT, hwet⟩
    exact ⟨_, .inr (.inr ⟨hω, hT, hwet, rfl⟩), rfl⟩

/-- Cold ice lies below the transition enthalpy. -/
theorem cold_lt_transitionEnthalpy
    {T : ℝ}
    (hc : 0 < p.specificHeat)
    (hT : T < p.meltingTemperature pr) :
    p.specificHeat * (T - p.referenceTemperature) < p.transitionEnthalpy pr :=
  mul_lt_mul_of_pos_left (sub_lt_sub_right hT _) hc

/-- On the accepted states, the enthalpy rises strictly with the temperature and then with the
water fraction. -/
theorem enthalpy_lt_of_lex_lt
    {T₁ ω₁ E₁ T₂ ω₂ E₂ : ℝ}
    (hp : Usable p)
    (h₁ : p.enthalpy T₁ ω₁ pr = .ok E₁)
    (h₂ : p.enthalpy T₂ ω₂ pr = .ok E₂)
    (hlt : toLex (T₁, ω₁) < toLex (T₂, ω₂)) :
    E₁ < E₂ := by
  rw [Prod.Lex.toLex_lt_toLex] at hlt
  dsimp only at hlt
  rw [enthalpy_eq_ok_iff] at h₁ h₂
  rcases h₁ with ⟨hT₁, rfl, rfl⟩ | ⟨hT₁, hω₁, rfl⟩ <;>
    rcases h₂ with ⟨hT₂, rfl, rfl⟩ | ⟨hT₂, hω₂, rfl⟩
  · have hT : T₁ < T₂ := by
      rcases hlt with hT | ⟨-, hω⟩
      · exact hT
      · exact absurd hω (lt_irrefl 0)
    exact mul_lt_mul_of_pos_left (sub_lt_sub_right hT _) hp.specificHeat_pos
  · calc p.specificHeat * (T₁ - p.referenceTemperature)
        < p.transitionEnthalpy pr := cold_lt_transitionEnthalpy hp.specificHeat_pos hT₁
      _ ≤ p.transitionEnthalpy pr + p.latentHeat * ω₂ :=
          le_add_of_nonneg_right (mul_nonneg hp.latentHeat_pos.le hω₂.1)
  · exfalso
    rcases hlt with hT | ⟨hT, -⟩ <;> linarith
  · have hω : ω₁ < ω₂ := by
      rcases hlt with hT | ⟨-, hω⟩
      · exact absurd (hT₁.trans hT₂.symm) hT.ne
      · exact hω
    exact add_lt_add_right (mul_lt_mul_of_pos_left hω hp.latentHeat_pos) _

/-- Two accepted states of one enthalpy are the same state. -/
theorem eq_of_enthalpy_eq
    {T₁ ω₁ T₂ ω₂ E : ℝ}
    (hp : Usable p)
    (h₁ : p.enthalpy T₁ ω₁ pr = .ok E)
    (h₂ : p.enthalpy T₂ ω₂ pr = .ok E) :
    T₁ = T₂ ∧ ω₁ = ω₂ := by
  rcases lt_trichotomy (toLex (T₁, ω₁)) (toLex (T₂, ω₂)) with hlt | heq | hgt
  · exact absurd (enthalpy_lt_of_lex_lt hp h₁ h₂ hlt) (lt_irrefl E)
  · exact Prod.ext_iff.mp (toLex.injective heq)
  · exact absurd (enthalpy_lt_of_lex_lt hp h₂ h₁ hgt) (lt_irrefl E)

/-- The cold enthalpy tends to the transition enthalpy as the temperature rises to the melting
point. -/
theorem tendsto_cold_transitionEnthalpy :
    Tendsto (fun T => p.specificHeat * (T - p.referenceTemperature))
      (𝓝[<] p.meltingTemperature pr) (𝓝 (p.transitionEnthalpy pr)) := by
  have hcont : Continuous fun T : ℝ => p.specificHeat * (T - p.referenceTemperature) := by
    fun_prop
  exact (hcont.tendsto _).mono_left nhdsWithin_le_nhds

/-- The transition enthalpy at a depth: the value at the surface less `c·β·ρ·g` per metre. -/
theorem transitionEnthalpy_pressure (d : ℝ) :
    p.transitionEnthalpy (p.pressure d) =
      p.transitionEnthalpy p.surfacePressure -
        p.specificHeat * (p.clausiusClapeyron * p.density * p.gravity) * d := by
  unfold transitionEnthalpy meltingTemperature Properties.pressure
  ring

theorem transitionEnthalpy_pressure_antitone (hp : Usable p) :
    Antitone fun d => p.transitionEnthalpy (p.pressure d) := by
  intro d₁ d₂ hd
  have hrate : 0 ≤ p.specificHeat * (p.clausiusClapeyron * p.density * p.gravity) :=
    mul_nonneg hp.specificHeat_pos.le
      (mul_nonneg (mul_nonneg hp.clausiusClapeyron_nonneg hp.density_pos.le) hp.gravity_nonneg)
  simp only [transitionEnthalpy_pressure]
  exact sub_le_sub_left (mul_le_mul_of_nonneg_left hd hrate) _

theorem transitionEnthalpy_pressure_strictAnti
    (hp : Usable p)
    (hslope : 0 < p.clausiusClapeyron * p.density * p.gravity) :
    StrictAnti fun d => p.transitionEnthalpy (p.pressure d) := by
  intro d₁ d₂ hd
  simp only [transitionEnthalpy_pressure]
  exact sub_lt_sub_left (mul_lt_mul_of_pos_left hd (mul_pos hp.specificHeat_pos hslope)) _

end Exact

/-- Read exactly, with properties that pass their checks and under any pressure, the enthalpy
refuses as out of its domain exactly the states with a water fraction outside `[0, 1]` (the
first check) or a temperature above the melting point, and as impossible exactly the cold
states that hold water.  It accepts cold ice without water and ice at the melting point with a
fraction in `[0, 1]`, and on these it rises strictly in the order of temperature and then water
fraction, so no two states share an enthalpy.  Dry ice at the melting point has the transition
enthalpy, which the cold enthalpy tends to from below.  The transition enthalpy at a depth falls
as the depth grows, strictly when `β·ρ·g > 0`. -/
theorem enthalpy_domain_and_order
    {p : Properties ℝ}
    (hvalid : p.validate = .ok p)
    (pr : ℝ) :
    (∀ T ω, (∃ e, p.enthalpy T ω pr = .error e ∧ e.name = "OutOfDomain") ↔
        ω ∉ Set.Icc 0 1 ∨ p.meltingTemperature pr < T) ∧
      (∀ T ω, ω ∉ Set.Icc 0 1 → p.enthalpy T ω pr = .error (.waterFraction ω)) ∧
      (∀ T ω, (∃ e, p.enthalpy T ω pr = .error e ∧ e.name = "InvalidState") ↔
        ω ∈ Set.Icc 0 1 ∧ T < p.meltingTemperature pr ∧ 0 < ω) ∧
      (∀ T ω E, p.enthalpy T ω pr = .ok E ↔
        (T < p.meltingTemperature pr ∧ ω = 0 ∧
            E = p.specificHeat * (T - p.referenceTemperature)) ∨
          (T = p.meltingTemperature pr ∧ ω ∈ Set.Icc 0 1 ∧
            E = p.transitionEnthalpy pr + p.latentHeat * ω)) ∧
      (∀ T₁ ω₁ E₁ T₂ ω₂ E₂, p.enthalpy T₁ ω₁ pr = .ok E₁ → p.enthalpy T₂ ω₂ pr = .ok E₂ →
        toLex (T₁, ω₁) < toLex (T₂, ω₂) → E₁ < E₂) ∧
      (∀ T₁ ω₁ T₂ ω₂ E, p.enthalpy T₁ ω₁ pr = .ok E → p.enthalpy T₂ ω₂ pr = .ok E →
        T₁ = T₂ ∧ ω₁ = ω₂) ∧
      p.enthalpy (p.meltingTemperature pr) 0 pr = .ok (p.transitionEnthalpy pr) ∧
      Tendsto (fun T => p.specificHeat * (T - p.referenceTemperature))
        (𝓝[<] p.meltingTemperature pr) (𝓝 (p.transitionEnthalpy pr)) ∧
      Antitone (fun d => p.transitionEnthalpy (p.pressure d)) ∧
      (0 < p.clausiusClapeyron * p.density * p.gravity →
        StrictAnti fun d => p.transitionEnthalpy (p.pressure d)) := by
  have hp := usable_of_validate hvalid
  have hdry : p.enthalpy (p.meltingTemperature pr) 0 pr = .ok (p.transitionEnthalpy pr) := by
    rw [enthalpy_of_melting (Set.left_mem_Icc.mpr zero_le_one), mul_zero, add_zero]
  exact ⟨fun _ _ => enthalpy_outOfDomain_iff, fun _ _ => enthalpy_of_not_mem,
    fun _ _ => enthalpy_invalidState_iff, fun _ _ _ => enthalpy_eq_ok_iff,
    fun _ _ _ _ _ _ => enthalpy_lt_of_lex_lt hp, fun _ _ _ _ _ => eq_of_enthalpy_eq hp,
    hdry, tendsto_cold_transitionEnthalpy, transitionEnthalpy_pressure_antitone hp,
    transitionEnthalpy_pressure_strictAnti hp⟩

/-- The laws of the enthalpy for polar ice at the surface. -/
theorem enthalpy_domain_and_order_standard :
    (standard : Properties ℝ).validate = .ok standard ∧
      (∀ T ω, (∃ e, (standard : Properties ℝ).enthalpy T ω 0 = .error e ∧
          e.name = "OutOfDomain") ↔
        ω ∉ Set.Icc 0 1 ∨ (standard : Properties ℝ).meltingTemperature 0 < T) ∧
      (∀ T ω, ω ∉ Set.Icc 0 1 →
        (standard : Properties ℝ).enthalpy T ω 0 = .error (.waterFraction ω)) ∧
      (∀ T ω, (∃ e, (standard : Properties ℝ).enthalpy T ω 0 = .error e ∧
          e.name = "InvalidState") ↔
        ω ∈ Set.Icc 0 1 ∧ T < (standard : Properties ℝ).meltingTemperature 0 ∧ 0 < ω) ∧
      (∀ T ω E, (standard : Properties ℝ).enthalpy T ω 0 = .ok E ↔
        (T < (standard : Properties ℝ).meltingTemperature 0 ∧ ω = 0 ∧
            E = (standard : Properties ℝ).specificHeat *
              (T - (standard : Properties ℝ).referenceTemperature)) ∨
          (T = (standard : Properties ℝ).meltingTemperature 0 ∧ ω ∈ Set.Icc 0 1 ∧
            E = (standard : Properties ℝ).transitionEnthalpy 0 +
              (standard : Properties ℝ).latentHeat * ω)) ∧
      (∀ T₁ ω₁ E₁ T₂ ω₂ E₂, (standard : Properties ℝ).enthalpy T₁ ω₁ 0 = .ok E₁ →
        (standard : Properties ℝ).enthalpy T₂ ω₂ 0 = .ok E₂ →
        toLex (T₁, ω₁) < toLex (T₂, ω₂) → E₁ < E₂) ∧
      (∀ T₁ ω₁ T₂ ω₂ E, (standard : Properties ℝ).enthalpy T₁ ω₁ 0 = .ok E →
        (standard : Properties ℝ).enthalpy T₂ ω₂ 0 = .ok E → T₁ = T₂ ∧ ω₁ = ω₂) ∧
      (standard : Properties ℝ).enthalpy ((standard : Properties ℝ).meltingTemperature 0) 0 0 =
        .ok ((standard : Properties ℝ).transitionEnthalpy 0) ∧
      Tendsto (fun T => (standard : Properties ℝ).specificHeat *
          (T - (standard : Properties ℝ).referenceTemperature))
        (𝓝[<] (standard : Properties ℝ).meltingTemperature 0)
        (𝓝 ((standard : Properties ℝ).transitionEnthalpy 0)) ∧
      Antitone (fun d => (standard : Properties ℝ).transitionEnthalpy
        ((standard : Properties ℝ).pressure d)) ∧
      (0 < (standard : Properties ℝ).clausiusClapeyron * (standard : Properties ℝ).density *
          (standard : Properties ℝ).gravity →
        StrictAnti fun d => (standard : Properties ℝ).transitionEnthalpy
          ((standard : Properties ℝ).pressure d)) := by
  have hvalid : (standard : Properties ℝ).validate = .ok standard :=
    validate_eq_ok.mpr ⟨check_standard, rfl⟩
  exact ⟨hvalid, enthalpy_domain_and_order hvalid 0⟩

end Ice.Properties
end IceEnthalpy
