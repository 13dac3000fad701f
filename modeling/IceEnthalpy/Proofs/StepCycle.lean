import IceEnthalpy.Proofs.Conduction
import IceEnthalpy.Proofs.Setup

/-!
# The step cycle of the conduction solver

A conduction solver is driven through a cycle: `prepare` takes a column, a condition is imposed
once at each end, and `solve` advances the profile and sends the solver back to waiting.  Any
sequence of its operations may be asked of it, in any order; this module says what each one does
and what holds along every sequence.

The place in the cycle is the solver's `Phase`, read through two views: whether the solver is
prepared, and the condition held at each end.  A waiting solver has no slots for conditions, so
that it holds none is built into its state.  The laws of the cycle, `Protocol`, hold in every
state:

* a condition is refused before `prepare`, and then at an end that already holds one; otherwise
  it is stored at its end, and nothing else changes;
* a solve is refused before `prepare`, and then while the base, and after it the surface, holds
  no condition; with both set it either breaks down or stores the profile it returns, frees both
  ends and leaves the solver waiting;
* a successful `prepare` stores the column's enthalpy interpolated onto the solver's grid and
  frees both ends.

A refused stage changes nothing, and a remap never changes the solver.  So along every sequence
from a solver as built, the solver stays as built up to its profile and its phase, and its
profile keeps one value per level of its grid: `(n-1)·ρ + 1` values for a column of `n` levels
refined `ρ` times.
-/

namespace IceEnthalpy

namespace Phase

variable {α : Type}

/-- Whether the solver was prepared since its last successful solve. -/
def prepared : Phase α → Bool
  | .idle => false
  | .ready _ _ => true

/-- The condition held at an end. -/
def edge : Phase α → Boundary → Option (Edge α)
  | .idle, _ => none
  | .ready base _, .base => base
  | .ready _ surface, .surface => surface

/-- The phase with a condition stored at one end; a waiting solver stores none. -/
def withEdge : Phase α → Boundary → Edge α → Phase α
  | .idle, _, _ => .idle
  | .ready _ surface, .base, e => .ready (some e) surface
  | .ready base _, .surface, e => .ready base (some e)

@[simp] theorem prepared_withEdge (ph : Phase α) (b : Boundary) (e : Edge α) :
    (ph.withEdge b e).prepared = ph.prepared := by
  cases ph <;> cases b <;> rfl

theorem edge_withEdge_self {ph : Phase α} (h : ph.prepared = true) (b : Boundary) (e : Edge α) :
    (ph.withEdge b e).edge b = some e := by
  cases ph with
  | idle => cases h
  | ready base surface => cases b <;> rfl

theorem edge_withEdge_of_ne (ph : Phase α) {b b' : Boundary} (h : b' ≠ b) (e : Edge α) :
    (ph.withEdge b e).edge b' = ph.edge b' := by
  cases ph <;> cases b <;> cases b' <;> first | rfl | exact absurd rfl h

/-- A waiting solver holds no condition. -/
theorem edge_of_prepared_eq_false {ph : Phase α} (h : ph.prepared = false) (b : Boundary) :
    ph.edge b = none := by
  cases ph with
  | idle => rfl
  | ready base surface => cases h

end Phase

/-- A refused stage leaves the state as it was. -/
theorem Step.state_ofExcept
    {σ β ρ : Type} (f : σ → Except (SolverError β) (ρ × σ)) (s : σ) :
    ((Step.ofExcept f).run.run s).run.2 =
      match f s with
      | .ok (_, next) => next
      | .error _ => s := by
  unfold Step.ofExcept
  cases h : f s <;> simp [ExceptT.run, ExceptT.mk, StateT.run, pure, h] <;> rfl

namespace Conduction

/-- An operation asked of a conduction solver. -/
inductive Op (α : Type) [Scalar α] where
  /-- Takes a column, flagged marginal or not, with an ice thickness. -/
  | prepare (c : Column α) (marginal : Bool) (thickness : α)
  /-- Sets the condition at one end. -/
  | impose (b : Boundary) (condition : Condition α)
  /-- Sets the base condition and then the surface condition. -/
  | apply (conditions : Conditions α)
  /-- Advances the profile by one time step. -/
  | solve
  /-- Writes a profile into a column. -/
  | remap (profile : Array α) (c : Column α)

variable {α : Type} [Scalar α]

/-- The solver after an operation, run as a stage of the cycle. -/
def Op.next : Op α → Conduction α → Conduction α
  | .prepare c marginal thickness, s =>
    ((Stepper.prepare c marginal thickness : Step (Conduction α) α Unit).run.run s).run.2
  | .impose b condition, s =>
    ((Stepper.impose b condition : Step (Conduction α) α Unit).run.run s).run.2
  | .apply conditions, s =>
    ((Stepper.apply conditions : Step (Conduction α) α Unit).run.run s).run.2
  | .solve, s => ((Stepper.solve : Step (Conduction α) α (Array α)).run.run s).run.2
  | .remap profile c, s =>
    ((Stepper.remap profile c : Step (Conduction α) α (Column α)).run.run s).run.2

/-- The solver after operations asked in turn. -/
def session (s : Conduction α) (ops : List (Op α)) : Conduction α :=
  ops.foldl (fun s op => op.next s) s

section Operation

variable (s : Conduction α)

theorem impose_eq (b : Boundary) (condition : Condition α) :
    s.impose b condition =
      if s.phase.prepared = false then .error .notPrepared
      else if s.phase.edge b ≠ none then .error (.conditionAlreadySet b)
      else .ok { s with phase := s.phase.withEdge b (condition.toEdge s.conductivity) } := by
  unfold impose
  rcases hph : s.phase with _ | ⟨_ | base, _ | surface⟩ <;> cases b <;>
    simp [Phase.prepared, Phase.edge, Phase.withEdge]

theorem prepare_eq_ok
    {c : Column α} {marginal : Bool} {thickness : α} {next : Conduction α}
    (h : s.prepare c marginal thickness = .ok next) :
    next = { s with
      enthalpy := Interpolation.interpolate s.column.z c.enthalpy s.grid.z
      phase := .ready none none } := by
  unfold prepare at h
  split at h
  · cases h
  · split at h
    · cases h
    · split at h
      · cases h
      · cases h
        rfl

theorem solve_eq_ok
    {x : Array α} {next : Conduction α}
    (h : s.solve = .ok (x, next)) :
    ∃ base surface xs, s.phase = .ready (some base) (some surface) ∧
      Tridiagonal.solve (s.system base surface) = .ok xs ∧ x = xs.toArray ∧
      next = { s with enthalpy := x, phase := .idle } := by
  unfold solve at h
  split at h
  · cases h
  · cases h
  · cases h
  · next base surface hph =>
      split at h
      · cases h
      · next xs hxs =>
          cases h
          exact ⟨base, surface, xs, hph, hxs, rfl, rfl⟩

/-- A solve that breaks down held both conditions, and the Thomas algorithm broke down on the
system between them. -/
theorem solve_eq_nonConvergence
    {cause : Breakdown α}
    (h : s.solve = .error (.nonConvergence cause)) :
    ∃ base surface, s.phase = .ready (some base) (some surface) ∧
      Tridiagonal.solve (s.system base surface) = .error cause := by
  unfold solve at h
  split at h
  · cases h
  · cases h
  · cases h
  · next base surface hph =>
      split at h
      · next cause' hcause =>
          cases h
          exact ⟨base, surface, hph, hcause⟩
      · cases h

/-- A solve that is not refused for the order of the cycle either breaks down or returns. -/
theorem solve_of_ready
    {base surface : Edge α}
    (h : s.phase = .ready (some base) (some surface)) :
    (∃ x next, s.solve = .ok (x, next)) ∨ ∃ cause, s.solve = .error (.nonConvergence cause) := by
  unfold solve
  rw [h]
  dsimp only
  split
  · next cause _ => exact .inr ⟨cause, rfl⟩
  · exact .inl ⟨_, _, rfl⟩

end Operation

section Next

variable (s : Conduction α)

theorem next_prepare (c : Column α) (marginal : Bool) (thickness : α) :
    (Op.prepare c marginal thickness).next s =
      match s.prepare c marginal thickness with
      | .ok next => next
      | .error _ => s := by
  simp only [Op.next]
  rw [show (Stepper.prepare c marginal thickness : Step (Conduction α) α Unit) =
      Step.ofExcept fun s => (s.prepare c marginal thickness).map ((), ·) from rfl,
    Step.state_ofExcept]
  cases s.prepare c marginal thickness <;> rfl

theorem next_impose (b : Boundary) (condition : Condition α) :
    (Op.impose b condition).next s =
      match s.impose b condition with
      | .ok next => next
      | .error _ => s := by
  simp only [Op.next]
  rw [show (Stepper.impose b condition : Step (Conduction α) α Unit) =
      Step.ofExcept fun s => (s.impose b condition).map ((), ·) from rfl,
    Step.state_ofExcept]
  cases s.impose b condition <;> rfl

theorem next_solve :
    Op.solve.next s =
      match s.solve with
      | .ok (_, next) => next
      | .error _ => s := by
  simp only [Op.next]
  rw [show (Stepper.solve : Step (Conduction α) α (Array α)) =
      Step.ofExcept fun s => s.solve from rfl,
    Step.state_ofExcept]
  cases s.solve <;> rfl

/-- A remap writes into the column and leaves the solver. -/
theorem next_remap (profile : Array α) (c : Column α) :
    (Op.remap profile c).next s = s := by
  simp only [Op.next]
  rw [show (Stepper.remap profile c : Step (Conduction α) α (Column α)) =
      Step.ofExcept fun s => (s.remap profile c).map (·, s) from rfl,
    Step.state_ofExcept]
  cases s.remap profile c <;> rfl

/-- Both conditions are imposed in turn; a refused base condition ends the stage, while a refused
surface condition leaves the base condition stored. -/
theorem next_apply (conditions : Conditions α) :
    (Op.apply conditions).next s =
      match s.impose .base conditions.base with
      | .ok next => (Op.impose .surface conditions.surface).next next
      | .error _ => s := by
  simp only [Op.next, Stepper.apply]
  rw [show (Stepper.impose .base conditions.base : Step (Conduction α) α Unit) =
      Step.ofExcept fun s => (s.impose .base conditions.base).map ((), ·) from rfl]
  cases hbase : s.impose .base conditions.base with
  | error e =>
      simp [Step.ofExcept, ExceptT.run, ExceptT.mk, ExceptT.bind, ExceptT.bindCont, StateT.run,
        StateT.bind, bind, hbase, Except.map]
      rfl
  | ok next =>
      simp [Step.ofExcept, ExceptT.run, ExceptT.mk, ExceptT.bind, ExceptT.bindCont, StateT.run,
        StateT.bind, bind, hbase, Except.map]
      rfl

end Next

/-- `s` is the solver `s₀` up to its profile and its phase, and its profile has one value per
level of its grid. -/
structure Keeps (s₀ s : Conduction α) : Prop where
  eq_with : ∃ e ph, s = { s₀ with enthalpy := e, phase := ph }
  size_enthalpy : s.enthalpy.size = s.grid.levels

namespace Keeps

variable {s₀ s : Conduction α}

/-- A new profile with one value per level, in any phase. -/
theorem with_enthalpy
    (h : Keeps s₀ s)
    {e : Array α} {ph : Phase α}
    (he : e.size = s.grid.levels) :
    Keeps s₀ { s with enthalpy := e, phase := ph } := by
  obtain ⟨e₀, ph₀, rfl⟩ := h.eq_with
  exact ⟨⟨e, ph, rfl⟩, he⟩

theorem impose (h : Keeps s₀ s) (b : Boundary) (condition : Condition α) :
    Keeps s₀ ((Op.impose b condition).next s) := by
  rw [next_impose, impose_eq]
  split_ifs
  · exact h
  · exact h
  · exact h.with_enthalpy h.size_enthalpy

/-- One operation keeps the solver as built up to its profile and phase. -/
theorem next (h : Keeps s₀ s) : ∀ op : Op α, Keeps s₀ (op.next s)
  | .prepare c marginal thickness => by
      rw [next_prepare]
      split
      · next next hprepare =>
          rw [s.prepare_eq_ok hprepare]
          exact h.with_enthalpy (Interpolation.size_interpolate _ _ _)
      · exact h
  | .impose b condition => h.impose b condition
  | .apply conditions => by
      rw [next_apply]
      split
      · next s₁ hbase =>
          have h₁ : Keeps s₀ s₁ := by
            have := h.impose .base conditions.base
            rwa [next_impose, hbase] at this
          exact h₁.impose .surface conditions.surface
      · exact h
  | .solve => by
      rw [next_solve]
      split
      · next x next hsolve =>
          obtain ⟨base, surface, xs, -, hxs, rfl, rfl⟩ := s.solve_eq_ok hsolve
          apply h.with_enthalpy
          rw [List.size_toArray, Tridiagonal.length_solve hxs, length_system]
      · exact h
  | .remap profile c => by
      rw [next_remap]
      exact h

/-- Every sequence of operations keeps the solver as built up to its profile and phase. -/
theorem session (h : Keeps s₀ s) (ops : List (Op α)) : Keeps s₀ (s.session ops) := by
  induction ops generalizing s with
  | nil => exact h
  | cons op ops ih => exact ih (h.next op)

end Keeps

/-- A solver as built: its column grid is the one it was built for, its own grid has the refined
count of levels, its profile is one zero per level, it waits for `prepare`, and it steps by the
time step it was built with, with the diffusivity of the ice. -/
theorem fields_of_build
    {g : Grid α} {dt : α} {p : Ice.Properties α} {setup : Setup} {s₀ : Conduction α}
    (h : build g dt p setup = .ok s₀) :
    s₀.column = g ∧ s₀.grid.levels = fineLevels g.levels setup.refinement ∧
      s₀.enthalpy = Array.replicate s₀.grid.levels 0.0 ∧ s₀.phase = .idle ∧
      s₀.dt = dt ∧ s₀.diffusivity = p.diffusivity := by
  unfold build at h
  by_cases hdt : isPositive dt = true
  · by_cases hr : setup.refinement = 0
    · simp [hdt, hr, throw, throwThe, MonadExceptOf.throw, bind, Except.bind] at h
    · simp only [hdt, hr, Bool.not_true, Bool.false_eq_true, ↓reduceIte, Outcome.bind_eq_ok,
        Outcome.mapError_eq_ok, Ice.Properties.validate_eq_ok, Outcome.pure_eq_ok] at h
      obtain ⟨q, ⟨-, rfl⟩, fine, hfine, rfl⟩ := h
      have hlevels := Grid.levels_of_build hfine
      exact ⟨rfl, hlevels, by rw [hlevels], rfl, rfl, rfl⟩
  · simp [hdt, throw, throwThe, MonadExceptOf.throw, bind, Except.bind] at h

/-- A solver is built for every grid when the time step is positive, the properties usable and
the refined count gives at least two levels (so the refinement is at least one). -/
theorem build_eq_ok
    (g : Grid α) {dt : α} {p : Ice.Properties α} {setup : Setup}
    (hdt : (0.0 : α) < dt)
    (hp : p.check = none)
    (hlevels : 2 ≤ fineLevels g.levels setup.refinement) :
    ∃ s₀, build g dt p setup = .ok s₀ := by
  have hpositive : isPositive dt = true := by
    simp [isPositive, hdt]
  have hr : setup.refinement ≠ 0 := by
    intro hzero
    rw [hzero, fineLevels_zero] at hlevels
    omega
  have hfine : ∃ fine, Grid.build (fineLevels g.levels setup.refinement) g.height = .ok fine :=
    ⟨_, by rw [Grid.build, dif_neg (by omega), dif_pos g.height_pos]⟩
  obtain ⟨fine, hfine⟩ := hfine
  unfold build
  simp only [hpositive, hr, Bool.not_true, Bool.false_eq_true, ↓reduceIte]
  rw [(Ice.Properties.validate_eq_ok (q := p)).mpr ⟨hp, rfl⟩, Outcome.mapError_ok]
  simp only [Outcome.ok_bind, hfine, Outcome.mapError_ok]
  exact ⟨_, rfl⟩

/-- A solver is built only for a positive time step and ice whose properties pass their checks,
and it refines its column grid on the column's height. -/
theorem fine_of_build
    {g : Grid ℝ} {dt : ℝ} {p : Ice.Properties ℝ} {setup : Setup} {s₀ : Conduction ℝ}
    (h : build g dt p setup = .ok s₀) :
    0 < dt ∧ p.check = none ∧
      Grid.build (fineLevels g.levels setup.refinement) g.height = .ok s₀.grid := by
  unfold build at h
  by_cases hdt : isPositive dt = true
  · by_cases hr : setup.refinement = 0
    · simp [hdt, hr, throw, throwThe, MonadExceptOf.throw, bind, Except.bind] at h
    · simp only [hdt, hr, Bool.not_true, Bool.false_eq_true, ↓reduceIte, Outcome.bind_eq_ok,
        Outcome.mapError_eq_ok, Ice.Properties.validate_eq_ok, Outcome.pure_eq_ok] at h
      obtain ⟨q, ⟨hcheck, rfl⟩, fine, hfine, rfl⟩ := h
      exact ⟨(Exact.isPositive_iff dt).mp hdt, hcheck, hfine⟩
  · simp [hdt, throw, throwThe, MonadExceptOf.throw, bind, Except.bind] at h

/-- A built solver, read exactly, has a positive time step and a positive diffusivity. -/
theorem zero_lt_of_build
    {g : Grid ℝ} {dt : ℝ} {p : Ice.Properties ℝ} {setup : Setup} {s₀ : Conduction ℝ}
    (h : build g dt p setup = .ok s₀) :
    0 < s₀.dt ∧ 0 < s₀.diffusivity := by
  obtain ⟨-, -, -, -, hdt, hD⟩ := fields_of_build h
  obtain ⟨hpos, hcheck, -⟩ := fine_of_build h
  rw [hdt, hD]
  exact ⟨hpos, Ice.Properties.zero_lt_diffusivity hcheck⟩

/-- Read exactly, a solver for the standard properties is built on the grid of every column of
`n` levels, with every positive time step and every setup whose refined count on `n` levels is
at least two. -/
theorem build_standard_eq_ok
    {n : Nat} {H dt : ℝ} {g : Grid ℝ} (hg : Grid.build n H = .ok g) (hdt : 0 < dt)
    (setup : Setup) (hlevels : 2 ≤ fineLevels n setup.refinement) :
    ∃ s₀, build g dt Ice.Properties.standard setup = .ok s₀ := by
  have hdt' : (0.0 : ℝ) < dt := by
    norm_num [hdt]
  rw [← Grid.levels_of_build hg] at hlevels
  exact build_eq_ok g hdt' Ice.Properties.check_standard hlevels

theorem keeps_of_build
    {g : Grid α} {dt : α} {p : Ice.Properties α} {setup : Setup} {s₀ : Conduction α}
    (h : build g dt p setup = .ok s₀) :
    Keeps s₀ s₀ := by
  obtain ⟨-, -, henthalpy, -⟩ := fields_of_build h
  exact ⟨⟨s₀.enthalpy, s₀.phase, rfl⟩, by rw [henthalpy, Array.size_replicate]⟩

/-- The laws of the step cycle at a solver `s`. -/
structure Protocol (s : Conduction α) : Prop where
  /-- A condition is refused as out of order exactly before `prepare`. -/
  impose_notPrepared : ∀ b condition,
    s.impose b condition = .error .notPrepared ↔ s.phase.prepared = false
  /-- Once prepared, a condition is refused exactly at an end that already holds one. -/
  impose_conditionAlreadySet : ∀ b condition, s.phase.prepared = true →
    (s.impose b condition = .error (.conditionAlreadySet b) ↔ s.phase.edge b ≠ none)
  /-- Otherwise the condition is stored at its end, as an edge, and nothing else changes. -/
  impose_ok : ∀ b condition, s.phase.prepared = true → s.phase.edge b = none →
    s.impose b condition =
      .ok { s with phase := s.phase.withEdge b (condition.toEdge s.conductivity) }
  /-- A solve is refused as out of order exactly before `prepare`. -/
  solve_notPrepared : s.solve = .error .notPrepared ↔ s.phase.prepared = false
  /-- Once prepared, a solve is refused exactly while the base holds no condition. -/
  solve_missingBase : s.phase.prepared = true →
    (s.solve = .error (.missingCondition .base) ↔ s.phase.edge .base = none)
  /-- With a base condition, a solve is refused exactly while the surface holds none. -/
  solve_missingSurface : s.phase.prepared = true → s.phase.edge .base ≠ none →
    (s.solve = .error (.missingCondition .surface) ↔ s.phase.edge .surface = none)
  /-- With both conditions, a solve returns or breaks down. -/
  solve_ready : s.phase.prepared = true → s.phase.edge .base ≠ none →
    s.phase.edge .surface ≠ none →
      (∃ x next, s.solve = .ok (x, next)) ∨ ∃ cause, s.solve = .error (.nonConvergence cause)
  /-- A successful solve stores its profile and leaves the solver waiting, with no condition. -/
  solve_ok : ∀ x next, s.solve = .ok (x, next) → next = { s with enthalpy := x, phase := .idle }
  /-- A successful `prepare` stores the column's enthalpy interpolated onto the solver's grid,
  and leaves the solver prepared with no condition. -/
  prepare_ok : ∀ c marginal thickness next, s.prepare c marginal thickness = .ok next →
    next = { s with
      enthalpy := Interpolation.interpolate s.column.z c.enthalpy s.grid.z
      phase := .ready none none }

/-- Every solver follows the laws of the cycle. -/
theorem protocol (s : Conduction α) : Protocol s where
  impose_notPrepared b condition := by
    rw [impose_eq]
    split_ifs <;> simp_all
  impose_conditionAlreadySet b condition hprepared := by
    rw [impose_eq, if_neg (by simp [hprepared])]
    split_ifs <;> simp_all
  impose_ok b condition hprepared hfree := by
    rw [impose_eq, if_neg (by simp [hprepared]), if_neg (by simp [hfree])]
  solve_notPrepared := by
    rcases hph : s.phase with _ | ⟨_ | base, _ | surface⟩ <;>
      simp [solve, hph, Phase.prepared]
    split <;> simp
  solve_missingBase hprepared := by
    rcases hph : s.phase with _ | ⟨_ | base, _ | surface⟩ <;>
      simp_all [solve, Phase.prepared, Phase.edge]
    split <;> simp
  solve_missingSurface hprepared hbase := by
    rcases hph : s.phase with _ | ⟨_ | base, _ | surface⟩ <;>
      simp_all [solve, Phase.prepared, Phase.edge]
    split <;> simp
  solve_ready hprepared hbase hsurface := by
    rcases hph : s.phase with _ | ⟨_ | base, _ | surface⟩ <;>
      simp_all [Phase.prepared, Phase.edge]
    exact s.solve_of_ready hph
  solve_ok x next hsolve := by
    obtain ⟨-, -, -, -, -, rfl, rfl⟩ := s.solve_eq_ok hsolve
    rfl
  prepare_ok _ _ _ _ hprepare := s.prepare_eq_ok hprepare

/-- Along every sequence of operations on a solver as built for a column grid of `n` levels
with refinement `ρ`, where `(n-1)·ρ + 1` fits in a word, the profile has `(n-1)·ρ + 1` values, a
solver that is not prepared holds no condition, and the solver follows the laws of the cycle. -/
theorem build_session_protocol
    {g : Grid α} {dt : α} {p : Ice.Properties α} {setup : Setup} {s₀ : Conduction α}
    (hbuild : build g dt p setup = .ok s₀)
    (hword : (g.levels - 1) * setup.refinement + 1 < 2 ^ 64)
    (ops : List (Op α)) :
    (s₀.session ops).enthalpy.size = (g.levels - 1) * setup.refinement + 1 ∧
      ((s₀.session ops).phase.prepared = false → ∀ b, (s₀.session ops).phase.edge b = none) ∧
      Protocol (s₀.session ops) := by
  obtain ⟨-, hlevels, -⟩ := fields_of_build hbuild
  have hkeeps := (keeps_of_build hbuild).session ops
  have hgrid : (s₀.session ops).grid = s₀.grid := by
    obtain ⟨e, ph, heq⟩ := hkeeps.eq_with
    rw [heq]
  refine ⟨?_, fun hidle => Phase.edge_of_prepared_eq_false hidle, protocol _⟩
  rw [hkeeps.size_enthalpy, hgrid, hlevels, fineLevels_of_lt hword]

/-- The laws along every sequence on a Crank–Nicolson solver for polar ice, built for a column of
five levels spanning 1000 m and refined three times. -/
theorem build_session_protocol_refined :
    ∃ (g : Grid ℝ) (s₀ : Conduction ℝ), Grid.build 5 1000 = .ok g ∧
      build g 1 Ice.Properties.standard ⟨.crankNicolson, 3⟩ = .ok s₀ ∧
      (g.levels - 1) * 3 + 1 < 2 ^ 64 ∧
      ∀ ops : List (Op ℝ),
        (s₀.session ops).enthalpy.size = (g.levels - 1) * 3 + 1 ∧
          ((s₀.session ops).phase.prepared = false → ∀ b, (s₀.session ops).phase.edge b = none) ∧
          Protocol (s₀.session ops) := by
  obtain ⟨g, hg⟩ := Grid.build_eq_ok (n := 5) (H := 1000) (by decide) (by norm_num)
  have hword : (g.levels - 1) * 3 + 1 < 2 ^ 64 := by
    rw [Grid.levels_of_build hg]
    norm_num
  obtain ⟨s₀, hs₀⟩ :=
    build_standard_eq_ok hg (by norm_num : (0 : ℝ) < 1) ⟨.crankNicolson, 3⟩ (by decide)
  exact ⟨g, s₀, hg, hs₀, hword, build_session_protocol hs₀ hword⟩

/-- A solver for polar ice built for a column of four levels spanning 1000 m and refined
12297829382473034412 times: the count `3·ρ + 1` wraps modulo `2⁶⁴` to five, so its profile holds
five values and not `3·ρ + 1`. -/
theorem build_session_size_wraps :
    ∃ (g : Grid ℝ) (s₀ : Conduction ℝ), Grid.build 4 1000 = .ok g ∧
      build g 1 Ice.Properties.standard ⟨.backwardEuler, 12297829382473034412⟩ = .ok s₀ ∧
      (s₀.session []).enthalpy.size = 5 ∧
      (s₀.session []).enthalpy.size ≠ (g.levels - 1) * 12297829382473034412 + 1 := by
  obtain ⟨g, hg⟩ := Grid.build_eq_ok (n := 4) (H := 1000) (by decide) (by norm_num)
  have hcount : fineLevels g.levels 12297829382473034412 = 5 := by
    rw [Grid.levels_of_build hg]
    decide
  obtain ⟨s₀, hs₀⟩ := build_standard_eq_ok hg (by norm_num : (0 : ℝ) < 1)
    ⟨.backwardEuler, 12297829382473034412⟩ (by decide)
  obtain ⟨-, hlevels, henthalpy, -⟩ := fields_of_build hs₀
  have hsize : (s₀.session []).enthalpy.size = 5 := by
    rw [show s₀.session [] = s₀ from rfl, henthalpy, Array.size_replicate, hlevels]
    exact hcount
  refine ⟨g, s₀, hg, hs₀, hsize, ?_⟩
  rw [hsize, Grid.levels_of_build hg]
  decide

end Conduction

end IceEnthalpy
