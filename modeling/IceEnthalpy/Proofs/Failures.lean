import IceEnthalpy.Proofs.Loop
import IceEnthalpy.Proofs.Norms
import IceEnthalpy.Proofs.StepCycle
import IceEnthalpy.Proofs.Verification

/-!
# What a verification run can fail with

A verification run of the conduction solver fails at the first stage that fails, and most
stages cannot fail once the ones before them have succeeded: the setup has checked the ice
properties and the column height, the factory builds the solver for the very grid and time step
the run uses, the column carries no physics besides the enthalpy once reset, and the run drives
the solver through its cycle in order.  What remains is

* the setup's own failures: unusable properties, a boundary enthalpy, the analytic solution;
* a column of fewer than two levels, and a solver refinement of zero;
* a solve that breaks down in some step, and an error norm that is not finite.

The argument needs two facts of the arithmetic, both true of binary64 and of the reals: a positive
number does not differ from itself by more than a positive tolerance times itself, and zero
equals zero.  Read exactly, a solve never breaks down (its system is diagonally dominant) and
every difference is finite, so a run succeeds exactly when the setup does, the column has two
levels and the refinement is at least one.
-/

namespace IceEnthalpy

namespace Tridiagonal

/-- A system with a dominant diagonal is solved in exact arithmetic, whatever its right-hand
sides. -/
theorem solve_ok_of_dominant
    {rows : List (Row ℝ)}
    (hdom : Dominant 0 rows) :
    ∃ xs, solve rows = .ok xs := by
  obtain ⟨reduced, helim⟩ := @eliminate_ok_of_dominant rows none 0 0 le_rfl trivial hdom
  refine ⟨substitute reduced, ?_⟩
  unfold solve
  rw [helim, Outcome.ok_bind]
  dsimp only
  have hnone : (substitute reduced).findIdx? (fun v => !Scalar.isFinite v) = none := by
    simp
  rw [hnone]

end Tridiagonal

namespace Conduction

variable {α : Type} [Scalar α]

/-- A column and a solver along a verification run with the solver `s₀`: the column lies on the
grid `s₀` was built for and holds nothing but enthalpy, and the solver is `s₀` up to its profile
and its phase. -/
structure Fits (s₀ : Conduction α) (c : Column α) (s : Conduction α) : Prop where
  grid_eq : c.grid = s₀.column
  otherPhysics_eq : otherPhysics c = none
  keeps : Keeps s₀ s

theorem prepare_of_fits
    (hthickness : ∀ x : α, (0.0 : α) < x → ¬Scalar.abs (x - x) > thicknessTolerance * x)
    {s : Conduction α} {c : Column α}
    (hgrid : c.grid = s.column)
    (hother : otherPhysics c = none) :
    s.prepare c false c.grid.height =
      .ok { s with
        enthalpy := Interpolation.interpolate s.column.z c.enthalpy s.grid.z
        phase := .ready none none } := by
  unfold prepare
  rw [hgrid, if_neg (not_not_intro rfl), if_neg (hthickness _ s.column.height_pos), hother]

theorem remap_of_fits
    {s : Conduction α} {c : Column α} {x : Array α}
    (hsize : x.size = s.grid.levels)
    (hgrid : c.grid = s.column) :
    ∃ c', s.remap x c = .ok c' ∧ c'.grid = c.grid ∧ otherPhysics c' = otherPhysics c := by
  have hfits : (Interpolation.interpolate s.grid.z x c.z).size = c.grid.levels := by
    simp [Column.z, Grid.levels]
  have hlevels : ¬(c.grid.levels ≠ s.column.levels) := by
    rw [hgrid]
    exact not_not_intro rfl
  refine ⟨{ c with enthalpy := Interpolation.interpolate s.grid.z x c.z, size_enthalpy := hfits },
    ?_, rfl, otherPhysics_of_setProfile (Column.setProfile_of_size c hfits)⟩
  unfold remap
  rw [if_neg (not_not_intro hsize), if_neg hlevels, Column.setProfile_of_size c hfits]
  rfl

/-- A refused stage leaves the state as it was. -/
theorem run_ofExcept_error
    {σ β ρ : Type} {f : σ → Except (SolverError β) (ρ × σ)} {s : σ} {e : SolverError β}
    (h : f s = .error e) :
    (Step.ofExcept f).run.run s = pure (.error e, s) := by
  simp [Step.ofExcept, ExceptT.run, ExceptT.mk, StateT.run, h]

/-- A step whose solve is refused, after `prepare` and both conditions, ends there with the solver
that holds both conditions. -/
theorem advance_eq_error
    {s s₁ s₂ s₃ : Conduction α} {c : Column α} {conditions : Conditions α} {e : SolverError α}
    (hprepare : s.prepare c false c.grid.height = .ok s₁)
    (hbase : s₁.impose .base conditions.base = .ok s₂)
    (hsurface : s₂.impose .surface conditions.surface = .ok s₃)
    (hsolve : s₃.solve = .error e) :
    ((Stepper.advance c conditions).run.run s).run = (.error e, s₃) := by
  have h₁ : (Stepper.prepare c false c.grid.height : Step (Conduction α) α Unit).run.run s =
      pure (.ok (), s₁) :=
    run_ofExcept_ok (by simp [hprepare, Except.map])
  have h₂ : (Stepper.impose .base conditions.base : Step (Conduction α) α Unit).run.run s₁ =
      pure (.ok (), s₂) :=
    run_ofExcept_ok (by simp [hbase, Except.map])
  have h₃ : (Stepper.impose .surface conditions.surface : Step (Conduction α) α Unit).run.run
      s₂ = pure (.ok (), s₃) :=
    run_ofExcept_ok (by simp [hsurface, Except.map])
  have h₄ : (Stepper.solve : Step (Conduction α) α (Array α)).run.run s₃ = pure (.error e, s₃) :=
    run_ofExcept_error hsolve
  simp [Stepper.advance, Stepper.apply, ExceptT.run_bind, StateT.run_bind, h₁, h₂, h₃, h₄]

/-- One step from a fitting column and solver: `prepare` and both conditions succeed and leave a
solver that holds both conditions, and the step then ends as its solve does; a solve that returns
leaves a fitting column and solver. -/
theorem advance_of_fits
    (hthickness : ∀ x : α, (0.0 : α) < x → ¬Scalar.abs (x - x) > thicknessTolerance * x)
    {s₀ s : Conduction α} {c : Column α} (conditions : Conditions α)
    (h : Fits s₀ c s) :
    ∃ ready : Conduction α, Keeps s₀ ready ∧
      (∃ base surface, ready.phase = .ready (some base) (some surface)) ∧
      (∀ x next, ready.solve = .ok (x, next) →
        ∃ c', ((Stepper.advance c conditions).run.run s).run = (.ok (x, c'), next) ∧
          Fits s₀ c' next) ∧
      ∀ e, ready.solve = .error e →
        ((Stepper.advance c conditions).run.run s).run = (.error e, ready) := by
  have hgrid : c.grid = s.column := by
    obtain ⟨e, ph, rfl⟩ := h.keeps.eq_with
    exact h.grid_eq
  have hprepare := prepare_of_fits hthickness hgrid h.otherPhysics_eq
  have hbase :
      ({ s with
          enthalpy := Interpolation.interpolate s.column.z c.enthalpy s.grid.z
          phase := .ready none none } : Conduction α).impose .base conditions.base =
        .ok { s with
          enthalpy := Interpolation.interpolate s.column.z c.enthalpy s.grid.z
          phase := .ready (some (conditions.base.toEdge s.conductivity)) none } := by
    simp [impose]
  have hsurface :
      ({ s with
          enthalpy := Interpolation.interpolate s.column.z c.enthalpy s.grid.z
          phase := .ready (some (conditions.base.toEdge s.conductivity)) none } :
        Conduction α).impose .surface conditions.surface =
        .ok { s with
          enthalpy := Interpolation.interpolate s.column.z c.enthalpy s.grid.z
          phase := .ready (some (conditions.base.toEdge s.conductivity))
            (some (conditions.surface.toEdge s.conductivity)) } := by
    simp [impose]
  refine ⟨_, ?_, ⟨_, _, rfl⟩, ?_, fun e hsolve => advance_eq_error hprepare hbase hsurface hsolve⟩
  · exact h.keeps.with_enthalpy (Interpolation.size_interpolate _ _ _)
  · intro x next hsolve
    obtain ⟨eb, es, xs, -, hxs, rfl, rfl⟩ := solve_eq_ok _ hsolve
    have hsize : xs.toArray.size = s.grid.levels := by
      rw [List.size_toArray, Tridiagonal.length_solve hxs, length_system]
    obtain ⟨c', hremap, hgrid', hother'⟩ := remap_of_fits hsize hgrid
    refine ⟨c', advance_eq_ok hprepare hbase hsurface hsolve hremap, ?_⟩
    exact ⟨hgrid'.trans h.grid_eq, hother'.trans h.otherPhysics_eq,
      h.keeps.with_enthalpy hsize⟩

/-- One step from a fitting column and solver either succeeds, leaving a fitting column and
solver, or breaks down in its solve. -/
theorem advance_cases
    (hthickness : ∀ x : α, (0.0 : α) < x → ¬Scalar.abs (x - x) > thicknessTolerance * x)
    {s₀ s : Conduction α} {c : Column α} (conditions : Conditions α)
    (h : Fits s₀ c s) :
    (∃ p c' s', ((Stepper.advance c conditions).run.run s).run = (.ok (p, c'), s') ∧
        Fits s₀ c' s') ∨
      ∃ cause s', ((Stepper.advance c conditions).run.run s).run =
        (.error (.nonConvergence cause), s') := by
  obtain ⟨ready, -, ⟨base, surface, hph⟩, hok, herror⟩ := advance_of_fits hthickness conditions h
  rcases solve_of_ready ready hph with ⟨x, next, hsolve⟩ | ⟨cause, hsolve⟩
  · obtain ⟨c', hadvance, hfits⟩ := hok x next hsolve
    exact .inl ⟨x, c', next, hadvance, hfits⟩
  · exact .inr ⟨cause, ready, herror _ hsolve⟩

/-- A reset column and the solver built for its grid fit each other. -/
theorem fits_of_build
    (hzero : ((0.0 : α) != 0.0) = false)
    {c : Column α} {dt : α} {p : Ice.Properties α} {setup : Setup} {s₀ : Conduction α}
    (h : build c.resetVelocity.resetStrainHeating.grid dt p setup = .ok s₀) :
    Fits s₀ c.resetVelocity.resetStrainHeating s₀ :=
  ⟨(fields_of_build h).1.symm, otherPhysics_reset hzero c, keeps_of_build h⟩

section Exact

/-- Read exactly, a solve that holds both conditions returns: its system is diagonally dominant
for every profile. -/
theorem solve_ok_of_ready
    (s : Conduction ℝ)
    (hD : 0 ≤ s.diffusivity)
    (hdt : 0 ≤ s.dt)
    {base surface : Edge ℝ}
    (hph : s.phase = .ready (some base) (some surface)) :
    ∃ x next, s.solve = .ok (x, next) := by
  obtain ⟨xs, hxs⟩ :=
    Tridiagonal.solve_ok_of_dominant (s.system_dominant base surface (s.meshRatio_nonneg hD hdt))
  exact ⟨xs.toArray, { s with enthalpy := xs.toArray, phase := .idle },
    by simp only [solve, hph, hxs]⟩

/-- Read exactly, every step from a fitting column and solver succeeds. -/
theorem advance_exact
    {s₀ s : Conduction ℝ} {c : Column ℝ} (conditions : Conditions ℝ)
    (hD : 0 ≤ s₀.diffusivity)
    (hdt : 0 ≤ s₀.dt)
    (h : Fits s₀ c s) :
    ∃ p c' s', ((Stepper.advance c conditions).run.run s).run = (.ok (p, c'), s') ∧
      Fits s₀ c' s' := by
  obtain ⟨ready, hkeeps, ⟨base, surface, hph⟩, hok, -⟩ :=
    advance_of_fits thickness_exact conditions h
  obtain ⟨e, ph, hready⟩ := hkeeps.eq_with
  have hD' : 0 ≤ ready.diffusivity := by
    rw [hready]
    exact hD
  have hdt' : 0 ≤ ready.dt := by
    rw [hready]
    exact hdt
  obtain ⟨x, next, hsolve⟩ := solve_ok_of_ready ready hD' hdt' hph
  obtain ⟨c', hadvance, hfits⟩ := hok x next hsolve
  exact ⟨x, c', next, hadvance, hfits⟩

end Exact

end Conduction

namespace Run

variable {σ α : Type} [Scalar α] [Stepper σ α] {conditions : Conditions α} {dt : α}

/-- The march keeps an invariant that every step keeps, or stops at a step whose failure has a
property that the failure of every failing step has. -/
theorem march_of_step_or_fail
    (Inv : Column α → σ → Prop) (P : SolverError α → Prop)
    (hstep : ∀ c s, Inv c s →
      (∃ p c' s', ((Stepper.advance c conditions).run.run s).run = (.ok (p, c'), s') ∧
          Inv c' s') ∨
        ∃ e s', ((Stepper.advance c conditions).run.run s).run = (.error e, s') ∧ P e) :
    ∀ (k j : Nat) (t : α) (profile : Array α) (c : Column α) (s : σ), Inv c s →
      (∃ o c' s', march conditions dt k j t profile c s = (.ok o, c', s') ∧ Inv c' s') ∨
        ∃ i e c' s', march conditions dt k j t profile c s = (.error (.step i e), c', s') ∧
          P e := by
  intro k
  induction k with
  | zero =>
      intro j t profile c s hinv
      exact .inl ⟨_, c, s, rfl, hinv⟩
  | succ k ih =>
      intro j t profile c s hinv
      rcases hstep c s hinv with ⟨p, c', s', hadvance, hinv'⟩ | ⟨e, s', hadvance, he⟩
      · rw [march, hadvance]
        exact ih (j + 1) (t + dt) p c' s' hinv'
      · rw [march, hadvance]
        exact .inr ⟨j, e, c, s', rfl, he⟩

end Run

/-- A run whose time step matches the solver's and whose schedule fits its limit keeps an
invariant that every step keeps, or stops at a step whose failure has a property that the failure
of every failing step has. -/
theorem run_of_step_or_fail
    {σ α : Type} [Scalar α] [Stepper σ α] {conditions : Conditions α}
    (Inv : Column α → σ → Prop) (P : SolverError α → Prop)
    (hstep : ∀ c s, Inv c s →
      (∃ p c' s', ((Stepper.advance c conditions).run.run s).run = (.ok (p, c'), s') ∧
          Inv c' s') ∨
        ∃ e s', ((Stepper.advance c conditions).run.run s).run = (.error e, s') ∧ P e)
    {limit : Nat} {column : Column α} {solver : σ} {dt : Positive α} {tFinal : NonNegative α}
    (hmatch : ¬Scalar.abs (dt.val - Stepper.timeStep solver) > Run.stepTolerance * dt.val)
    (hschedule : Schedule.count dt.val tFinal.val limit ≠ none)
    (hinv : Inv column solver) :
    (∃ o c' s', run limit column solver conditions dt tFinal = (.ok o, c', s') ∧ Inv c' s') ∨
      ∃ i e c' s', run limit column solver conditions dt tFinal = (.error (.step i e), c', s') ∧
        P e := by
  obtain ⟨k, hk⟩ := Option.ne_none_iff_exists'.mp hschedule
  rw [run, if_neg hmatch, hk]
  exact Run.march_of_step_or_fail Inv P hstep k 0 0.0 column.enthalpy column solver hinv

namespace Norms

variable {α : Type} [Scalar α]

/-- The norms of two non-empty profiles of one length exist unless a difference is not finite. -/
theorem compute_cases
    {computed exact : Array α}
    (hsize : computed.size = exact.size)
    (hpos : computed.size ≠ 0) :
    (∃ norms, compute computed exact = .ok norms) ∨
      ∃ i, compute computed exact = .error (.nonFinite i) := by
  rcases compute_past_sizes hsize hpos with ⟨-, hok⟩ | ⟨-, herr⟩
  · exact .inl ⟨_, hok⟩
  · exact .inr ⟨_, herr⟩

section Exact

/-- Read exactly, the norms of two non-empty profiles of one length exist. -/
theorem compute_exact
    {computed exact : Array ℝ}
    (hsize : computed.size = exact.size)
    (hpos : computed.size ≠ 0) :
    ∃ norms, compute computed exact = .ok norms := by
  obtain ⟨largest, hok, -⟩ := compute_eq_largest_mean hsize hpos
  exact ⟨_, hok⟩

end Exact

end Norms

theorem Outcome.mapError_bind_eq_error
    {ε ε' α β : Type} {x : Except ε α} {g : ε → ε'} {f : α → Except ε' β} {e : ε'}
    (h : (x.mapError g >>= f) = .error e) :
    (∃ c, e = g c) ∨ ∃ a, x = .ok a ∧ f a = .error e := by
  cases x with
  | error c =>
      simp only [Except.mapError, bind, Except.bind, Except.error.injEq] at h
      exact .inl ⟨c, h.symm⟩
  | ok a => exact .inr ⟨a, rfl, h⟩

namespace Problem

/-- A setup fails only for unusable properties, a boundary enthalpy it cannot evaluate or a
solution it cannot build. -/
theorem error_of_setup
    {α : Type} [Scalar α] {regime : Regime} {v : Verification α} {e : ScenarioError α}
    (h : setup regime v = .error e) :
    (∃ c, e = .properties c) ∨ (∃ c, e = .state c) ∨ ∃ c, e = .analytic c := by
  unfold setup at h
  rcases Outcome.mapError_bind_eq_error h with ⟨c, rfl⟩ | ⟨p, -, h⟩
  · exact .inl ⟨c, rfl⟩
  cases regime with
  | dirichletNeumann =>
      rcases Outcome.mapError_bind_eq_error h with ⟨c, rfl⟩ | ⟨base, -, h⟩
      · exact .inr (.inl ⟨c, rfl⟩)
      rcases Outcome.mapError_bind_eq_error h with ⟨c, rfl⟩ | ⟨surface, -, h⟩
      · exact .inr (.inl ⟨c, rfl⟩)
      rcases Outcome.mapError_bind_eq_error h with ⟨c, rfl⟩ | ⟨exact, -, h⟩
      · exact .inr (.inr ⟨c, rfl⟩)
      cases h
  | neumannDirichlet =>
      rcases Outcome.mapError_bind_eq_error h with ⟨c, rfl⟩ | ⟨surface, -, h⟩
      · exact .inr (.inl ⟨c, rfl⟩)
      rcases Outcome.mapError_bind_eq_error h with ⟨c, rfl⟩ | ⟨base, -, h⟩
      · exact .inr (.inl ⟨c, rfl⟩)
      rcases Outcome.mapError_bind_eq_error h with ⟨c, rfl⟩ | ⟨exact, -, h⟩
      · exact .inr (.inr ⟨c, rfl⟩)
      cases h

end Problem

namespace Scenario

section Stages

variable {σ α : Type} [Scalar α] [Stepper σ α] {limit : Nat} {factory : Factory σ α}
variable {v : Verification α} {sc : Scenario α} {problem : Problem α}

/-- A run whose setup fails fails with it. -/
theorem run_of_setup_error
    {e : ScenarioError α}
    (h : Problem.setup sc.regime v = .error e) :
    run limit factory v sc = .error e := by
  unfold run
  rw [h]
  rfl

/-- A run on fewer than two levels fails for them, once its setup succeeds. -/
theorem run_of_few_levels
    (hsetup : Problem.setup sc.regime v = .ok problem)
    (hlevels : sc.levels < 2) :
    run limit factory v sc = .error (.column (.tooFewLevels sc.levels)) := by
  unfold run
  rw [hsetup, Outcome.ok_bind, Grid.build_of_lt _ _ hlevels]
  rfl

/-- Once its setup succeeds, a run on at least two levels builds its grid and fills its column
with the solution at time zero: the setup has checked the height. -/
theorem column_of_setup
    (hsetup : Problem.setup sc.regime v = .ok problem)
    (hlevels : 2 ≤ sc.levels) :
    ∃ grid column, Grid.build sc.levels v.height = .ok grid ∧
      (Column.zeroed grid).setProfile (problem.exact.profile grid.z (Year.toSeconds 0.0)) =
        .ok column ∧ column.grid = grid := by
  obtain ⟨-, -, hlength, -⟩ := Problem.fields_of_setup hsetup
  have hheight : (0.0 : α) < v.height := hlength ▸ problem.exact.length_pos
  obtain ⟨grid, hgrid⟩ : ∃ grid, Grid.build sc.levels v.height = .ok grid :=
    ⟨_, by rw [Grid.build, dif_neg (by omega), dif_pos hheight]⟩
  have hsize : (problem.exact.profile grid.z (Year.toSeconds 0.0)).size =
      (Column.zeroed grid).grid.levels := by
    simp [Eigenmode.profile, Column.zeroed, Grid.levels]
  exact ⟨grid, _, hgrid, Column.setProfile_of_size _ hsize, rfl⟩

/-- Past the solver's construction, a run ends as its march and its norms do: a failed march
fails the run, and a finished one fails with its norms or is reported. -/
theorem run_of_march
    {grid : Grid α} {column : Column α} {solver : σ}
    {result : Except (RunError α) (Outcome α)} {c' : Column α} {s' : σ}
    (hsetup : Problem.setup sc.regime v = .ok problem)
    (hgrid : Grid.build sc.levels v.height = .ok grid)
    (hcolumn : (Column.zeroed grid).setProfile (problem.exact.profile grid.z (Year.toSeconds 0.0)) =
      .ok column)
    (hsolver : factory column.resetVelocity.resetStrainHeating.grid sc.dt.val v.properties =
      .ok solver)
    (hmarch : IceEnthalpy.run limit column.resetVelocity.resetStrainHeating solver
      problem.conditions sc.dt sc.tFinal = (result, c', s')) :
    (∀ e, result = .error e → run limit factory v sc = .error (.run e)) ∧
      ∀ o, result = .ok o →
        (∀ e, Norms.compute c'.enthalpy (problem.exact.profile grid.z o.elapsed) = .error e →
          run limit factory v sc = .error (.norms e)) ∧
        ∀ norms, Norms.compute c'.enthalpy (problem.exact.profile grid.z o.elapsed) = .ok norms →
          ∃ report, run limit factory v sc = .ok report := by
  obtain ⟨hcheck, -⟩ := Problem.fields_of_setup hsetup
  have hvalidate : v.properties.validate = .ok v.properties :=
    Ice.Properties.validate_eq_ok.mpr ⟨hcheck, rfl⟩
  unfold run
  simp only [hsetup, Outcome.ok_bind, hgrid, Outcome.mapError_ok, hcolumn, hsolver, hmarch]
  refine ⟨?_, ?_⟩
  · rintro e rfl
    rfl
  · rintro o rfl
    refine ⟨fun e he => ?_, fun norms hnorms => ?_⟩
    · simp only [Outcome.mapError_ok, Outcome.ok_bind, he]
      rfl
    · simp only [Outcome.mapError_ok, Outcome.ok_bind, hnorms, hvalidate]
      exact ⟨_, rfl⟩

end Stages

section Conduction

variable {α : Type} [Scalar α] {limit : Nat} {setup : Setup}
variable {v : Verification α} {sc : Scenario α} {problem : Problem α}

/-- A run on at least two levels whose setup succeeds fails for a solver refinement of zero. -/
theorem run_of_zero_refinement
    (hsetup : Problem.setup sc.regime v = .ok problem)
    (hlevels : 2 ≤ sc.levels)
    (hr : setup.refinement = 0) :
    run limit (Conduction.factory setup) v sc = .error (.solver .zeroRefinement) := by
  obtain ⟨grid, column, hgrid, hcolumn, -⟩ := column_of_setup hsetup hlevels
  have hpositive : isPositive sc.dt.val = true := by
    simp [isPositive, sc.dt.property]
  have hsolver : Conduction.build column.resetVelocity.resetStrainHeating.grid sc.dt.val
      v.properties setup = .error .zeroRefinement := by
    simp [Conduction.build, hpositive, hr, throw, throwThe, MonadExceptOf.throw, bind,
      Except.bind]
  unfold run
  simp only [hsetup, Outcome.ok_bind, hgrid, Outcome.mapError_ok, hcolumn, Conduction.factory,
    hsolver]
  rfl

/-- Once its setup succeeds, a run of the conduction solver on at least two levels with a
refinement of at least one, whose refined count fits in a word, fills its column and builds, on
the column's grid, a solver that fits the reset column and steps by the run's time step. -/
theorem solver_of_setup
    (hzero : ((0.0 : α) != 0.0) = false)
    (hsetup : Problem.setup sc.regime v = .ok problem)
    (hlevels : 2 ≤ sc.levels)
    (hr : setup.refinement ≠ 0)
    (hword : (sc.levels - 1) * setup.refinement + 1 < 2 ^ 64) :
    ∃ grid column s₀, Grid.build sc.levels v.height = .ok grid ∧
      (Column.zeroed grid).setProfile (problem.exact.profile grid.z (Year.toSeconds 0.0)) =
        .ok column ∧
      Conduction.factory setup column.resetVelocity.resetStrainHeating.grid sc.dt.val
        v.properties = .ok s₀ ∧
      s₀.column = grid ∧ s₀.dt = sc.dt.val ∧ s₀.diffusivity = v.properties.diffusivity ∧
      Conduction.Fits s₀ column.resetVelocity.resetStrainHeating s₀ := by
  obtain ⟨grid, column, hgrid, hcolumn, hcgrid⟩ := column_of_setup hsetup hlevels
  obtain ⟨hcheck, -⟩ := Problem.fields_of_setup hsetup
  have hfine : 2 ≤ Conduction.fineLevels column.resetVelocity.resetStrainHeating.grid.levels
      setup.refinement := by
    rw [Column.grid_resetStrainHeating, Column.grid_resetVelocity, hcgrid,
      Grid.levels_of_build hgrid]
    exact Conduction.two_le_fineLevels hlevels hr hword
  obtain ⟨s₀, hs₀⟩ :=
    Conduction.build_eq_ok column.resetVelocity.resetStrainHeating.grid sc.dt.property hcheck hfine
  obtain ⟨hcolumn₀, -, -, -, hdt₀, hD₀⟩ := Conduction.fields_of_build hs₀
  exact ⟨grid, column, s₀, hgrid, hcolumn, hs₀, hcolumn₀.trans hcgrid, hdt₀, hD₀,
    Conduction.fits_of_build hzero hs₀⟩

/-- A column on a grid and the solution's profile on the levels of that grid have one
non-empty length, so their norms are only refused for a difference that is not finite. -/
theorem norms_sizes
    (ex : Eigenmode α) (t : α) {grid : Grid α} {c : Column α}
    (hgrid : c.grid = grid) :
    c.enthalpy.size = (ex.profile grid.z t).size ∧ c.enthalpy.size ≠ 0 := by
  have hlevels : c.enthalpy.size = grid.levels := by
    rw [c.size_enthalpy, hgrid]
  refine ⟨by simp [hlevels, Eigenmode.profile, Grid.levels], ?_⟩
  have := grid.two_le_size
  unfold Grid.levels at hlevels
  omega

/-- A run of the conduction solver on at least two levels with a refinement of at least one,
whose refined count fits in a word, whose setup succeeds and whose schedule fits its limit, is
reported, or stops at a step whose solve breaks down, or at an error norm that is not finite.  The two facts of the arithmetic it
needs hold in binary64 and in the reals. -/
theorem run_conduction_cases
    (hstep : ∀ x : α, (0.0 : α) < x → ¬Scalar.abs (x - x) > Run.stepTolerance * x)
    (hthickness : ∀ x : α, (0.0 : α) < x →
      ¬Scalar.abs (x - x) > Conduction.thicknessTolerance * x)
    (hzero : ((0.0 : α) != 0.0) = false)
    (hschedule : Schedule.count sc.dt.val sc.tFinal.val limit ≠ none)
    (hsetup : Problem.setup sc.regime v = .ok problem)
    (hlevels : 2 ≤ sc.levels)
    (hr : setup.refinement ≠ 0)
    (hword : (sc.levels - 1) * setup.refinement + 1 < 2 ^ 64) :
    (∃ report, run limit (Conduction.factory setup) v sc = .ok report) ∨
      (∃ j cause, run limit (Conduction.factory setup) v sc =
        .error (.run (.step j (.nonConvergence cause)))) ∨
      ∃ i, run limit (Conduction.factory setup) v sc = .error (.norms (.nonFinite i)) := by
  obtain ⟨grid, column, s₀, hgrid, hcolumn, hsolver, hcolumn₀, hdt₀, -, hfits₀⟩ :=
    solver_of_setup hzero hsetup hlevels hr hword
  have hmatch : ¬Scalar.abs (sc.dt.val - Stepper.timeStep s₀) > Run.stepTolerance * sc.dt.val := by
    rw [show Stepper.timeStep s₀ = sc.dt.val from hdt₀]
    exact hstep _ sc.dt.property
  rcases run_of_step_or_fail (Conduction.Fits s₀) (fun e => ∃ cause, e = .nonConvergence cause)
      (fun _ _ h => (Conduction.advance_cases hthickness problem.conditions h).imp id
        fun ⟨cause, s', hadvance⟩ => ⟨_, s', hadvance, cause, rfl⟩)
      hmatch hschedule hfits₀ with
    ⟨o, c', s', hrun, hfits⟩ | ⟨j, e, c', s', hrun, cause, rfl⟩
  · obtain ⟨-, hfinished⟩ := run_of_march hsetup hgrid hcolumn hsolver hrun
    obtain ⟨hsize, hpos⟩ := norms_sizes problem.exact o.elapsed (hfits.grid_eq.trans hcolumn₀)
    rcases Norms.compute_cases hsize hpos with ⟨norms, hnorms⟩ | ⟨i, hnorms⟩
    · exact .inl ((hfinished o rfl).2 norms hnorms)
    · exact .inr (.inr ⟨i, (hfinished o rfl).1 _ hnorms⟩)
  · exact .inr (.inl ⟨j, cause, (run_of_march hsetup hgrid hcolumn hsolver hrun).1 _ rfl⟩)

end Conduction

section Exact

variable {limit : Nat} {setup : Setup} {v : Verification ℝ} {sc : Scenario ℝ}
variable {problem : Problem ℝ}

/-- Read exactly, a run of the conduction solver on at least two levels with a refinement of at
least one whose refined count fits in a word, whose setup succeeds and whose schedule of
`⌈t_final/Δt⌉` steps fits its limit, is reported: the solver's coefficients make every system
diagonally dominant, so no step breaks down. -/
theorem run_conduction_exact
    (hsetup : Problem.setup sc.regime v = .ok problem)
    (hlevels : 2 ≤ sc.levels)
    (hr : setup.refinement ≠ 0)
    (hword : (sc.levels - 1) * setup.refinement + 1 < 2 ^ 64)
    (hlimit : ⌈sc.tFinal.val / sc.dt.val⌉₊ ≤ limit) :
    ∃ report, run limit (Conduction.factory setup) v sc = .ok report := by
  obtain ⟨grid, column, s₀, hgrid, hcolumn, hsolver, hcolumn₀, hdt₀, hD₀, hfits₀⟩ :=
    solver_of_setup (by simp) hsetup hlevels hr hword
  obtain ⟨hcheck, -⟩ := Problem.fields_of_setup hsetup
  have hD : 0 ≤ s₀.diffusivity := hD₀ ▸ (Ice.Properties.zero_lt_diffusivity hcheck).le
  have hdt : 0 ≤ s₀.dt := hdt₀ ▸ (Exact.zero_lt_positive sc.dt).le
  obtain ⟨p, c', s', hrun, hfits⟩ :=
    run_of_step (fun (_ : Unit) c s => Conduction.Fits s₀ c s) id (i := ())
      (fun _ _ _ h => Conduction.advance_exact problem.conditions hD hdt h)
      (show Stepper.timeStep s₀ = sc.dt.val from hdt₀) hlimit hfits₀
  obtain ⟨-, hfinished⟩ := run_of_march hsetup hgrid hcolumn hsolver hrun
  obtain ⟨hsize, hpos⟩ := norms_sizes problem.exact _ (hfits.grid_eq.trans hcolumn₀)
  obtain ⟨norms, hnorms⟩ := Norms.compute_exact hsize hpos
  exact (hfinished _ rfl).2 norms hnorms

/-- Read exactly, a run of the conduction solver whose schedule fits its limit and whose refined
count fits in a word is reported exactly when its setup succeeds, the column has two levels and
the refinement is at least one. -/
theorem run_conduction_ok_iff
    (hlimit : ⌈sc.tFinal.val / sc.dt.val⌉₊ ≤ limit)
    (hword : (sc.levels - 1) * setup.refinement + 1 < 2 ^ 64) :
    (∃ report, run limit (Conduction.factory setup) v sc = .ok report) ↔
      (∃ problem, Problem.setup sc.regime v = .ok problem) ∧ 2 ≤ sc.levels ∧
        setup.refinement ≠ 0 := by
  constructor
  · rintro ⟨report, h⟩
    cases hsetup : Problem.setup sc.regime v with
    | error e =>
        rw [run_of_setup_error hsetup] at h
        cases h
    | ok problem =>
        have hlevels : 2 ≤ sc.levels := by
          by_contra hfew
          rw [run_of_few_levels hsetup (by omega)] at h
          cases h
        refine ⟨⟨problem, rfl⟩, hlevels, fun hr => ?_⟩
        rw [run_of_zero_refinement hsetup hlevels hr] at h
        cases h
  · rintro ⟨⟨problem, hsetup⟩, hlevels, hr⟩
    exact run_conduction_exact hsetup hlevels hr hword hlimit

end Exact

/-- What a verification run of the conduction solver ends with, for every setup and step limit.
Over any scalar: a failed setup fails the run with its own error, which is about the properties,
a boundary enthalpy or the solution; once the setup succeeds, a column of fewer than two levels
fails for them, and then a refinement of zero fails the solver; otherwise, when the refined
count `(n-1)·ρ + 1` fits in a word, given the two facts of the arithmetic and a schedule within
the limit, the run is reported or fails with a solve that breaks down in some step or with an
error norm that is not finite.  Read exactly, with the schedule of `⌈t_final/Δt⌉` steps within
the limit and the refined count within a word, the run is reported exactly when the setup
succeeds, the column has two levels and the refinement is at least one. -/
theorem run_conduction_outcomes (limit : Nat) (setup : Setup) :
    (∀ {α : Type} [Scalar α] (v : Verification α) (sc : Scenario α),
      (∀ e, Problem.setup sc.regime v = .error e →
        run limit (Conduction.factory setup) v sc = .error e ∧
          ((∃ c, e = .properties c) ∨ (∃ c, e = .state c) ∨ ∃ c, e = .analytic c)) ∧
      ∀ problem, Problem.setup sc.regime v = .ok problem →
        (sc.levels < 2 →
          run limit (Conduction.factory setup) v sc = .error (.column (.tooFewLevels sc.levels))) ∧
        (2 ≤ sc.levels → setup.refinement = 0 →
          run limit (Conduction.factory setup) v sc = .error (.solver .zeroRefinement)) ∧
        (2 ≤ sc.levels → setup.refinement ≠ 0 →
          (sc.levels - 1) * setup.refinement + 1 < 2 ^ 64 →
          (∀ x : α, (0.0 : α) < x → ¬Scalar.abs (x - x) > Run.stepTolerance * x) →
          (∀ x : α, (0.0 : α) < x → ¬Scalar.abs (x - x) > Conduction.thicknessTolerance * x) →
          ((0.0 : α) != 0.0) = false →
          Schedule.count sc.dt.val sc.tFinal.val limit ≠ none →
          (∃ report, run limit (Conduction.factory setup) v sc = .ok report) ∨
            (∃ j cause, run limit (Conduction.factory setup) v sc =
              .error (.run (.step j (.nonConvergence cause)))) ∨
            ∃ i, run limit (Conduction.factory setup) v sc = .error (.norms (.nonFinite i)))) ∧
    ∀ (v : Verification ℝ) (sc : Scenario ℝ), ⌈sc.tFinal.val / sc.dt.val⌉₊ ≤ limit →
      (sc.levels - 1) * setup.refinement + 1 < 2 ^ 64 →
      ((∃ report, run limit (Conduction.factory setup) v sc = .ok report) ↔
        (∃ problem, Problem.setup sc.regime v = .ok problem) ∧ 2 ≤ sc.levels ∧
          setup.refinement ≠ 0) := by
  constructor
  · intro α _ v sc
    refine ⟨fun e he => ⟨run_of_setup_error he, Problem.error_of_setup he⟩, ?_⟩
    intro problem hsetup
    refine ⟨run_of_few_levels hsetup, run_of_zero_refinement hsetup, ?_⟩
    intro hlevels hr hword hstep hthickness hzero hschedule
    exact run_conduction_cases hstep hthickness hzero hschedule hsetup hlevels hr hword
  · intro v sc hlimit hword
    exact run_conduction_ok_iff hlimit hword

/-- The outcomes on polar ice in a column of 1000 m with three levels, refined three times, and
one Crank–Nicolson step of one second: the facts of the arithmetic hold exactly, and the run is
reported. -/
theorem run_conduction_outcomes_refined :
    let v : Verification ℝ := Verification.standard
    let sc : Scenario ℝ := ⟨.dirichletNeumann, 3, ⟨1, by norm_num⟩, ⟨1, by norm_num⟩⟩
    let setup : Setup := ⟨.crankNicolson, 3⟩
    ∃ problem, Problem.setup sc.regime v = .ok problem ∧
      ((∃ report, run 1 (Conduction.factory setup) v sc = .ok report) ∨
        (∃ j cause, run 1 (Conduction.factory setup) v sc =
          .error (.run (.step j (.nonConvergence cause)))) ∨
        ∃ i, run 1 (Conduction.factory setup) v sc = .error (.norms (.nonFinite i))) ∧
      ∃ report, run 1 (Conduction.factory setup) v sc = .ok report := by
  intro v sc setup
  obtain ⟨problem, hsetup⟩ := Problem.setup_standard
  have hlimit : ⌈sc.tFinal.val / sc.dt.val⌉₊ ≤ 1 := by
    norm_num [sc]
  have hschedule : Schedule.count sc.dt.val sc.tFinal.val 1 ≠ none := by
    rw [Schedule.count_eq (Exact.zero_lt_positive sc.dt) hlimit]
    exact Option.some_ne_none _
  obtain ⟨hfails, hexact⟩ := run_conduction_outcomes 1 setup
  refine ⟨problem, hsetup, ?_, ?_⟩
  · exact ((hfails v sc).2 problem hsetup).2.2 (by decide) (by decide) (by decide) Run.step_exact
      Conduction.thickness_exact (by simp) hschedule
  · exact (hexact v sc hlimit (by decide)).mpr ⟨⟨problem, hsetup⟩, by decide, by decide⟩

end Scenario

end IceEnthalpy
