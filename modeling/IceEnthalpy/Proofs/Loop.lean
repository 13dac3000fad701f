import IceEnthalpy.Proofs.Column
import IceEnthalpy.Proofs.Run
import IceEnthalpy.Solver.Recorder

/-!
# A run is its while loop

A run first compares the requested time step with the solver's, and refuses a mismatch without
asking anything of the solver.  Otherwise it is the loop

  `t := 0; j := 0; while t < t_final: step j; t := t + Δt; j := j + 1`,

where step `j` is one full cycle of the solver (prepare the column with its own height as the
ice thickness, impose the base and then the surface condition, solve, remap the solved profile),
and the first failure ends the loop naming `j`.  `Run.Loop` states this loop as a relation
between its start and its outcome, one rule for the end of the loop, one for a step that succeeds
and one for a step that fails.

The code computes the number of steps first, from the same running sum `s_{j+1} = s_j + Δt`, and
then takes that many steps.  The two agree for every scalar and every solver: when the clock
reaches the final time after `k` steps, and `k` is within the run's step limit, the outcome of
the run is the one and only outcome of the loop.  The clock is the running sum, not `j·Δt`: in
binary64 the two drift apart.
-/

namespace IceEnthalpy

namespace Schedule

variable {α : Type} [Scalar α]

/-- The time after `j` steps of `Δt` from zero, added one step at a time. -/
def clock (dt : α) (j : Nat) : α :=
  (· + dt)^[j] 0.0

theorem clock_succ (dt : α) (j : Nat) :
    clock dt (j + 1) = clock dt j + dt :=
  Function.iterate_succ_apply' _ _ _

/-- The count of the schedule from step `taken` is the first index from there at which the clock
has reached the end, when the fuel reaches it. -/
theorem remaining_clock
    {dt tEnd : α} {k : Nat}
    (hend : ¬clock dt k < tEnd) :
    ∀ fuel taken, taken ≤ k → k ≤ taken + fuel →
      (∀ j, taken ≤ j → j < k → clock dt j < tEnd) →
      remaining dt tEnd fuel taken (clock dt taken) = some k := by
  intro fuel
  induction fuel with
  | zero =>
      intro taken hle hfuel _
      obtain rfl : taken = k := by omega
      rw [remaining, if_neg hend]
  | succ fuel ih =>
      intro taken hle hfuel hbefore
      rw [remaining]
      split
      · next hrunning =>
          have hlt : taken < k := by
            rcases Nat.lt_or_eq_of_le hle with hlt | rfl
            · exact hlt
            · exact absurd hrunning hend
          rw [← clock_succ]
          exact ih (taken + 1) hlt (by omega) fun j hj hjk => hbefore j (by omega) hjk
      · next hreached =>
          congr 1
          by_contra hne
          exact hreached (hbefore taken le_rfl (by omega))

/-- A run is scheduled for the first number of steps at which the clock reaches the end, when the
limit allows that many. -/
theorem count_eq_of_clock
    {dt tEnd : α} {limit k : Nat}
    (hlimit : k ≤ limit)
    (hend : ¬clock dt k < tEnd)
    (hbefore : ∀ j < k, clock dt j < tEnd) :
    count dt tEnd limit = some k :=
  remaining_clock hend limit 0 (Nat.zero_le k) (by omega) fun j _ hj => hbefore j hj

end Schedule

namespace Run

variable {σ α : Type} [Scalar α] [Stepper σ α]

/-- The while loop of a run, as a relation from the step index `j`, the time `t`, the last
solve's profile, the column and the solver to the outcome of the loop. -/
inductive Loop (conditions : Conditions α) (dt tEnd : α) :
    Nat → α → Array α → Column α → σ → Result σ α → Prop
  /-- The clock has reached the end: the run reports the last profile, the time and the count. -/
  | done {j t profile column solver} :
      ¬t < tEnd →
      Loop conditions dt tEnd j t profile column solver (.ok ⟨profile, t, j⟩, column, solver)
  /-- Step `j` runs its full cycle, and the loop goes on from the time `t + Δt`. -/
  | step {j t profile column solver p c s r} :
      t < tEnd →
      ((Stepper.advance column conditions).run.run solver).run = (.ok (p, c), s) →
      Loop conditions dt tEnd (j + 1) (t + dt) p c s r →
      Loop conditions dt tEnd j t profile column solver r
  /-- A stage of step `j` fails: the run ends naming the step, with the column as it was. -/
  | fail {j t profile column solver e s} :
      t < tEnd →
      ((Stepper.advance column conditions).run.run solver).run = (.error e, s) →
      Loop conditions dt tEnd j t profile column solver (.error (.step j e), column, s)

variable {conditions : Conditions α} {dt tEnd : α}

/-- The loop has one outcome. -/
theorem Loop.unique
    {j : Nat} {t : α} {profile : Array α} {column : Column α} {solver : σ}
    {r r' : Result σ α}
    (h : Loop conditions dt tEnd j t profile column solver r)
    (h' : Loop conditions dt tEnd j t profile column solver r') :
    r = r' := by
  induction h generalizing r' with
  | done hend =>
      cases h' with
      | done => rfl
      | step hrunning => exact absurd hrunning hend
      | fail hrunning => exact absurd hrunning hend
  | step hrunning hadvance _ ih =>
      cases h' with
      | done hend => exact absurd hrunning hend
      | step _ hadvance' hloop' =>
          rw [hadvance] at hadvance'
          obtain ⟨⟨rfl, rfl⟩, rfl⟩ := Prod.mk.inj hadvance'
          exact ih hloop'
      | fail _ hadvance' =>
          rw [hadvance] at hadvance'
          cases hadvance'
  | fail hrunning hadvance =>
      cases h' with
      | done hend => exact absurd hrunning hend
      | step _ hadvance' =>
          rw [hadvance] at hadvance'
          cases hadvance'
      | fail _ hadvance' =>
          rw [hadvance] at hadvance'
          simp only [Prod.mk.injEq, Except.error.injEq] at hadvance'
          obtain ⟨rfl, rfl⟩ := hadvance'
          rfl

/-- Marching `k` steps from time `t` is the loop, when the clock from `t` reaches the end after
exactly `k` steps. -/
theorem loop_march :
    ∀ (k j : Nat) (t : α) (profile : Array α) (column : Column α) (solver : σ),
      (∀ i < k, (· + dt)^[i] t < tEnd) → ¬(· + dt)^[k] t < tEnd →
      Loop conditions dt tEnd j t profile column solver
        (march conditions dt k j t profile column solver) := by
  intro k
  induction k with
  | zero =>
      intro j t profile column solver _ hend
      exact .done hend
  | succ k ih =>
      intro j t profile column solver hbefore hend
      have hrunning : t < tEnd := hbefore 0 (Nat.succ_pos k)
      rw [march]
      split
      · next p c s hadvance =>
          refine .step hrunning hadvance (ih (j + 1) (t + dt) p c s (fun i hi => ?_) ?_)
          · rw [← Function.iterate_succ_apply (· + dt)]
            exact hbefore (i + 1) (by omega)
          · rwa [← Function.iterate_succ_apply (· + dt)]
      · next e s hadvance => exact .fail hrunning hadvance

end Run

section Driver

variable {σ α : Type} [Scalar α] [Stepper σ α]

/-- A run with a solver whose time step differs from the requested one by more than `10⁻¹²·Δt`
is refused, the column and the solver untouched.  Otherwise, when the clock `s_j` (the running
sum of `Δt` from zero) first reaches the final time after `k` steps and `k` is within the limit,
the outcome of the run is the outcome of the loop that takes step `j` while `s_j` is below the
final time, and only that one: it either ends with `k` steps at the time `s_k`, the last solve's
profile (the column's enthalpy if no step was taken) and the column and solver of the last
step, or stops at the first step that fails, naming it, with the column as it was before it. -/
theorem run_eq_loop
    (limit : Nat) (column : Column α) (solver : σ) (conditions : Conditions α)
    (dt : Positive α) (tFinal : NonNegative α) :
    (Scalar.abs (dt.val - Stepper.timeStep solver) > Run.stepTolerance * dt.val →
      run limit column solver conditions dt tFinal =
        (.error (.timeStepMismatch dt.val (Stepper.timeStep solver)), column, solver)) ∧
    ∀ k, k ≤ limit → ¬Schedule.clock dt.val k < tFinal.val →
      (∀ j < k, Schedule.clock dt.val j < tFinal.val) →
      ¬Scalar.abs (dt.val - Stepper.timeStep solver) > Run.stepTolerance * dt.val →
      ∀ r, Run.Loop conditions dt.val tFinal.val 0 0.0 column.enthalpy column solver r ↔
        r = run limit column solver conditions dt tFinal := by
  refine ⟨fun hmismatch => by rw [run, if_pos hmismatch], ?_⟩
  intro k hlimit hend hbefore hmatch r
  have hrun : run limit column solver conditions dt tFinal =
      Run.march conditions dt.val k 0 0.0 column.enthalpy column solver := by
    rw [run, if_neg hmatch, Schedule.count_eq_of_clock hlimit hend hbefore]
  have hloop : Run.Loop conditions dt.val tFinal.val 0 0.0 column.enthalpy column solver
      (Run.march conditions dt.val k 0 0.0 column.enthalpy column solver) :=
    Run.loop_march k 0 _ _ _ _ hbefore hend
  rw [hrun]
  exact ⟨fun h => h.unique hloop, fun h => h ▸ hloop⟩

/-- The loop of two one-second steps of a recording solver on a zero column of three levels. -/
theorem run_eq_loop_recorder :
    ∃ g : Grid ℝ, Grid.build 3 1000 = .ok g ∧
      let solver : Recorder ℝ := Recorder.start 1 none
      let dt : Positive ℝ := ⟨1, by norm_num⟩
      let tFinal : NonNegative ℝ := ⟨2, by norm_num⟩
      let conditions : Conditions ℝ := ⟨.dirichlet 0, .heatFlux 0⟩
      2 ≤ 2 ∧ ¬Schedule.clock dt.val 2 < tFinal.val ∧
        (∀ j < 2, Schedule.clock dt.val j < tFinal.val) ∧
        ¬Scalar.abs (dt.val - Stepper.timeStep solver) > Run.stepTolerance * dt.val ∧
        ∀ r, Run.Loop conditions dt.val tFinal.val 0 0.0 (Column.zeroed g).enthalpy
            (Column.zeroed g) solver r ↔
          r = run 2 (Column.zeroed g) solver conditions dt tFinal := by
  obtain ⟨g, hg⟩ := Grid.build_eq_ok (n := 3) (H := 1000) (by decide) (by norm_num)
  refine ⟨g, hg, ?_⟩
  intro solver dt tFinal conditions
  have hend : ¬Schedule.clock dt.val 2 < tFinal.val := by
    norm_num [Schedule.clock, dt, tFinal]
  have hbefore : ∀ j < 2, Schedule.clock dt.val j < tFinal.val := by
    intro j hj
    interval_cases j <;> norm_num [Schedule.clock, dt, tFinal]
  have hmatch : ¬Scalar.abs (dt.val - Stepper.timeStep solver) > Run.stepTolerance * dt.val := by
    show ¬|(1 : ℝ) - 1| > Run.stepTolerance * 1
    norm_num [Run.stepTolerance]
  exact ⟨le_rfl, hend, hbefore, hmatch,
    (run_eq_loop 2 (Column.zeroed g) solver conditions dt tFinal).2 2 le_rfl hend hbefore hmatch⟩

end Driver

end IceEnthalpy
