import IceEnthalpy.Sign
import IceEnthalpy.Solver.Stepper

/-!
# Fixed-step time integration of a column

A run advances a column with a solver from time zero to a final time.  It first compares the
requested time step `Δt` with the solver's: they may differ by at most `10⁻¹²·Δt`.  The times of
the steps are the running sums `s₀ = 0`, `s_{j+1} = s_j + Δt`, and step `j` is taken while
`s_j` is below the final time; each step prepares the column with its own height as the ice
thickness, imposes the conditions, solves and remaps.  The first failure ends the run, naming
the step.

The schedule is computed before the first step.  A run whose schedule exceeds the given number
of steps, such as one with an infinite final time, is refused before it starts.
-/

namespace IceEnthalpy

/-- Why a run stopped. -/
inductive RunError (α : Type) where
  /-- The requested time step differs from the solver's. -/
  | timeStepMismatch (requested solver : α)
  /-- A stage of a step failed; steps count from zero. -/
  | step (index : Nat) (cause : SolverError α)
  /-- The schedule has more steps than allowed. -/
  | tooManySteps (limit : Nat)
  deriving Repr

/-- What a finished run reports. -/
structure Outcome (α : Type) where
  /-- The profile of the last solve on the solver grid, or the column enthalpy if no step was
  taken. -/
  profile : Array α
  /-- The time reached, s. -/
  elapsed : α
  /-- The number of steps taken. -/
  steps : Nat
  deriving Repr

namespace Schedule

variable {α : Type} [Scalar α]

/-- The number of steps of `Δt` after `taken` steps at time `t` until the final time is reached,
if it is at most `fuel` more. -/
def remaining (dt tEnd : α) : (fuel taken : Nat) → (t : α) → Option Nat
  | fuel, taken, t =>
    if t < tEnd then
      match fuel with
      | 0 => none
      | fuel + 1 => remaining dt tEnd fuel (taken + 1) (t + dt)
    else some taken

/-- The number of steps of a run from zero to `tEnd`, if it is at most `limit`. -/
def count (dt tEnd : α) (limit : Nat) : Option Nat :=
  remaining dt tEnd limit 0 0.0

end Schedule

namespace Run

variable {σ α : Type} [Scalar α] [Stepper σ α]

/-- Relative tolerance between the requested and the solver's time step. -/
def stepTolerance : α := 1e-12

/-- The result of a run, with the column and the solver as the run left them. -/
abbrev Result (σ α : Type) [Scalar α] := Except (RunError α) (Outcome α) × Column α × σ

/-- Takes `k` more steps from step index `j` at time `t`; `profile` is the last solve's. -/
def march (conditions : Conditions α) (dt : α) :
    (k j : Nat) → (t : α) → (profile : Array α) → Column α → σ → Result σ α
  | 0, j, t, profile, column, solver => (.ok ⟨profile, t, j⟩, column, solver)
  | k + 1, j, t, _profile, column, solver =>
    match ((Stepper.advance column conditions).run.run solver).run with
    | (.ok (p, c), next) => march conditions dt k (j + 1) (t + dt) p c next
    | (.error e, next) => (.error (.step j e), column, next)

end Run

/-- Advances a column with a solver from time zero to `tFinal` in steps of `dt`, taking at most
`limit` steps. -/
def run {σ α : Type} [Scalar α] [Stepper σ α] (limit : Nat) (column : Column α) (solver : σ)
    (conditions : Conditions α) (dt : Positive α) (tFinal : NonNegative α) : Run.Result σ α :=
  let expected := Stepper.timeStep solver
  if Scalar.abs (dt.val - expected) > Run.stepTolerance * dt.val then
    (.error (.timeStepMismatch dt.val expected), column, solver)
  else
    match Schedule.count dt.val tFinal.val limit with
    | none => (.error (.tooManySteps limit), column, solver)
    | some k => Run.march conditions dt.val k 0 0.0 column.enthalpy column solver

namespace RunError

/-- The constructor path of a run failure. -/
def path : RunError Float → List String
  | .timeStepMismatch _ _ => ["TimeStepMismatch"]
  | .step _ e => "Step" :: Failure.path e
  | .tooManySteps _ => ["TooManySteps"]

/-- What a run failure says. -/
def message : RunError Float → String
  | .timeStepMismatch requested solver =>
    "time step " ++ Message.quantity .time requested ++ " does not match the solver's " ++
      Message.quantity .time solver
  | .step index _ => "step " ++ toString index ++ " failed"
  | .tooManySteps limit => "a run may take at most " ++ toString limit ++ " steps"

/-- The causes of a run failure: the failed stage. -/
def causes : RunError Float → List String
  | .step _ e => Failure.chain e
  | _ => []

instance : Failure (RunError Float) where
  family := "DriverError"
  path := path
  message := message
  causes := causes

end RunError

end IceEnthalpy
