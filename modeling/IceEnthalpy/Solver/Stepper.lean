import IceEnthalpy.Column.Basic
import IceEnthalpy.Solver.Error

/-!
# The step cycle of a column solver

A column solver advances the enthalpy of a column by one time step of fixed length.  Each step
is driven in four stages: `prepare` takes the column (its enthalpy, and registers the solver
must check), a condition is imposed at each end, `solve` computes the new profile on the
solver's own grid, and `remap` writes a profile back into the column.

A solver is a value of its own state type; each stage is a `Step`, which maps a state to an
outcome and the next state.  A stage that fails still returns a state, so that a solver may
keep a record of what was asked of it.
-/

namespace IceEnthalpy

/-- A stage of a solver with state `σ`: a result or a failure, and the next state. -/
abbrev Step (σ α ρ : Type) := ExceptT (SolverError α) (StateM σ) ρ

/-- The stage of a function that either fails and leaves the state as it was, or gives a
result and the next state. -/
def Step.ofExcept {σ α ρ : Type} (f : σ → Except (SolverError α) (ρ × σ)) : Step σ α ρ :=
  ExceptT.mk fun s =>
    match f s with
    | .ok (r, next) => pure (.ok r, next)
    | .error e => pure (.error e, s)

/-- The stages of a column solver with state `σ` over scalars `α`. -/
class Stepper (σ : Type) (α : outParam Type) [Scalar α] where
  /-- The length of the time step the solver advances by, s. -/
  timeStep : σ → α
  /-- Takes the column for the next step; `marginal` flags a column at the ice margin, and
  `thickness` is the ice thickness, m. -/
  prepare : Column α → Bool → α → Step σ α Unit
  /-- Sets the condition at one end for the next solve. -/
  impose : Boundary → Condition α → Step σ α Unit
  /-- Computes the profile at the end of the step, on the solver's grid. -/
  solve : Step σ α (Array α)
  /-- Writes a profile on the solver's grid into a column. -/
  remap : Array α → Column α → Step σ α (Column α)

namespace Stepper

variable {σ α : Type} [Scalar α] [Stepper σ α]

/-- Imposes the base condition and then the surface condition, stopping at a failure. -/
def apply (conditions : Conditions α) : Step σ α Unit := do
  impose .base conditions.base
  impose .surface conditions.surface

/-- One full time step of a column: prepare, both conditions, solve, remap.  The result is
the solved profile and the updated column. -/
def advance (column : Column α) (conditions : Conditions α) : Step σ α (Array α × Column α) := do
  prepare column false column.grid.height
  apply conditions
  let profile ← solve
  let column ← remap profile column
  return (profile, column)

end Stepper

end IceEnthalpy
