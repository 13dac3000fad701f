import IceEnthalpy.Analytic
import IceEnthalpy.Ice.Enthalpy
import IceEnthalpy.Column.Grid
import IceEnthalpy.Solver.Error
import IceEnthalpy.Run
import IceEnthalpy.Norms

/-!
# Verification scenarios

A verification scenario runs a column of ice from an analytic solution and compares the
result with the same solution at the time reached.  The ice and the column height are fixed by
a `Verification`; a `Scenario` chooses the regime, the number of levels, the time step and the
final time.

A scenario failure wraps the failure of the stage where it happened: the scenario's times,
the ice properties, the cold-ice enthalpies of the boundary data, the analytic solution, the
column, the solver's construction, the run, or the error norms.
-/

namespace IceEnthalpy

/-- The ice and column height of a family of verification runs. -/
structure Verification (α : Type) where
  /-- The material constants of the ice. -/
  properties : Ice.Properties α
  /-- The column height, m. -/
  height : α
  deriving Repr

/-- Polar ice in a column of 1000 m. -/
def Verification.standard {α : Type} [Scalar α] : Verification α :=
  ⟨Ice.Properties.standard, 1000.0⟩

/-- One verification run: a regime, a number of levels, a time step and a final time, s. -/
structure Scenario (α : Type) [Scalar α] where
  /-- Where the enthalpy and where the gradient are fixed. -/
  regime : Regime
  /-- Number of column levels. -/
  levels : Nat
  /-- Time step, s. -/
  dt : Positive α
  /-- Final time, s. -/
  tFinal : NonNegative α

/-- The scenario with times given in years, if the time step is positive and then the final
time not negative. -/
def Scenario.ofYears {α : Type} [Scalar α] (regime : Regime) (levels : Nat) (dt tFinal : α) :
    Except SignError (Scenario α) := do
  let dt ← requirePositive (Year.toSeconds dt)
  let tFinal ← requireNonNegative (Year.toSeconds tFinal)
  return ⟨regime, levels, dt, tFinal⟩

/-- Why a verification run failed, by the stage that failed. -/
inductive ScenarioError (α : Type) where
  /-- A time of the scenario has the wrong sign. -/
  | time (cause : SignError)
  /-- The ice properties are unusable. -/
  | properties (cause : Ice.PropertiesError α)
  /-- A boundary enthalpy could not be evaluated. -/
  | state (cause : Ice.StateError α)
  /-- The analytic solution could not be built. -/
  | analytic (cause : AnalyticError α)
  /-- The column could not be built. -/
  | column (cause : ColumnError α)
  /-- The solver could not be built. -/
  | solver (cause : SolverError α)
  /-- The run failed. -/
  | run (cause : RunError α)
  /-- The error norms could not be computed. -/
  | norms (cause : NormsError)
  deriving Repr

namespace ScenarioError

/-- The constructor path of a scenario failure, through the failure it wraps. -/
def path : ScenarioError Float → List String
  | .time e => "Time" :: Failure.path e
  | .properties e => "Properties" :: Failure.path e
  | .state e => "Property" :: Failure.path e
  | .analytic e => "Analytic" :: Failure.path e
  | .column e => "Column" :: Failure.path e
  | .solver e => "Solver" :: Failure.path e
  | .run e => "Driver" :: Failure.path e
  | .norms e => "Metrics" :: Failure.path e

/-- What a scenario failure says. -/
def message : ScenarioError Float → String
  | .time _ => "invalid scenario time"
  | .properties _ => "invalid ice properties"
  | .state _ => "boundary enthalpy evaluation failed"
  | .analytic _ => "invalid analytic solution"
  | .column _ => "invalid column"
  | .solver _ => "solver construction failed"
  | .run _ => "simulation failed"
  | .norms _ => "error norms failed"

/-- The causes of a scenario failure: the failure it wraps and that one's causes. -/
def causes : ScenarioError Float → List String
  | .time e => Failure.chain e
  | .properties e => Failure.chain e
  | .state e => Failure.chain e
  | .analytic e => Failure.chain e
  | .column e => Failure.chain e
  | .solver e => Failure.chain e
  | .run e => Failure.chain e
  | .norms e => Failure.chain e

instance : Failure (ScenarioError Float) where
  family := "ScenarioError"
  path := path
  message := message
  causes := causes

end ScenarioError

end IceEnthalpy
