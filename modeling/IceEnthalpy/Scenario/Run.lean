import IceEnthalpy.Scenario.Setup
import IceEnthalpy.Column.Basic
import IceEnthalpy.Solver.Conduction

/-!
# Running a scenario

A verification run sets up the boundary problem of its regime, builds the column on the
verification's height, fills it with the exact solution at time zero, builds a solver for it,
runs to the final time and compares the column with the exact solution at the time reached.
Its report holds the profiles along the way and, for reference, the enthalpy of the
cold–temperate transition at every level.

The solver comes from a factory, so that any solver following the step cycle can be
verified.
-/

namespace IceEnthalpy

/-- What a verification run reports. -/
structure Report (α : Type) where
  /-- The regime run. -/
  regime : Regime
  /-- The error norms of the final column against the exact solution. -/
  norms : Norms α
  /-- The time reached, s. -/
  elapsed : α
  /-- The number of steps taken. -/
  steps : Nat
  /-- The column levels, m. -/
  z : Array α
  /-- The initial column: the exact solution at time zero. -/
  initial : Array α
  /-- The exact solution at the time reached. -/
  exact : Array α
  /-- The steady line. -/
  steady : Array α
  /-- The final column. -/
  computed : Array α
  /-- The transition enthalpy at the pressure of every level. -/
  transition : Array α
  deriving Repr

/-- A way to build a solver for a column grid, a time step and ice properties. -/
abbrev Factory (σ α : Type) [Scalar α] :=
  Grid α → α → Ice.Properties α → Except (SolverError α) σ

/-- The conduction solver of a setup, as a factory. -/
def Conduction.factory {α : Type} [Scalar α] (setup : Setup) : Factory (Conduction α) α :=
  fun g dt p => Conduction.build g dt p setup

namespace Scenario

variable {σ α : Type} [Scalar α] [Stepper σ α]

/-- Runs a scenario with solvers from a factory, taking at most `limit` steps. -/
def run (limit : Nat) (factory : Factory σ α) (v : Verification α) (s : Scenario α) :
    Except (ScenarioError α) (Report α) := do
  let problem ← Problem.setup s.regime v
  let grid ← (Grid.build s.levels v.height).mapError .column
  let z := grid.z
  let initial := problem.exact.profile z (Year.toSeconds 0.0)
  let column ← ((Column.zeroed grid).setProfile initial).mapError .column
  let column := column.resetVelocity.resetStrainHeating
  let solver ← (factory column.grid s.dt.val v.properties).mapError .solver
  let (result, column, _) := IceEnthalpy.run limit column solver problem.conditions s.dt s.tFinal
  let outcome ← result.mapError .run
  let computed := column.enthalpy
  let exact := problem.exact.profile z outcome.elapsed
  let norms ← (Norms.compute computed exact).mapError .norms
  let p ← v.properties.validate.mapError .properties
  return {
    regime := s.regime
    norms := norms
    elapsed := outcome.elapsed
    steps := outcome.steps
    z := z
    initial := initial
    exact := exact
    steady := problem.exact.steadyProfile z
    computed := computed
    transition := z.map fun zk => p.transitionEnthalpy (p.pressure (v.height - zk)) }

end Scenario

end IceEnthalpy
