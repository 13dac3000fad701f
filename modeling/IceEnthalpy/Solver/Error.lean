import IceEnthalpy.Ice.Properties
import IceEnthalpy.Column.Grid
import IceEnthalpy.Solver.Boundary

/-!
# Solver failures

What can go wrong while a column solver is built and driven: a stage out of order (solving
or setting a condition before `prepare`, a condition missing or set twice), a numerical
breakdown of the linear solve, a column that the solver cannot handle (other physics, another
thickness, another number of levels), and invalid construction data.  Failures of the ice
properties and of the column are reported as they are, with no message of their own.
-/

namespace IceEnthalpy

/-- Why a solve produced no profile. -/
inductive Breakdown (α : Type) where
  /-- An elimination pivot is below the smallest normal magnitude or not finite. -/
  | singularPivot (pivot : α) (row : Nat)
  /-- The solution is not finite at a level. -/
  | nonFinite (level : Nat)
  /-- A solve was refused on purpose; the index counts solves from zero. -/
  | rejected (solve : Nat)
  deriving Repr

/-- Why a solver operation failed. -/
inductive SolverError (α : Type) where
  /-- A condition or a solve came before `prepare`. -/
  | notPrepared
  /-- A solve came before the condition at this end was set. -/
  | missingCondition (boundary : Boundary)
  /-- The condition at this end was already set since `prepare`. -/
  | conditionAlreadySet (boundary : Boundary)
  /-- The linear solve broke down. -/
  | nonConvergence (cause : Breakdown α)
  /-- The column has a non-zero value in a register the solver does not model. -/
  | unsupportedPhysics (register : Register)
  /-- The ice thickness differs from the column height. -/
  | iceThickness (thickness height : α)
  /-- The column has another number of levels than the solver was built for. -/
  | gridMismatch (expected actual : Nat)
  /-- A profile has another number of values than the solver's grid. -/
  | profileLength (expected actual : Nat)
  /-- The time step is not greater than zero. -/
  | timeStep (dt : α)
  /-- The grid refinement is zero. -/
  | zeroRefinement
  /-- The ice properties are unusable. -/
  | properties (cause : Ice.PropertiesError α)
  /-- A grid or column operation failed. -/
  | column (cause : ColumnError α)
  deriving Repr

namespace Breakdown

/-- What a breakdown says. -/
def message : Breakdown Float → String
  | .singularPivot p row => "singular pivot " ++ Message.number p ++ " at row " ++ toString row
  | .nonFinite level => "non-finite enthalpy at level " ++ toString level
  | .rejected n => "solve " ++ toString n ++ " rejected"

end Breakdown

namespace SolverError

/-- The constructor path of a solver failure; a wrapped failure adds its own path. -/
def path : SolverError Float → List String
  | .notPrepared => ["NotPrepared"]
  | .missingCondition _ => ["MissingBoundaryCondition"]
  | .conditionAlreadySet _ => ["BoundaryConditionAlreadySet"]
  | .nonConvergence _ => ["NonConvergence"]
  | .unsupportedPhysics _ => ["UnsupportedPhysics"]
  | .iceThickness _ _ => ["IceThickness"]
  | .gridMismatch _ _ => ["GridMismatch"]
  | .profileLength _ _ => ["ProfileLength"]
  | .timeStep _ => ["TimeStep"]
  | .zeroRefinement => ["Configuration"]
  | .properties e => "Properties" :: Failure.path e
  | .column e => "Column" :: Failure.path e

/-- What a solver failure says. -/
def message : SolverError Float → String
  | .notPrepared => "solver used before prepare"
  | .missingCondition b => "no boundary condition set at the " ++ b.name
  | .conditionAlreadySet b => "boundary condition at the " ++ b.name ++ " was already set"
  | .nonConvergence cause => "solve did not converge: " ++ cause.message
  | .unsupportedPhysics r => "unsupported physics: non-zero " ++ r.name
  | .iceThickness t h =>
    "ice thickness " ++ Message.quantity .length t ++ " does not match column height " ++
      Message.quantity .length h
  | .gridMismatch expected actual =>
    "column has " ++ toString actual ++ " levels, solver expects " ++ toString expected
  | .profileLength expected actual =>
    "profile has " ++ toString actual ++ " values, solver grid has " ++ toString expected
  | .timeStep dt => "invalid time step: " ++ Message.quantity .time dt
  | .zeroRefinement => "invalid solver configuration: refinement must be at least 1"
  | .properties e => Failure.message e
  | .column e => Failure.message e

instance : Failure (SolverError Float) where
  family := "SolverError"
  path := path
  message := message
  causes _ := []

end SolverError

end IceEnthalpy
