import IceEnthalpy.Scalar

/-!
# Boundary conditions

Each end of a column takes one condition per time step: a fixed enthalpy (a Dirichlet
condition) or a heat flux through the end (a Neumann condition).  A solver stores a flux `F` as
the enthalpy gradient `F/K`, with `K = k/c`, so that both kinds of condition become an `Edge`:
a value or a gradient at the end of the grid.
-/

namespace IceEnthalpy

/-- The two ends of a column. -/
inductive Boundary where
  /-- The bed, at `z = 0`. -/
  | base
  /-- The ice surface, at `z = H`. -/
  | surface
  deriving Repr, DecidableEq

/-- The name of an end as messages write it. -/
def Boundary.name : Boundary → String
  | .base => "base"
  | .surface => "surface"

/-- A condition at one end of a column. -/
inductive Condition (α : Type) where
  /-- The enthalpy at the end is held at a value, J/kg. -/
  | dirichlet (enthalpy : α)
  /-- A heat flux crosses the end, W/m². -/
  | heatFlux (flux : α)
  deriving Repr

/-- The conditions at both ends of a column. -/
structure Conditions (α : Type) where
  /-- The condition at the base. -/
  base : Condition α
  /-- The condition at the surface. -/
  surface : Condition α
  deriving Repr

/-- A condition as a solver stores it: the value or the gradient at the end. -/
inductive Edge (α : Type) where
  /-- The enthalpy at the end, J/kg. -/
  | value (enthalpy : α)
  /-- The enthalpy gradient at the end, J/(kg·m). -/
  | gradient (slope : α)
  deriving Repr

/-- The edge of a condition, a flux being divided by the enthalpy conductivity `K`. -/
def Condition.toEdge {α : Type} [Div α] (conductivity : α) : Condition α → Edge α
  | .dirichlet e => .value e
  | .heatFlux f => .gradient (f / conductivity)

end IceEnthalpy
