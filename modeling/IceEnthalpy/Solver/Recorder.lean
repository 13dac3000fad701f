import IceEnthalpy.Solver.Stepper

/-!
# A recording solver

A solver that does no physics: it keeps the enthalpy of the last prepared column, returns it
unchanged from each solve and writes it back on remap, and records every stage that is asked
of it, in order.  It can be told to refuse one solve, counting solves from zero, with a
breakdown that names that solve.  It is the simplest solver against which the order of the
stages of a run can be observed.
-/

namespace IceEnthalpy

/-- A stage asked of a solver, with the kind of condition for the condition stages. -/
inductive Call where
  /-- `prepare`. -/
  | prepare
  /-- A value condition at the base. -/
  | basalDirichlet
  /-- A flux condition at the base. -/
  | basalHeatFlux
  /-- A value condition at the surface. -/
  | surfaceDirichlet
  /-- A flux condition at the surface. -/
  | surfaceHeatFlux
  /-- `solve`. -/
  | solve
  /-- `remap`. -/
  | remap
  deriving Repr, DecidableEq

namespace Call

/-- The name of a stage. -/
def name : Call → String
  | .prepare => "prepare"
  | .basalDirichlet => "basal_dirichlet"
  | .basalHeatFlux => "basal_heat_flux"
  | .surfaceDirichlet => "surface_dirichlet"
  | .surfaceHeatFlux => "surface_heat_flux"
  | .solve => "solve"
  | .remap => "remap"

/-- The stage that imposes a condition at an end. -/
def ofCondition {α : Type} : Boundary → Condition α → Call
  | .base, .dirichlet _ => .basalDirichlet
  | .base, .heatFlux _ => .basalHeatFlux
  | .surface, .dirichlet _ => .surfaceDirichlet
  | .surface, .heatFlux _ => .surfaceHeatFlux

end Call

/-- The state of a recording solver. -/
structure Recorder (α : Type) where
  /-- The time step it reports, s. -/
  dt : α
  /-- The enthalpy of the last prepared column. -/
  profile : Array α
  /-- How many solves were asked for. -/
  solves : Nat
  /-- The index of the solve to refuse, if any. -/
  failOn : Option Nat
  /-- The stages asked for so far, in order. -/
  calls : Array Call
  deriving Repr

namespace Recorder

variable {α : Type} [Scalar α]

/-- A recorder with time step `dt` that refuses the solve with index `failOn`. -/
def start (dt : α) (failOn : Option Nat) : Recorder α :=
  ⟨dt, #[], 0, failOn, #[]⟩

/-- The state with one more stage recorded. -/
def record (r : Recorder α) (c : Call) : Recorder α :=
  { r with calls := r.calls.push c }

instance : Stepper (Recorder α) α where
  timeStep r := r.dt
  prepare c _ _ := modify fun r => { r.record .prepare with profile := c.enthalpy }
  impose b condition := modify fun r => r.record (.ofCondition b condition)
  solve := do
    let r ← get
    let index := r.solves
    set { r.record .solve with solves := index + 1 }
    if r.failOn = some index then throw (.nonConvergence (.rejected index))
    return r.profile
  remap profile c := do
    modify fun r => r.record .remap
    match c.setProfile profile with
    | .ok c => return c
    | .error e => throw (.column e)

end Recorder

end IceEnthalpy
