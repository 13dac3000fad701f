import IceEnthalpy.Scenario.Basic
import IceEnthalpy.Solver.Boundary

/-!
# The boundary problem of a scenario

Each regime pairs an analytic solution with the conditions that keep a column on it.  The
boundary data come from cold-ice enthalpies at fixed temperatures, with pressures taken at the
depth below the surface, so that the column stays well below the melting point:

* `dirichletNeumann`: the base is held at `E_b = E(230 K, p(H))`; the steady line rises with
  `Q = (E(270 K, p(0)) - A - E_b)/H`, `A = 25·H`, and the surface takes the flux `K·Q`.
* `neumannDirichlet`: the surface is held at `E_s = E(260 K, p(0))`; the steady line rises with
  `Q = (E_s - E(240 K, p(H)))/H`, and the base takes the flux `K·Q`.

The fixed end's enthalpy is evaluated first.
-/

namespace IceEnthalpy

/-- An analytic solution and the boundary conditions under which it is the exact answer. -/
structure Problem (α : Type) [Scalar α] where
  /-- The exact solution. -/
  exact : Eigenmode α
  /-- The conditions that keep a column on it. -/
  conditions : Conditions α

namespace Problem

variable {α : Type} [Scalar α]

/-- Temperature whose cold-ice enthalpy fixes the base of a `dirichletNeumann` column, K. -/
def baseTemperatureDN : α := 230.0

/-- Temperature of the steady surface value of a `dirichletNeumann` column, before the amplitude
is taken off, K. -/
def surfaceTemperatureDN : α := 270.0

/-- Temperature whose cold-ice enthalpy fixes the surface of a `neumannDirichlet` column, K. -/
def surfaceTemperatureND : α := 260.0

/-- Temperature of the steady base value of a `neumannDirichlet` column, K. -/
def baseTemperatureND : α := 240.0

/-- The boundary problem of a regime for the ice and column of a verification. -/
def setup (regime : Regime) (v : Verification α) : Except (ScenarioError α) (Problem α) := do
  let p ← v.properties.validate.mapError .properties
  let height := v.height
  let atSurface := p.pressure 0.0
  let atBase := p.pressure height
  let cold := fun (t pressure : α) => (p.enthalpy t 0.0 pressure).mapError ScenarioError.state
  let k := p.enthalpyConductivity
  match regime with
  | .dirichletNeumann =>
    let base ← cold baseTemperatureDN atBase
    let surface ← cold surfaceTemperatureDN atSurface
    let gradient := (surface - transientAmplitude height - base) / height
    let exact ← (Eigenmode.build .dirichletNeumann height base gradient p.diffusivity).mapError
      .analytic
    return ⟨exact, ⟨.dirichlet base, .heatFlux (k * gradient)⟩⟩
  | .neumannDirichlet =>
    let surface ← cold surfaceTemperatureND atSurface
    let base ← cold baseTemperatureND atBase
    let gradient := (surface - base) / height
    let exact ← (Eigenmode.build .neumannDirichlet height surface gradient p.diffusivity).mapError
      .analytic
    return ⟨exact, ⟨.heatFlux (k * gradient), .dirichlet surface⟩⟩

end Problem

end IceEnthalpy
