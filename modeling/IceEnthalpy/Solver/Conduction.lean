import IceEnthalpy.Ice.Properties
import IceEnthalpy.Solver.Stepper
import IceEnthalpy.Solver.Tridiagonal
import IceEnthalpy.Solver.Interpolation

/-!
# A θ-scheme for vertical conduction

Cold ice without advection or strain heating obeys `∂E/∂t = α²·∂²E/∂z²`.  This solver
discretises it with centred second differences on an equally spaced grid of its own, which
refines the column grid by an integer factor `ρ ≥ 1` (so it has `(n-1)·ρ + 1` levels and contains
every column level, as long as that count fits in the 64-bit word in which it is computed), and
with a θ-scheme in time: `θ = 1` is backward Euler and `θ = ½` is Crank–Nicolson.

With `r = α²·Δt/Δz²`, an interior row reads
`-rθ·x_{i-1} + (1 + 2rθ)·x_i - rθ·x_{i+1} = e_i + r(1-θ)·(e_{i-1} - 2e_i + e_{i+1})`.
A value condition replaces its row by `x = v`.  A gradient condition `g` adds a ghost level
beyond the end (`e_{-1} = e_1 - 2Δz·g` at the base, `e_n = e_{n-2} + 2Δz·g` at the surface), so
that linear profiles are reproduced exactly.

Between two solves the solver is `idle`; `prepare` makes it `ready`, conditions are collected at
most once per end, and a successful solve returns it to `idle`.
-/

namespace IceEnthalpy

/-- The weighting of the new time level in the θ-scheme. -/
inductive Scheme where
  /-- Fully implicit, `θ = 1`. -/
  | backwardEuler
  /-- The trapezoidal rule, `θ = ½`. -/
  | crankNicolson
  deriving Repr, DecidableEq

/-- The weight `θ` of the new time level. -/
def Scheme.theta {α : Type} [OfScientific α] : Scheme → α
  | .backwardEuler => 1.0
  | .crankNicolson => 0.5

/-- How a conduction solver is built for a column: its scheme and grid refinement. -/
structure Setup where
  /-- The time discretisation. -/
  scheme : Scheme
  /-- Solver levels per column level interval. -/
  refinement : Nat
  deriving Repr, DecidableEq

/-- Backward Euler on the column's own grid. -/
def Setup.standard : Setup :=
  ⟨.backwardEuler, 1⟩

/-- Where a solver stands in the step cycle. -/
inductive Phase (α : Type) where
  /-- Waiting for `prepare`. -/
  | idle
  /-- Prepared, with the conditions set so far at the base and at the surface. -/
  | ready (base surface : Option (Edge α))
  deriving Repr

/-- The state of a θ-scheme conduction solver. -/
structure Conduction (α : Type) [Scalar α] where
  /-- Time step, s. -/
  dt : α
  /-- Time discretisation. -/
  scheme : Scheme
  /-- Thermal diffusivity `α²`, m²/s. -/
  diffusivity : α
  /-- Enthalpy conductivity `K`, which turns a heat flux into a gradient. -/
  conductivity : α
  /-- The grid of the columns the solver takes. -/
  column : Grid α
  /-- The solver's own grid. -/
  grid : Grid α
  /-- The enthalpy on the solver's grid. -/
  enthalpy : Array α
  /-- Where the solver stands in the step cycle. -/
  phase : Phase α

namespace Conduction

variable {α : Type} [Scalar α]

/-- Relative tolerance between the ice thickness and the column height. -/
def thicknessTolerance : α := 1e-9

/-- The number of levels of the solver's grid for a column of `n` levels refined `ρ` times,
`(n - 1)·ρ + 1`, computed as a `usize`: a 64-bit word whose arithmetic wraps modulo `2⁶⁴` in an
optimised build.  A column's level count is the length of an array, so it is itself a word; a
count that is not, which no column has, is taken as it is. -/
def fineLevels (n ρ : Nat) : Nat :=
  if n < Nat.pow 2 64 then ((n - 1) * ρ + 1) % Nat.pow 2 64 else (n - 1) * ρ + 1

/-- The solver for a column grid, if the time step is positive, the refinement at least one
and the properties usable, checked in that order. -/
def build (g : Grid α) (dt : α) (p : Ice.Properties α) (setup : Setup) :
    Except (SolverError α) (Conduction α) := do
  if !isPositive dt then throw (.timeStep dt)
  if setup.refinement = 0 then throw .zeroRefinement
  let p ← p.validate.mapError .properties
  let levels := fineLevels g.levels setup.refinement
  let fine ← (Grid.build levels g.height).mapError .column
  return {
    dt := dt
    scheme := setup.scheme
    diffusivity := p.diffusivity
    conductivity := p.enthalpyConductivity
    column := g
    grid := fine
    enthalpy := Array.replicate levels 0.0
    phase := .idle }

/-- The first register other than the enthalpy that holds a non-zero value. -/
def otherPhysics (c : Column α) : Option Register :=
  [Register.u, .v, .w, .strainHeating].find? fun r => (c.register r).any (· != 0.0)

/-- Takes a column for the next step: after checking that it has the solver's number of
levels, the ice thickness and that only conduction is asked for, the column enthalpy is interpolated onto the solver grid and the
conditions are cleared. -/
def prepare (s : Conduction α) (c : Column α) (_marginal : Bool) (thickness : α) :
    Except (SolverError α) (Conduction α) :=
  if c.grid.levels ≠ s.column.levels then .error (.gridMismatch s.column.levels c.grid.levels)
  else if Scalar.abs (thickness - s.column.height) > thicknessTolerance * s.column.height then
    .error (.iceThickness thickness s.column.height)
  else
    match otherPhysics c with
    | some r => .error (.unsupportedPhysics r)
    | none =>
      .ok { s with
        enthalpy := Interpolation.interpolate s.column.z c.enthalpy s.grid.z
        phase := .ready none none }

/-- Sets the condition at one end, once per end between `prepare` and `solve`. -/
def impose (s : Conduction α) (b : Boundary) (condition : Condition α) :
    Except (SolverError α) (Conduction α) :=
  let edge := condition.toEdge s.conductivity
  match s.phase, b with
  | .idle, _ => .error .notPrepared
  | .ready none surface, .base => .ok { s with phase := .ready (some edge) surface }
  | .ready (some _) _, .base => .error (.conditionAlreadySet .base)
  | .ready base none, .surface => .ok { s with phase := .ready base (some edge) }
  | .ready _ (some _), .surface => .error (.conditionAlreadySet .surface)

/-- Row `i` of the system of a step on the levels `0, …, top`: the interior row of the θ-scheme,
with the base condition imposed on row `0` and the surface condition on row `top`.  `implicit`
and `explicit` are `r·θ` and `r·(1-θ)`, `dz` is the spacing, and `e` reads the stored enthalpy. -/
def row (top : Nat) (dz implicit explicit : α) (e : Nat → α) (base surface : Edge α) (i : Nat) :
    Row α :=
  let interior : Row α :=
    { lower := -implicit, diag := 1.0 + 2.0 * implicit, upper := -implicit,
      rhs := if i = 0 ∨ i = top then e i
        else e i + explicit * (e (i - 1) - 2.0 * e i + e (i + 1)) }
  let atBase := fun (row : Row α) =>
    match base with
    | .value v => { row with diag := 1.0, upper := 0.0, rhs := v }
    | .gradient g =>
      { row with
        upper := -2.0 * implicit
        rhs := row.rhs + (explicit * (2.0 * e 1 - 2.0 * e 0 - 2.0 * dz * g) -
          implicit * 2.0 * dz * g) }
  let atSurface := fun (row : Row α) =>
    match surface with
    | .value v => { row with diag := 1.0, lower := 0.0, rhs := v }
    | .gradient g =>
      { row with
        lower := -2.0 * implicit
        rhs := row.rhs + (explicit * (2.0 * e (top - 1) - 2.0 * e top + 2.0 * dz * g) +
          implicit * 2.0 * dz * g) }
  let row := if i = 0 then atBase interior else interior
  if i = top then atSurface row else row

/-- The rows of one time step from the stored enthalpy, with the given edges. -/
def system (s : Conduction α) (base surface : Edge α) : List (Row α) :=
  let n := s.grid.levels
  let dz := s.grid.spacing
  let r := s.diffusivity * s.dt / (dz * dz)
  let theta : α := s.scheme.theta
  (List.range n).map
    (row (n - 1) dz (r * theta) (r * (1.0 - theta)) (fun i => s.enthalpy.getD i 0.0) base surface)

/-- Advances the stored enthalpy by one time step, once both conditions are set; the solver
is idle again afterwards. -/
def solve (s : Conduction α) : Except (SolverError α) (Array α × Conduction α) :=
  match s.phase with
  | .idle => .error .notPrepared
  | .ready none _ => .error (.missingCondition .base)
  | .ready _ none => .error (.missingCondition .surface)
  | .ready (some base) (some surface) =>
    match Tridiagonal.solve (s.system base surface) with
    | .error cause => .error (.nonConvergence cause)
    | .ok x =>
      let x := x.toArray
      .ok (x, { s with enthalpy := x, phase := .idle })

/-- Writes a profile on the solver grid into a column on the solver's column grid, by
interpolation at the column levels. -/
def remap (s : Conduction α) (profile : Array α) (c : Column α) :
    Except (SolverError α) (Column α) :=
  if profile.size ≠ s.grid.levels then .error (.profileLength s.grid.levels profile.size)
  else if c.grid.levels ≠ s.column.levels then .error (.gridMismatch s.column.levels c.grid.levels)
  else (c.setProfile (Interpolation.interpolate s.grid.z profile c.z)).mapError .column

theorem impose_of_idle (s : Conduction α) (b : Boundary) (condition : Condition α)
    (h : s.phase = .idle) : s.impose b condition = .error .notPrepared := by
  simp [impose, h]

theorem solve_of_idle (s : Conduction α) (h : s.phase = .idle) :
    s.solve = .error .notPrepared := by
  simp [solve, h]

theorem phase_of_prepare {s next : Conduction α} {c : Column α} {marginal : Bool}
    {thickness : α} (h : s.prepare c marginal thickness = .ok next) :
    next.phase = .ready none none := by
  unfold prepare at h
  split at h
  · cases h
  · split at h
    · cases h
    · split at h
      · cases h
      · cases h
        rfl

theorem phase_of_solve {s next : Conduction α} {x : Array α}
    (h : s.solve = .ok (x, next)) : next.phase = .idle ∧ next.enthalpy = x := by
  unfold solve at h
  split at h
  · cases h
  · cases h
  · cases h
  · split at h
    · cases h
    · cases h
      exact ⟨rfl, rfl⟩

@[simp] theorem length_system (s : Conduction α) (base surface : Edge α) :
    (s.system base surface).length = s.grid.levels := by
  simp [system]

instance : Stepper (Conduction α) α where
  timeStep s := s.dt
  prepare c marginal thickness := Step.ofExcept fun s =>
    (s.prepare c marginal thickness).map ((), ·)
  impose b condition := Step.ofExcept fun s => (s.impose b condition).map ((), ·)
  solve := Step.ofExcept fun s => s.solve
  remap profile c := Step.ofExcept fun s => (s.remap profile c).map (·, s)

end Conduction

end IceEnthalpy
