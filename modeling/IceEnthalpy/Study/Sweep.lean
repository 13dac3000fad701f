import IceEnthalpy.Scenario.Basic

/-!
# Sweeps of discretisations

A convergence study runs one sample per point of a sweep.  A time sweep varies the time step
on a fixed grid and final time, with the step in years as its parameter; a space sweep varies
the number of levels for one time step, taken once, with the level spacing `H/n` as its
parameter.

The reference sweeps are steps of 1, 2, 4, …, 512 years over 1000 years on 101 levels, and
8, 16, …, 512 levels for a single step of one year.
-/

namespace IceEnthalpy

/-- What a sweep varies. -/
inductive SweepKind where
  /-- The time step. -/
  | time
  /-- The level spacing. -/
  | space
  deriving Repr, DecidableEq

namespace SweepKind

/-- The name of the kind. -/
def name : SweepKind → String
  | .time => "time"
  | .space => "space"

/-- The symbol of the parameter. -/
def symbol : SweepKind → String
  | .time => "dt"
  | .space => "dz"

/-- The unit of the parameter. -/
def unit : SweepKind → String
  | .time => "years"
  | .space => "m"

end SweepKind

/-- One point of a sweep. -/
structure SamplePoint (α : Type) where
  /-- The swept parameter: years for a time sweep, meters for a space sweep. -/
  parameter : α
  /-- Number of column levels. -/
  levels : Nat
  /-- Time step, s. -/
  dt : α
  /-- Final time, s. -/
  tFinal : α
  deriving Repr

/-- The scenario of a point in a regime, if its time step is positive and then its final time
not negative. -/
def SamplePoint.scenario {α : Type} [Scalar α] (p : SamplePoint α) (regime : Regime) :
    Except SignError (Scenario α) := do
  let dt ← requirePositive p.dt
  let tFinal ← requireNonNegative p.tFinal
  return ⟨regime, p.levels, dt, tFinal⟩

/-- The points of a study, in the order they are run. -/
structure Sweep (α : Type) where
  /-- What the sweep varies. -/
  kind : SweepKind
  /-- The points, in order. -/
  points : List (SamplePoint α)
  deriving Repr

namespace Sweep

variable {α : Type} [Scalar α]

/-- Time steps `dts` (s) on `levels` levels up to `tFinal` (s). -/
def time (dts : List α) (levels : Nat) (tFinal : α) : Sweep α :=
  ⟨.time, dts.map fun dt => ⟨Year.ofSeconds dt, levels, dt, tFinal⟩⟩

/-- Numbers of levels on a column of `height` (m), each run for one step of `dt` (s). -/
def space (levels : List Nat) (height dt : α) : Sweep α :=
  ⟨.space, levels.map fun n => ⟨height / Scalar.ofNat n, n, dt, dt⟩⟩

/-- Steps of `2^k` years for `k = 0, …, 9` on 101 levels up to 1000 years. -/
def referenceTime : Sweep α :=
  time ((List.range 10).map fun k => Year.toSeconds (Scalar.ofNat (Nat.pow 2 k))) 101
    (Year.toSeconds 1000.0)

/-- `2^k` levels for `k = 3, …, 9` on a column of `height`, for one step of one year. -/
def referenceSpace (height : α) : Sweep α :=
  space ((List.range 7).map fun k => Nat.pow 2 (k + 3)) height (Year.toSeconds 1.0)

end Sweep

end IceEnthalpy
