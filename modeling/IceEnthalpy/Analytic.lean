import IceEnthalpy.Sign

/-!
# Analytic solutions of the conduction equation

On a column `0 ≤ z ≤ L`, cold ice without advection obeys `∂E/∂t = α²·∂²E/∂z²`.  A verification
run compares a solver with an exact solution of this equation: a steady line plus one decaying
eigenmode,

  `E(z, t) = E_s(z) + A·exp(-λ²α²·t)·sin(λ·φ(z))`,

with the amplitude `A = 25·L`.  Two boundary arrangements are used:

* `dirichletNeumann`: the enthalpy is fixed at the base and the gradient at the surface.  Then
  `E_s(z) = E₀ + Q·z`, `φ(z) = z` and `λ = (π/2 + π)/L`, so `sin(λ·0) = 0` and `cos(λ·L) = 0`.
* `neumannDirichlet`: the gradient is fixed at the base and the enthalpy at the surface.  Then
  `E_s(z) = E_L + Q·(z - L)`, `φ(z) = L - z` and `λ = (-π/2 + π)/L`.

Building a solution requires a length and a diffusivity greater than zero, the length being
checked first.
-/

namespace IceEnthalpy

/-- Which end of the column holds the enthalpy fixed and which the gradient. -/
inductive Regime where
  /-- Enthalpy fixed at the base, gradient fixed at the surface. -/
  | dirichletNeumann
  /-- Gradient fixed at the base, enthalpy fixed at the surface. -/
  | neumannDirichlet
  deriving Repr, DecidableEq

namespace Regime

/-- The two-letter tag, base first. -/
def tag : Regime → String
  | .dirichletNeumann => "DN"
  | .neumannDirichlet => "ND"

/-- The arrangement in words. -/
def describe : Regime → String
  | .dirichletNeumann => "Dirichlet at the base, Neumann at the surface"
  | .neumannDirichlet => "Neumann at the base, Dirichlet at the surface"

/-- The regime with a given tag. -/
def ofTag? : String → Option Regime
  | "DN" => some .dirichletNeumann
  | "ND" => some .neumannDirichlet
  | _ => none

end Regime

section Amplitude

variable {α : Type} [Scalar α]

/-- Amplitude of the transient mode per meter of column, J/(kg·m). -/
def amplitudePerMeter : α := 25.0

/-- Amplitude `A = 25·L` of the transient mode on a column of height `L`, J/kg. -/
def transientAmplitude (length : α) : α :=
  amplitudePerMeter * length

/-- The mode number `m` of the eigenvalue `λ = (±π/2 + m·π)/L`. -/
def modeNumber : α := 1.0

end Amplitude

/-- Why an analytic solution cannot be built. -/
inductive AnalyticError (α : Type) where
  /-- The column length is not greater than zero. -/
  | length (value : α)
  /-- The diffusivity is not greater than zero. -/
  | diffusivity (value : α)
  deriving Repr

/-- A steady line plus one decaying eigenmode on a column of positive length. -/
structure Eigenmode (α : Type) [Scalar α] where
  /-- Where the enthalpy and where the gradient are fixed. -/
  regime : Regime
  /-- Column length `L`, m. -/
  length : α
  /-- The fixed enthalpy: at the base for `dirichletNeumann`, at the surface otherwise. -/
  reference : α
  /-- Gradient `Q` of the steady line, J/(kg·m). -/
  gradient : α
  /-- Thermal diffusivity `α²`, m²/s. -/
  diffusivity : α
  /-- The length is greater than zero. -/
  length_pos : (0.0 : α) < length
  /-- The diffusivity is greater than zero. -/
  diffusivity_pos : (0.0 : α) < diffusivity

namespace Eigenmode

variable {α : Type} [Scalar α]

/-- The solution with the given data, if the length and then the diffusivity are positive. -/
def build (regime : Regime) (length reference gradient diffusivity : α) :
    Except (AnalyticError α) (Eigenmode α) :=
  if hl : (0.0 : α) < length then
    if hd : (0.0 : α) < diffusivity then
      .ok ⟨regime, length, reference, gradient, diffusivity, hl, hd⟩
    else .error (.diffusivity diffusivity)
  else .error (.length length)

/-- The eigenvalue `λ`, 1/m. -/
def eigenvalue (s : Eigenmode α) : α :=
  match s.regime with
  | .dirichletNeumann => (Scalar.pi / 2.0 + modeNumber * Scalar.pi) / s.length
  | .neumannDirichlet => (-Scalar.pi / 2.0 + modeNumber * Scalar.pi) / s.length

/-- The amplitude `A = 25·L` of the mode at time zero. -/
def amplitude (s : Eigenmode α) : α :=
  transientAmplitude s.length

/-- The decay rate `λ²·α²` of the mode, 1/s. -/
def decayRate (s : Eigenmode α) : α :=
  s.eigenvalue * s.eigenvalue * s.diffusivity

/-- The e-folding time `1/(λ²·α²)` of the mode, s. -/
def decayTime (s : Eigenmode α) : α :=
  1.0 / s.decayRate

/-- The factor `exp(-λ²α²·t)` by which the mode has decayed at time `t`. -/
def envelope (s : Eigenmode α) (t : α) : α :=
  Scalar.exp (-s.decayRate * t)

/-- The argument `φ(z)` of the mode's sine: the distance from the fixed-enthalpy end. -/
def phase (s : Eigenmode α) (z : α) : α :=
  match s.regime with
  | .dirichletNeumann => z
  | .neumannDirichlet => s.length - z

/-- The steady line `E_s(z)`, J/kg. -/
def steady (s : Eigenmode α) (z : α) : α :=
  match s.regime with
  | .dirichletNeumann => s.reference + s.gradient * z
  | .neumannDirichlet => s.reference + s.gradient * (z - s.length)

/-- The enthalpy `E(z, t)` at height `z` and time `t`, J/kg. -/
def enthalpy (s : Eigenmode α) (z t : α) : α :=
  s.amplitude * s.envelope t * Scalar.sin (s.eigenvalue * s.phase z) + s.steady z

/-- The gradient `∂E/∂z` at height `z` and time `t`, J/(kg·m). -/
def slope (s : Eigenmode α) (z t : α) : α :=
  let scale := s.amplitude * s.envelope t * s.eigenvalue
  let transient :=
    match s.regime with
    | .dirichletNeumann => scale * Scalar.cos (s.eigenvalue * z)
    | .neumannDirichlet => -scale * Scalar.cos (s.eigenvalue * (s.length - z))
  transient + s.gradient

/-- The enthalpy at each height of a list, at time `t`. -/
def profile (s : Eigenmode α) (zs : Array α) (t : α) : Array α :=
  zs.map (s.enthalpy · t)

/-- The steady line at each height of a list. -/
def steadyProfile (s : Eigenmode α) (zs : Array α) : Array α :=
  zs.map s.steady

end Eigenmode

namespace AnalyticError

/-- The constructor name of an analytic failure. -/
def name {α : Type} : AnalyticError α → String
  | .length _ => "Length"
  | .diffusivity _ => "Diffusivity"

/-- What an analytic failure says. -/
def message : AnalyticError Float → String
  | .length l => "invalid domain length: " ++ Message.quantity .length l
  | .diffusivity d => "invalid thermal diffusivity: " ++ Message.quantity .diffusivity d

instance : Failure (AnalyticError Float) where
  family := "AnalyticError"
  path e := [e.name]
  message := message
  causes _ := []

end AnalyticError

end IceEnthalpy
