import IceEnthalpy.Sign

/-!
# Material properties of ice

The constants that the enthalpy formulation needs: thermal conductivity `k`, specific heat
capacity `c`, density `ρ`, gravitational acceleration `g`, the Clausius–Clapeyron slope `β` of
the melting point against pressure, the melting point at zero pressure, the reference
temperature of zero enthalpy, the latent heat of fusion `L`, and the pressure at the surface.

Properties are usable when `k`, `c`, `ρ` and `L` are greater than zero, `g` and `β` are at least
zero, and the reference temperature is not at or above the melting point.  `validate` checks
these in that order and reports the first that fails.  The last test is a plain comparison, so
a NaN on either side passes it.
-/

namespace IceEnthalpy
namespace Ice

/-- The material constants of ice, in SI units. -/
structure Properties (α : Type) where
  /-- Thermal conductivity `k`, W/(m·K). -/
  conductivity : α
  /-- Specific heat capacity `c`, J/(kg·K). -/
  specificHeat : α
  /-- Density `ρ`, kg/m³. -/
  density : α
  /-- Gravitational acceleration `g`, m/s². -/
  gravity : α
  /-- Slope `β` of the melting point against pressure, K/Pa. -/
  clausiusClapeyron : α
  /-- Melting point at zero pressure, K. -/
  meltingPoint : α
  /-- Temperature of zero enthalpy, K. -/
  referenceTemperature : α
  /-- Latent heat of fusion `L`, J/kg. -/
  latentHeat : α
  /-- Pressure at the ice surface, Pa. -/
  surfacePressure : α
  deriving Repr

/-- Why a set of properties is unusable. -/
inductive PropertiesError (α : Type) where
  /-- The conductivity is not greater than zero. -/
  | conductivity (value : α)
  /-- The specific heat capacity is not greater than zero. -/
  | specificHeat (value : α)
  /-- The density is not greater than zero. -/
  | density (value : α)
  /-- The gravitational acceleration is below zero or not a number. -/
  | gravity (value : α)
  /-- The latent heat is not greater than zero. -/
  | latentHeat (value : α)
  /-- The Clausius–Clapeyron slope is below zero or not a number. -/
  | clausiusClapeyron (value : α)
  /-- The reference temperature is at or above the melting point. -/
  | referenceTemperature (reference melting : α)
  deriving Repr

namespace Properties

variable {α : Type} [Scalar α]

/-- Properties of polar ice: `k = 2.10`, `c = 2009`, `ρ = 910`, `g = 9.81`, `β = 7.9e-8`, melting
at 273.15 K, zero enthalpy at 223.15 K, `L = 3.34e5` and no surface pressure. -/
def standard : Properties α where
  conductivity := 2.10
  specificHeat := 2009.0
  density := 910.0
  gravity := 9.81
  clausiusClapeyron := 7.9e-8
  meltingPoint := 273.15
  referenceTemperature := 223.15
  latentHeat := 3.34e5
  surfacePressure := 0.0

/-- The first reason, in the documented order, why the properties are unusable. -/
def check (p : Properties α) : Option (PropertiesError α) :=
  if !isPositive p.conductivity then some (.conductivity p.conductivity)
  else if !isPositive p.specificHeat then some (.specificHeat p.specificHeat)
  else if !isPositive p.density then some (.density p.density)
  else if !isNonNegative p.gravity then some (.gravity p.gravity)
  else if !isPositive p.latentHeat then some (.latentHeat p.latentHeat)
  else if !isNonNegative p.clausiusClapeyron then some (.clausiusClapeyron p.clausiusClapeyron)
  else if p.referenceTemperature ≥ p.meltingPoint then
    some (.referenceTemperature p.referenceTemperature p.meltingPoint)
  else none

/-- The properties themselves when they are usable. -/
def validate (p : Properties α) : Except (PropertiesError α) (Properties α) :=
  match p.check with
  | some e => .error e
  | none => .ok p

/-- Thermal diffusivity `α² = k / (c·ρ)`, m²/s. -/
def diffusivity (p : Properties α) : α :=
  p.conductivity / (p.specificHeat * p.density)

/-- The factor `K = k / c` that turns an enthalpy gradient into a heat flux, kg/(m·s). -/
def enthalpyConductivity (p : Properties α) : α :=
  p.conductivity / p.specificHeat

end Properties

namespace PropertiesError

/-- The constructor name of a properties failure. -/
def name {α : Type} : PropertiesError α → String
  | .conductivity _ => "Conductivity"
  | .specificHeat _ => "SpecificHeat"
  | .density _ => "Density"
  | .gravity _ => "Gravity"
  | .latentHeat _ => "LatentHeat"
  | .clausiusClapeyron _ => "ClausiusClapeyron"
  | .referenceTemperature _ _ => "ReferenceTemperature"

/-- What a properties failure says. -/
def message : PropertiesError Float → String
  | .conductivity k =>
    "invalid thermal conductivity: " ++ Message.quantity .conductivity k
  | .specificHeat c =>
    "invalid specific heat capacity: " ++ Message.quantity .specificHeat c
  | .density ρ => "invalid density: " ++ Message.quantity .density ρ
  | .gravity g => "invalid gravitational acceleration: " ++ Message.quantity .acceleration g
  | .latentHeat l => "invalid latent heat of fusion: " ++ Message.quantity .specificEnergy l
  | .clausiusClapeyron β => "invalid Clausius-Clapeyron slope: " ++ Message.number β ++ " K/Pa"
  | .referenceTemperature r m =>
    "reference temperature " ++ Message.quantity .temperature r ++
      " must be below the melting point " ++ Message.quantity .temperature m

instance : Failure (PropertiesError Float) where
  family := "IcePropertiesError"
  path e := [e.name]
  message := message
  causes _ := []

end PropertiesError

end Ice
end IceEnthalpy
