import IceEnthalpy.Ice.Properties

/-!
# Enthalpy of ice and water

The state of a parcel of ice is its temperature `T`, its liquid water fraction `ω` and the
pressure `p` it is under.  The pressure at a depth `d` below the surface is `p₀ + ρ·g·d`, and the
melting point falls with pressure as `T_m(p) = T_m - β·p`.

The admissible states are cold ice without water (`T < T_m(p)`, `ω = 0`) and temperate ice at
the melting point with any fraction `0 ≤ ω ≤ 1`.  Cold ice has enthalpy `c·(T - T_ref)`; temperate
ice has the enthalpy `c·(T_m(p) - T_ref)` of the cold–temperate transition plus `L·ω`.

`enthalpy` first rejects a water fraction outside `[0, 1]`, then a temperature above the
melting point, then water in cold ice.  A NaN temperature compares neither above nor below and
is treated as temperate.
-/

namespace IceEnthalpy
namespace Ice

/-- Why a state of ice has no enthalpy. -/
inductive StateError (α : Type) where
  /-- The water fraction lies outside `[0, 1]` or is not a number. -/
  | waterFraction (omega : α)
  /-- The temperature lies above the pressure melting point. -/
  | aboveMelting (temperature melting : α)
  /-- Ice below the melting point holds liquid water. -/
  | waterInColdIce (temperature : α)
  deriving Repr

namespace Properties

variable {α : Type} [Scalar α]

/-- Pressure at a depth below the surface, Pa. -/
def pressure (p : Properties α) (depth : α) : α :=
  p.surfacePressure + p.density * p.gravity * depth

/-- The melting point under a pressure, K. -/
def meltingTemperature (p : Properties α) (pressure : α) : α :=
  p.meltingPoint - p.clausiusClapeyron * pressure

/-- Enthalpy of the cold–temperate transition under a pressure, J/kg. -/
def transitionEnthalpy (p : Properties α) (pressure : α) : α :=
  p.specificHeat * (p.meltingTemperature pressure - p.referenceTemperature)

/-- Enthalpy of ice at a temperature and water fraction under a pressure, J/kg. -/
def enthalpy (p : Properties α) (temperature omega pressure : α) :
    Except (StateError α) α :=
  let melting := p.meltingTemperature pressure
  if !(decide ((0.0 : α) ≤ omega) && decide (omega ≤ 1.0)) then .error (.waterFraction omega)
  else if temperature > melting then .error (.aboveMelting temperature melting)
  else if temperature < melting then
    if omega > 0.0 then .error (.waterInColdIce temperature)
    else .ok (p.specificHeat * (temperature - p.referenceTemperature))
  else .ok (p.transitionEnthalpy pressure + p.latentHeat * omega)

end Properties

namespace StateError

/-- The constructor name of a state failure: a state outside the domain, or an impossible one. -/
def name {α : Type} : StateError α → String
  | .waterFraction _ | .aboveMelting _ _ => "OutOfDomain"
  | .waterInColdIce _ => "InvalidState"

/-- What a state failure says. -/
def message : StateError Float → String
  | .waterFraction ω =>
    "out of domain: water fraction " ++ Message.number ω ++ " is outside [0, 1]"
  | .aboveMelting t m =>
    "out of domain: temperature " ++ Message.number t ++ " K exceeds the pressure melting point " ++
      Message.number m ++ " K"
  | .waterInColdIce t =>
    "invalid state: cold ice at " ++ Message.number t ++ " K cannot hold liquid water"

instance : Failure (StateError Float) where
  family := "PropertyError"
  path e := [e.name]
  message := message
  causes _ := []

end StateError

end Ice
end IceEnthalpy
