/-!
# Physical quantities

Quantities are held as plain scalars in SI base units: meters, kilograms, seconds and kelvin.
What a quantity measures matters only where it is written out, as its value followed by the
powers of the base units (`0.0 m^-3 kg^1` for a density), and where a time is given in years.
-/

namespace IceEnthalpy

/-- The powers of the SI base units m, kg, s, A, K, mol and cd in a quantity. -/
structure Dimension where
  /-- Power of the meter. -/
  meter : Int := 0
  /-- Power of the kilogram. -/
  kilogram : Int := 0
  /-- Power of the second. -/
  second : Int := 0
  /-- Power of the ampere. -/
  ampere : Int := 0
  /-- Power of the kelvin. -/
  kelvin : Int := 0
  /-- Power of the mole. -/
  mole : Int := 0
  /-- Power of the candela. -/
  candela : Int := 0
  deriving Repr, DecidableEq

namespace Dimension

/-- The units of a dimension as written after a value: ` unit^power` for every non-zero power,
in the order m, kg, s, A, K, mol, cd. -/
def units (d : Dimension) : String :=
  let powers := [("m", d.meter), ("kg", d.kilogram), ("s", d.second), ("A", d.ampere),
    ("K", d.kelvin), ("mol", d.mole), ("cd", d.candela)]
  String.join (powers.filterMap fun (symbol, power) =>
    if power = 0 then none else some (" " ++ symbol ++ "^" ++ toString power))

/-- Length, m. -/
def length : Dimension := { meter := 1 }

/-- Time, s. -/
def time : Dimension := { second := 1 }

/-- Thermodynamic temperature, K. -/
def temperature : Dimension := { kelvin := 1 }

/-- Mass density, kg/m³. -/
def density : Dimension := { meter := -3, kilogram := 1 }

/-- Thermal conductivity, W/(m·K). -/
def conductivity : Dimension := { meter := 1, kilogram := 1, second := -3, kelvin := -1 }

/-- Specific heat capacity, J/(kg·K). -/
def specificHeat : Dimension := { meter := 2, second := -2, kelvin := -1 }

/-- Specific energy, such as an enthalpy or a latent heat, J/kg. -/
def specificEnergy : Dimension := { meter := 2, second := -2 }

/-- Acceleration, m/s². -/
def acceleration : Dimension := { meter := 1, second := -2 }

/-- Thermal diffusivity, m²/s. -/
def diffusivity : Dimension := { meter := 2, second := -1 }

end Dimension

namespace Year

variable {α : Type} [Mul α] [Div α] [OfScientific α]

/-- Seconds in a year of 365 days. -/
def seconds : α := 31536000.0

/-- A time given in years, in seconds. -/
def toSeconds (years : α) : α := years * seconds

/-- A time given in seconds, in years. -/
def ofSeconds (s : α) : α := s / seconds

end Year

/-- The difference `a - b` of two thermodynamic temperatures, in kelvin. -/
def temperatureDifference {α : Type} [Sub α] (a b : α) : α :=
  a - b

end IceEnthalpy
