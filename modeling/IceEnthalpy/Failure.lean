import IceEnthalpy.Decimal.Style
import IceEnthalpy.Quantity

/-!
# Failures and their reports

Every error of the library is a value of an inductive type of its own, one constructor per
cause.  A `Failure` instance says how such a value is reported: the name of its family and the
path of constructor names that leads to it (an error that wraps another adds its own name in
front of the inner path), the message, and the messages of the chain of underlying causes,
nearest first.

Messages write plain numbers with the shortest digits that read back, always positionally and
without a point when the value is integral; they write quantities with at least one place,
scientifically when the leading digit's power of ten is below -4 or at least 16, followed by
the units.
-/

namespace IceEnthalpy

/-- How an error is reported. -/
class Failure (ε : Type) where
  /-- The name of the family of errors. -/
  family : String
  /-- The constructor names leading to this error, outermost first. -/
  path : ε → List String
  /-- What the error says. -/
  message : ε → String
  /-- What the underlying causes say, nearest first. -/
  causes : ε → List String

namespace Failure

/-- The family name followed by the constructor path, joined by dots. -/
def kind {ε : Type} [Failure ε] (e : ε) : String :=
  ".".intercalate (family ε :: path e)

/-- The full path of a wrapped error, its family name included. -/
def fullPath {ε : Type} [Failure ε] (e : ε) : List String :=
  family ε :: path e

/-- The messages of an error and of all its causes. -/
def chain {ε : Type} [Failure ε] (e : ε) : List String :=
  message e :: causes e

end Failure

namespace Message

/-- Plain numbers: shortest digits, positional, integral values without a point. -/
def plainStyle : Decimal.Style := ⟨.shortest none none 0, "NaN", "inf"⟩

/-- Quantities: shortest digits with at least one place, positional for leading exponents
from -4 to 15 and scientific otherwise. -/
def quantityStyle : Decimal.Style := ⟨.shortest (some (-4)) (some 16) 1, "NaN", "inf"⟩

/-- A plain number in a message. -/
def number (x : Float) : String :=
  plainStyle.show x

/-- A quantity in a message: its value in SI base units, then the units. -/
def quantity (d : Dimension) (x : Float) : String :=
  quantityStyle.show x ++ d.units

end Message

end IceEnthalpy
