import IceEnthalpy.Decimal.Rounded

/-!
# Written forms of a float

A `Style` fixes how a float is written: the layout (shortest digits, positional within a
range of exponents and scientific outside it; or a fixed number of places; or a fixed number of
significant digits), and the words for the values that are not finite.  A negative sign bit is
always written, so a negative zero is `-0`.

Scientific layout writes one digit before the point and the power of ten after an `e`, with
a minus sign when it is negative and no sign or padding otherwise: `1e16`, `1.5e-7`,
`1.2340e-5`.
-/

namespace IceEnthalpy
namespace Decimal

/-- Where the digits of a written float come from and how they are laid out. -/
inductive Layout where
  /-- Shortest digits; positional when the leading digit's exponent `e` satisfies
  `from ≤ e < below` (a missing bound never excludes), scientific otherwise.  Positional text
  has at least `minFraction` digits after the point, and no point when that is zero and the
  value is integral. -/
  | shortest (positionalFrom positionalBelow : Option Int) (minFraction : Nat)
  /-- Positional with exactly `places` digits after the point. -/
  | fixed (places : Nat)
  /-- Scientific with exactly `places` digits after the point. -/
  | scientific (places : Nat)
  deriving Repr, DecidableEq

/-- A layout together with the words for NaN and infinity. -/
structure Style where
  /-- How finite values are written. -/
  layout : Layout
  /-- The text of a NaN. -/
  nan : String
  /-- The text of a positive infinity; a negative one has a minus sign before it. -/
  infinity : String
  deriving Repr, DecidableEq

/-- `count` zero characters. -/
def zeros (count : Nat) : String :=
  String.ofList (List.replicate count '0')

/-- Positional text of `mantissa · 10^exponent` with at least `minFraction` places. -/
def positional (d : Digits) (minFraction : Nat) : String :=
  let s := toString d.mantissa
  if 0 ≤ d.exponent then
    let whole := s ++ zeros d.exponent.toNat
    if minFraction = 0 then whole else whole ++ "." ++ zeros minFraction
  else
    let places := (-d.exponent).toNat
    let padded := zeros (places + 1 - s.length) ++ s
    let cut := padded.length - places
    let fraction := String.ofList (padded.toList.drop cut)
    String.ofList (padded.toList.take cut) ++ "." ++ fraction ++ zeros (minFraction - places)

/-- Scientific text of `mantissa · 10^exponent`: the leading digit, the others after a point,
and the leading digit's power of ten. -/
def scientific (d : Digits) : String :=
  let s := (toString d.mantissa).toList
  let rest := s.drop 1
  let lead := d.exponent + (s.length : Int) - 1
  String.ofList (s.take 1) ++ (if rest.isEmpty then "" else "." ++ String.ofList rest) ++
    "e" ++ toString lead

/-- Whether the leading exponent lies in the positional range. -/
def inRange (positionalFrom positionalBelow : Option Int) (e : Int) : Bool :=
  (positionalFrom.all (· ≤ e)) && (positionalBelow.all (e < ·))

/-- The text of a finite non-negative value `m · 2^q` in a layout. -/
def Layout.finite : Layout → Nat → Int → String
  | .shortest lo hi minFraction, m, q =>
    if m = 0 then positional ⟨0, 0⟩ minFraction
    else
      let d := Decimal.shortest m q
      if inRange lo hi d.leadingExponent then positional d minFraction else Decimal.scientific d
  | .fixed places, m, q =>
    positional ⟨fixedAt m q places, -(places : Int)⟩ 0
  | .scientific places, m, q =>
    if m = 0 then "0" ++ (if places = 0 then "" else "." ++ zeros places) ++ "e0"
    else
      let d := significantAt m q places
      let s := (toString d.mantissa).toList
      let rest := s.drop 1
      String.ofList (s.take 1) ++ (if places = 0 then "" else "." ++ String.ofList rest) ++
        "e" ++ toString (d.exponent + places)

/-- The text of an exactly read float in a style. -/
def Style.write (style : Style) : Binary64 → String
  | .nan => style.nan
  | .infinite negative => (if negative then "-" else "") ++ style.infinity
  | .finite negative m q => (if negative then "-" else "") ++ style.layout.finite m q

/-- The text of a float in a style. -/
def Style.show (style : Style) (x : Float) : String :=
  style.write (Binary64.ofFloat x)

/-- The shortest digits that read back, with a point or an exponent always present so that a
reader tells the value from an integer: positional for leading exponents from -4 to 15. -/
def Style.roundTrip : Style :=
  ⟨.shortest (some (-4)) (some 16) 1, "NaN", "inf"⟩

/-- Right-aligns a text in a field of `width` characters. -/
def padLeft (width : Nat) (s : String) : String :=
  String.ofList (List.replicate (width - s.length) ' ') ++ s

end Decimal
end IceEnthalpy
