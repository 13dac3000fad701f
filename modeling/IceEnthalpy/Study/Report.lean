import IceEnthalpy.Study.Order

/-!
# The text of a convergence study

A study is reported as a table: a title line, a header, one line per sample with the
parameter to five significant digits and the two errors to seven, and the two fitted slopes to
four places:

```text
time convergence over 10 samples (dt in years)
          dt      max error      avg error
    1.0000e0     5.281147e0     3.354871e0
max: dt^0.9315
avg: dt^0.9315
```

The parameter column is twelve characters wide and the error columns fourteen, right-aligned.
Scientific numbers write their exponent without sign or padding; all rounding is to the
nearest decimal, a tie going to the even digit.  The last line ends without a newline.
-/

namespace IceEnthalpy

namespace Convergence

/-- Parameters: scientific with four places. -/
def parameterStyle : Decimal.Style := ⟨.scientific 4, "NaN", "inf"⟩

/-- Errors: scientific with six places. -/
def errorStyle : Decimal.Style := ⟨.scientific 6, "NaN", "inf"⟩

/-- Slopes: four places after the point. -/
def slopeStyle : Decimal.Style := ⟨.fixed 4, "NaN", "inf"⟩

/-- The table of a study. -/
def report (c : Convergence Float) : String :=
  let symbol := c.kind.symbol
  let title := c.kind.name ++ " convergence over " ++ toString c.samples.length ++ " samples (" ++
    symbol ++ " in " ++ c.kind.unit ++ ")"
  let header := Decimal.padLeft 12 symbol ++ " " ++ Decimal.padLeft 14 "max error" ++ " " ++
    Decimal.padLeft 14 "avg error"
  let rows := c.samples.map fun s =>
    Decimal.padLeft 12 (parameterStyle.show s.parameter) ++ " " ++
      Decimal.padLeft 14 (errorStyle.show s.maxError) ++ " " ++
      Decimal.padLeft 14 (errorStyle.show s.avgError)
  let laws := ["max: " ++ symbol ++ "^" ++ slopeStyle.show c.max.slope,
    "avg: " ++ symbol ++ "^" ++ slopeStyle.show c.avg.slope]
  "\n".intercalate ([title, header] ++ rows ++ laws)

end Convergence

end IceEnthalpy
