import IceEnthalpy.Sign

/-!
# Power-law fits

An error that behaves like `C·pᵠ` in a parameter `p` lies on a line in log–log coordinates.
The fit takes `x = log₁₀ p` and `y = log₁₀ e`, and finds the least-squares line by ordinary
least squares: with the means `x̄ = Σx/n` and `ȳ = Σy/n`, the slope is
`Σ(x - x̄)(y - ȳ) / Σ(x - x̄)²` and the intercept `ȳ - slope·x̄`; sums run from the first point.

A fit refuses lists of different lengths, fewer than two points, a parameter and then an error
that is not positive and finite (the first one), all log-parameters equal, and then all
log-errors equal, in that order.
-/

namespace IceEnthalpy

/-- Why a power law cannot be fitted. -/
inductive FitError (α : Type) where
  /-- There are fewer than two points. -/
  | tooFewPoints (count : Nat)
  /-- The parameters and errors differ in number. -/
  | lengthMismatch (parameters errors : Nat)
  /-- A parameter is not positive and finite. -/
  | invalidParameter (index : Nat) (value : α)
  /-- An error is not positive and finite. -/
  | invalidError (index : Nat) (value : α)
  /-- All parameters are equal. -/
  | degenerateParameters
  /-- All errors are equal. -/
  | constantError
  deriving Repr

/-- The line `log₁₀ e = slope·log₁₀ p + intercept`. -/
structure PowerLaw (α : Type) where
  /-- The exponent of the parameter. -/
  slope : α
  /-- The base-ten logarithm of the factor. -/
  intercept : α
  deriving Repr

namespace PowerLaw

variable {α : Type} [Scalar α]

/-- The law at a parameter: `10^intercept · p^slope`. -/
def evaluate (law : PowerLaw α) (p : α) : α :=
  Scalar.pow 10.0 law.intercept * Scalar.pow p law.slope

/-- The logarithms of positive finite values, or the first value that is not one. -/
def logs (values : List α) : Except (Nat × α) (List α) :=
  values.zipIdx.mapM fun (v, i) =>
    if (0.0 : α) < v && Scalar.isFinite v then .ok (Scalar.log10 v) else .error (i, v)

/-- The sum of a list, from the first entry. -/
def total (xs : List α) : α :=
  xs.foldl (· + ·) 0.0

/-- Whether all entries equal the first. -/
def allEqual (xs : List α) : Bool :=
  match xs with
  | [] => true
  | x :: rest => rest.all (· == x)

/-- The least-squares power law through the points `(parameters[i], errors[i])`. -/
def fit (parameters errors : List α) : Except (FitError α) (PowerLaw α) := do
  if parameters.length ≠ errors.length then
    throw (.lengthMismatch parameters.length errors.length)
  if parameters.length < 2 then throw (.tooFewPoints parameters.length)
  let x ← (logs parameters).mapError fun (i, v) => FitError.invalidParameter i v
  let y ← (logs errors).mapError fun (i, v) => FitError.invalidError i v
  if allEqual x then throw .degenerateParameters
  if allEqual y then throw .constantError
  let n : α := Scalar.ofNat x.length
  let xMean := total x / n
  let yMean := total y / n
  let (sxx, sxy) := (x.zip y).foldl
    (fun (sxx, sxy) (xi, yi) =>
      let dx := xi - xMean
      (sxx + dx * dx, sxy + dx * (yi - yMean)))
    ((0.0 : α), (0.0 : α))
  let slope := sxy / sxx
  return ⟨slope, yMean - slope * xMean⟩

end PowerLaw

namespace FitError

/-- The constructor name of a fit failure. -/
def name {α : Type} : FitError α → String
  | .tooFewPoints _ => "TooFewPoints"
  | .lengthMismatch _ _ => "LengthMismatch"
  | .invalidParameter _ _ => "InvalidParameter"
  | .invalidError _ _ => "InvalidError"
  | .degenerateParameters => "DegenerateParameters"
  | .constantError => "ConstantError"

/-- What a fit failure says. -/
def message : FitError Float → String
  | .tooFewPoints n => "a fit needs at least 2 points, got " ++ toString n
  | .lengthMismatch p e => toString p ++ " parameters but " ++ toString e ++ " errors"
  | .invalidParameter i v =>
    "parameter " ++ Message.number v ++ " at index " ++ toString i ++ " is not positive and finite"
  | .invalidError i v =>
    "error " ++ Message.number v ++ " at index " ++ toString i ++ " is not positive and finite"
  | .degenerateParameters => "all parameters are equal"
  | .constantError => "all errors are equal"

instance : Failure (FitError Float) where
  family := "FitError"
  path e := [e.name]
  message := message
  causes _ := []

end FitError

end IceEnthalpy
