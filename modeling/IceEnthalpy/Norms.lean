import IceEnthalpy.Sign

/-!
# Error norms between two profiles

The distance between a computed and an exact profile is summarised by the largest and the mean
absolute difference over the levels.  Profiles of different lengths, empty profiles, and a
difference that is not finite are refused, in that order; the last names the first level where
it occurs.  The differences are summed from the first level up.
-/

namespace IceEnthalpy

/-- Why two profiles have no error norms. -/
inductive NormsError where
  /-- The profiles have different lengths. -/
  | lengthMismatch (computed exact : Nat)
  /-- Both profiles are empty. -/
  | empty
  /-- The difference at this level is not finite. -/
  | nonFinite (index : Nat)
  deriving Repr, DecidableEq

/-- The largest and the mean absolute difference between two profiles. -/
structure Norms (α : Type) where
  /-- `max_i |c_i - e_i|`. -/
  maxError : α
  /-- `(Σ_i |c_i - e_i|) / n`. -/
  avgError : α
  deriving Repr

namespace Norms

variable {α : Type} [Scalar α]

/-- The running maximum and sum of the absolute differences from level `index` on. -/
def accumulate : (index : Nat) → (largest sum : α) → List (α × α) → Except NormsError (α × α)
  | _, largest, sum, [] => .ok (largest, sum)
  | index, largest, sum, (c, e) :: rest =>
    let d := Scalar.abs (c - e)
    if !Scalar.isFinite d then .error (.nonFinite index)
    else accumulate (index + 1) (if largest < d then d else largest) (sum + d) rest

/-- The error norms of a computed profile against an exact one. -/
def compute (computed exact : Array α) : Except NormsError (Norms α) := do
  if computed.size ≠ exact.size then throw (.lengthMismatch computed.size exact.size)
  if computed.size = 0 then throw .empty
  let (largest, sum) ← accumulate 0 0.0 0.0 (computed.toList.zip exact.toList)
  return ⟨largest, sum / Scalar.ofNat computed.size⟩

theorem compute_of_size_ne {computed exact : Array α} (h : computed.size ≠ exact.size) :
    compute computed exact = .error (.lengthMismatch computed.size exact.size) := by
  simp [compute, h, bind, Except.bind, throw, throwThe, MonadExceptOf.throw]

theorem compute_empty : compute (#[] : Array α) #[] = .error .empty := by
  simp [compute, bind, Except.bind, throw, throwThe, MonadExceptOf.throw]

end Norms

namespace NormsError

/-- The constructor name of a norms failure. -/
def name : NormsError → String
  | .lengthMismatch _ _ => "LengthMismatch"
  | .empty => "Empty"
  | .nonFinite _ => "NonFinite"

/-- What a norms failure says. -/
def message : NormsError → String
  | .lengthMismatch c e =>
    "computed profile has " ++ toString c ++ " values but exact profile has " ++ toString e
  | .empty => "profiles are empty"
  | .nonFinite i => "non-finite difference at level " ++ toString i

instance : Failure NormsError where
  family := "MetricsError"
  path e := [e.name]
  message := message
  causes _ := []

end NormsError

end IceEnthalpy
