import IceEnthalpy.Scalar
import IceEnthalpy.Failure

/-!
# Sign requirements

Time steps, durations, heights and material constants carry sign requirements.  A number is
checked by comparing it with zero: greater, equal (a negative zero is equal), less, or none of
these for a NaN.  `requirePositive` accepts exactly the numbers greater than zero and
`requireNonNegative` those greater than or equal to it; the value that passes comes back with
the proof of its sign.
-/

namespace IceEnthalpy

/-- Why a number fails a sign requirement. -/
inductive SignError where
  /-- It is below zero. -/
  | negative
  /-- It is zero, of either sign. -/
  | zero
  /-- It is not a number. -/
  | notANumber
  deriving Repr, DecidableEq

section Requirements

variable {α : Type} [Scalar α]

/-- A number greater than zero. -/
abbrev Positive (α : Type) [Scalar α] := { x : α // (0.0 : α) < x }

/-- A number greater than or equal to zero. -/
abbrev NonNegative (α : Type) [Scalar α] := { x : α // (0.0 : α) ≤ x }

/-- Accepts a number greater than zero. -/
def requirePositive (x : α) : Except SignError (Positive α) :=
  if h : (0.0 : α) < x then .ok ⟨x, h⟩
  else if x == 0.0 then .error .zero
  else if x < 0.0 then .error .negative
  else .error .notANumber

/-- Accepts a number greater than or equal to zero. -/
def requireNonNegative (x : α) : Except SignError (NonNegative α) :=
  if h : (0.0 : α) ≤ x then .ok ⟨x, h⟩
  else if x < 0.0 then .error .negative
  else .error .notANumber

/-- Whether a number is greater than zero. -/
def isPositive (x : α) : Bool :=
  decide ((0.0 : α) < x)

/-- Whether a number is greater than or equal to zero. -/
def isNonNegative (x : α) : Bool :=
  decide ((0.0 : α) ≤ x)

theorem requirePositive_of_pos {x : α} (h : (0.0 : α) < x) :
    requirePositive x = .ok ⟨x, h⟩ := by
  simp [requirePositive, h]

theorem requireNonNegative_of_nonneg {x : α} (h : (0.0 : α) ≤ x) :
    requireNonNegative x = .ok ⟨x, h⟩ := by
  simp [requireNonNegative, h]

theorem val_of_requirePositive {x : α} {p : Positive α} (h : requirePositive x = .ok p) :
    p.val = x := by
  unfold requirePositive at h
  split at h
  · cases h
    rfl
  · split at h
    · cases h
    · split at h <;> cases h

theorem val_of_requireNonNegative {x : α} {p : NonNegative α}
    (h : requireNonNegative x = .ok p) : p.val = x := by
  unfold requireNonNegative at h
  split at h
  · cases h
    rfl
  · split at h <;> cases h

end Requirements

namespace SignError

/-- The constructor name of a sign failure. -/
def name : SignError → String
  | .negative => "Negative"
  | .zero => "Zero"
  | .notANumber => "NotANumber"

/-- What a sign failure says. -/
def message : SignError → String
  | .negative => "value must not be negative"
  | .zero => "value must not be zero"
  | .notANumber => "value is not a number"

instance : Failure SignError where
  family := "ConstraintError"
  path e := [e.name]
  message := message
  causes _ := []

end SignError

end IceEnthalpy
