import IceEnthalpy.Study.Sweep
import IceEnthalpy.Study.Fit
import IceEnthalpy.Norms

/-!
# Empirical order of convergence

A study runs one sample per point of a sweep, in the sweep's order, and fits `error ∝ pᵠ`
separately to the largest and to the mean error.  The run of a sample is supplied by the
caller and may have effects of its own, so it is a function into a monad.

The first sample that fails ends the study, and no later point is run; the failure keeps the
sample's index and parameter.  Otherwise the fit of the largest errors is made first, and its
failure is reported before that of the mean errors.
-/

namespace IceEnthalpy

/-- The errors of one sample of a study. -/
structure Sample (α : Type) where
  /-- The swept parameter. -/
  parameter : α
  /-- The largest error. -/
  maxError : α
  /-- The mean error. -/
  avgError : α
  deriving Repr

/-- The samples of a study and the power laws fitted to them. -/
structure Convergence (α : Type) where
  /-- What the sweep varied. -/
  kind : SweepKind
  /-- The samples, in sweep order. -/
  samples : List (Sample α)
  /-- The law of the largest errors. -/
  max : PowerLaw α
  /-- The law of the mean errors. -/
  avg : PowerLaw α
  deriving Repr

/-- Why a study failed: a sample's run, with its cause, or a fit. -/
inductive StudyError (ε α : Type) where
  /-- The run of the sample at this index failed. -/
  | sample (index : Nat) (parameter : α) (cause : ε)
  /-- A power law could not be fitted. -/
  | fit (cause : FitError α)
  deriving Repr

namespace Study

variable {m : Type → Type} [Monad m] {ε α : Type} [Scalar α]

/-- Runs the points from index `index` on, stopping at the first failure. -/
def collect (runSample : SamplePoint α → m (Except ε (Norms α))) :
    Nat → List (SamplePoint α) → m (Except (StudyError ε α) (List (Sample α)))
  | _, [] => pure (.ok [])
  | index, p :: rest => do
    match ← runSample p with
    | .error e => pure (.error (.sample index p.parameter e))
    | .ok n =>
      match ← collect runSample (index + 1) rest with
      | .ok samples => pure (.ok (⟨p.parameter, n.maxError, n.avgError⟩ :: samples))
      | .error e => pure (.error e)

/-- The power laws of a study's samples: the largest errors first, then the mean errors. -/
def fitSamples (kind : SweepKind) (samples : List (Sample α)) :
    Except (FitError α) (Convergence α) := do
  let parameters := samples.map (·.parameter)
  let max ← PowerLaw.fit parameters (samples.map (·.maxError))
  let avg ← PowerLaw.fit parameters (samples.map (·.avgError))
  return ⟨kind, samples, max, avg⟩

/-- Runs every point of a sweep and fits the power laws of the errors. -/
def estimateOrder (sweep : Sweep α) (runSample : SamplePoint α → m (Except ε (Norms α))) :
    m (Except (StudyError ε α) (Convergence α)) := do
  match ← collect runSample 0 sweep.points with
  | .error e => pure (.error e)
  | .ok samples => pure ((fitSamples sweep.kind samples).mapError .fit)

end Study

namespace StudyError

variable {ε : Type} [Failure ε]

/-- The constructor path of a study failure; a sample failure names its cause's family too. -/
def path : StudyError ε Float → List String
  | .sample _ _ e => "Sample" :: Failure.fullPath e
  | .fit e => "Fit" :: Failure.path e

/-- What a study failure says. -/
def message : StudyError ε Float → String
  | .sample index parameter _ =>
    "sample " ++ toString index ++ " (" ++ Message.number parameter ++ ") failed"
  | .fit _ => "power-law fit failed"

/-- The causes of a study failure. -/
def causes : StudyError ε Float → List String
  | .sample _ _ e => Failure.chain e
  | .fit e => Failure.chain e

instance : Failure (StudyError ε Float) where
  family := "StudyError"
  path := path
  message := message
  causes := causes

end StudyError

end IceEnthalpy
