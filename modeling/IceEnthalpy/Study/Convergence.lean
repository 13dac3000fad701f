import IceEnthalpy.Study.Order
import IceEnthalpy.Scenario.Run

/-!
# Convergence of verification runs

The convergence of a solver is the study whose samples are verification runs: each point of
the sweep becomes a scenario of the chosen regime (its times checked for sign) and is run with
solvers from the factory; the sample's errors are the run's error norms.
-/

namespace IceEnthalpy

namespace Study

variable {σ α : Type} [Scalar α] [Stepper σ α]

/-- The error norms of the verification run of one sweep point. -/
def verify (limit : Nat) (factory : Factory σ α) (v : Verification α) (regime : Regime)
    (p : SamplePoint α) : Except (ScenarioError α) (Norms α) := do
  let s ← (p.scenario regime).mapError .time
  let report ← Scenario.run limit factory v s
  return report.norms

/-- The convergence study of verification runs over a sweep. -/
def convergence (limit : Nat) (factory : Factory σ α) (v : Verification α) (regime : Regime)
    (sweep : Sweep α) : Except (StudyError (ScenarioError α) α) (Convergence α) :=
  Id.run (estimateOrder sweep fun p => pure (verify limit factory v regime p))

end Study

end IceEnthalpy
