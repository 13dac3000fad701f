import IceEnthalpy.Analytic
import IceEnthalpy.Column.Basic
import IceEnthalpy.Column.Grid
import IceEnthalpy.Decimal.Binary64
import IceEnthalpy.Decimal.Rounded
import IceEnthalpy.Decimal.Shortest
import IceEnthalpy.Decimal.Style
import IceEnthalpy.Failure
import IceEnthalpy.Ice.Enthalpy
import IceEnthalpy.Ice.Properties
import IceEnthalpy.Norms
import IceEnthalpy.Proofs.Analytic
import IceEnthalpy.Proofs.Basic
import IceEnthalpy.Proofs.Column
import IceEnthalpy.Proofs.Conservation
import IceEnthalpy.Proofs.Contraction
import IceEnthalpy.Proofs.Conduction
import IceEnthalpy.Proofs.DiscreteMode
import IceEnthalpy.Proofs.Enthalpy
import IceEnthalpy.Proofs.ErrorBound
import IceEnthalpy.Proofs.Failures
import IceEnthalpy.Proofs.Interpolation
import IceEnthalpy.Proofs.LeastSquares
import IceEnthalpy.Proofs.Loop
import IceEnthalpy.Proofs.Norms
import IceEnthalpy.Proofs.Pivots
import IceEnthalpy.Proofs.Reflection
import IceEnthalpy.Proofs.Refinement
import IceEnthalpy.Proofs.Registers
import IceEnthalpy.Proofs.Run
import IceEnthalpy.Proofs.Setup
import IceEnthalpy.Proofs.Stability
import IceEnthalpy.Proofs.SteadyLine
import IceEnthalpy.Proofs.StepCycle
import IceEnthalpy.Proofs.Study
import IceEnthalpy.Proofs.ThetaStep
import IceEnthalpy.Proofs.Tridiagonal
import IceEnthalpy.Proofs.Verification
import IceEnthalpy.Quantity
import IceEnthalpy.Run
import IceEnthalpy.Scalar
import IceEnthalpy.Scenario.Basic
import IceEnthalpy.Scenario.Run
import IceEnthalpy.Scenario.Setup
import IceEnthalpy.Sign
import IceEnthalpy.Solver.Boundary
import IceEnthalpy.Solver.Conduction
import IceEnthalpy.Solver.Error
import IceEnthalpy.Solver.Interpolation
import IceEnthalpy.Solver.Recorder
import IceEnthalpy.Solver.Stepper
import IceEnthalpy.Solver.Tridiagonal
import IceEnthalpy.Study.Convergence
import IceEnthalpy.Study.Fit
import IceEnthalpy.Study.Order
import IceEnthalpy.Study.Report
import IceEnthalpy.Study.Sweep
