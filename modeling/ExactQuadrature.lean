import ExactQuadrature.Main
import ExactQuadrature.Proofs.CoefficientLine
import ExactQuadrature.Proofs.Expression.Concatenation
import ExactQuadrature.Proofs.Expression.Misreading
import ExactQuadrature.Proofs.Expression.Partition
import ExactQuadrature.Proofs.Polynomial.ExactEvaluation
import ExactQuadrature.Proofs.Quadrature.Additivity
import ExactQuadrature.Proofs.Quadrature.Monotonicity
import ExactQuadrature.Proofs.Quadrature.StepCount
import ExactQuadrature.Proofs.Calculation.PlainForms
import ExactQuadrature.Proofs.Journal.Blocks
import ExactQuadrature.Proofs.NameSupply
import ExactQuadrature.Proofs.Settings.LastArgument
import ExactQuadrature.Proofs.Settings.Snapshots
import ExactQuadrature.Proofs.Program.Lines
import ExactQuadrature.Proofs.Program.Reporting
import ExactQuadrature.Proofs.Program.Verbosity
