import LinearSystems.Gauss.Workbench
import LinearSystems.Jacobi.Kernel
import LinearSystems.Magnitude
import LinearSystems.Tensor.Declared
import LinearSystems.Tridiagonal.Kernel
import LinearSystems.Workspace
import LinearSystems.Main
import LinearSystems.Console.Action
import LinearSystems.Proofs.Dense
import LinearSystems.Proofs.Gauss.Step
import LinearSystems.Proofs.Gauss.Rearranged
import LinearSystems.Proofs.Exact
import LinearSystems.Proofs.Upwards
import LinearSystems.Proofs.Gauss.Triangular
import LinearSystems.Proofs.Gauss.Soundness
import LinearSystems.Proofs.Tridiagonal.Step
import LinearSystems.Proofs.Tridiagonal.Elimination
import LinearSystems.Proofs.Double
import LinearSystems.Proofs.DoubleOrder
import LinearSystems.Proofs.Divisor
import LinearSystems.Proofs.Gauss.Divisor
import LinearSystems.Proofs.Tridiagonal.Divisor
import LinearSystems.Proofs.Jacobi.Divisor
import LinearSystems.Proofs.DivisorPromise
import LinearSystems.Proofs.Largest
import LinearSystems.Proofs.Jacobi.Iteration
import LinearSystems.Proofs.Jacobi.Search
import LinearSystems.Proofs.Jacobi.RowSum
import LinearSystems.Proofs.Jacobi.Contraction
import LinearSystems.Proofs.Gauss.Factorization
import LinearSystems.Proofs.Gauss.Minors
import LinearSystems.Proofs.Gauss.NearSingular
import LinearSystems.Proofs.Gauss.Coefficients
import LinearSystems.Proofs.Tensor.Check
import LinearSystems.Proofs.Tensor.Reading
import LinearSystems.Proofs.Systems
import LinearSystems.Proofs.Workspace.Residual
import LinearSystems.Proofs.Workspace.Exposed
import LinearSystems.Proofs.Workspace.Sound
import LinearSystems.Proofs.Workspace.Steps
import LinearSystems.Proofs.Workspace.Unaltered
import LinearSystems.Proofs.Jacobi.Request
import LinearSystems.Proofs.Jacobi.Refusals
import LinearSystems.Proofs.Jacobi.Advice
import LinearSystems.Proofs.Tensor.Rows
import LinearSystems.Proofs.Console.Endings
import LinearSystems.Proofs.Console.Limits
import LinearSystems.Proofs.Console.Delivery
import LinearSystems.Proofs.Tridiagonal.Residual
import LinearSystems.Proofs.Jacobi.Residual
import LinearSystems.Proofs.DoubleFinite
import LinearSystems.Proofs.Jacobi.Overflow
import LinearSystems.Proofs.Gauss.Dominance
import LinearSystems.Proofs.Tridiagonal.Dominance
import LinearSystems.Proofs.Dominance
import LinearSystems.Proofs.Gauss.PivotSearch
import LinearSystems.Proofs.Tensor.Ranges
import LinearSystems.Proofs.Gauss.Workbench
import LinearSystems.Proofs.Gauss.LargestPivot
import LinearSystems.Proofs.Gauss.EquationOrder
import LinearSystems.Proofs.Gauss.Growth
import LinearSystems.Proofs.Tensor.Entries
import LinearSystems.Proofs.Tridiagonal.Kernel
import LinearSystems.Proofs.Tridiagonal.Recurrence
import LinearSystems.Proofs.DoubleSign
import LinearSystems.Proofs.Jacobi.RowDominance
import LinearSystems.Proofs.Jacobi.Verdict
import LinearSystems.Proofs.Tridiagonal.Corners
import LinearSystems.Proofs.Tridiagonal.Matrix
import LinearSystems.Proofs.Jacobi.Relabelling
import LinearSystems.Proofs.Console.Rows
import LinearSystems.Proofs.Jacobi.Triangular
import LinearSystems.Proofs.DoubleRounding
import LinearSystems.Proofs.Tensor.Nesting
import LinearSystems.Proofs.Tensor.Conversion
import LinearSystems.Proofs.Gauss.Textbook
import LinearSystems.Proofs.Gauss.KeptRows
import LinearSystems.Proofs.DoubleValue
import LinearSystems.Proofs.Tensor.Entrywise
import LinearSystems.Proofs.Jacobi.Transform
import LinearSystems.Proofs.Stopwatch
