import NumericalMethods.Config
import NumericalMethods.Config.Document
import NumericalMethods.DataSet
import NumericalMethods.Decimal.Dyadic
import NumericalMethods.Decimal.Layout
import NumericalMethods.Decimal.Reader
import NumericalMethods.Decimal.Shortest
import NumericalMethods.Engine
import NumericalMethods.Error
import NumericalMethods.Error.Message
import NumericalMethods.Function
import NumericalMethods.Function.Family
import NumericalMethods.InitialValue
import NumericalMethods.InitialValue.Basic
import NumericalMethods.InitialValue.Milne
import NumericalMethods.InitialValue.OneStep
import NumericalMethods.InitialValue.Trace
import NumericalMethods.Interpolation
import NumericalMethods.Interpolation.Differences
import NumericalMethods.Interpolation.Formula
import NumericalMethods.Interpolation.Nodes
import NumericalMethods.Interpolation.Polynomial
import NumericalMethods.Iteration
import NumericalMethods.Json
import NumericalMethods.LeastSquares
import NumericalMethods.LeastSquares.Formula
import NumericalMethods.LeastSquares.Model
import NumericalMethods.LeastSquares.Polynomial
import NumericalMethods.LeastSquares.Statistics
import NumericalMethods.LinearSystem.Basic
import NumericalMethods.LinearSystem.Document
import NumericalMethods.LinearSystem.Elimination
import NumericalMethods.LinearSystem.Grid
import NumericalMethods.LinearSystem.Jacobi
import NumericalMethods.LogLevel
import NumericalMethods.Machine
import NumericalMethods.PlaneNewton
import NumericalMethods.Proofs.Aborts
import NumericalMethods.Proofs.Binary64.Arithmetic
import NumericalMethods.Proofs.Binary64.ErrorBounds
import NumericalMethods.Proofs.Binary64.Finite
import NumericalMethods.Proofs.Binary64.Infinite
import NumericalMethods.Proofs.Binary64.Largest
import NumericalMethods.Proofs.Binary64.Magnitudes
import NumericalMethods.Proofs.Binary64.Midpoint
import NumericalMethods.Proofs.Binary64.Nearest
import NumericalMethods.Proofs.Binary64.Order
import NumericalMethods.Proofs.Binary64.Packing
import NumericalMethods.Proofs.Binary64.PowersOfTwo
import NumericalMethods.Proofs.Binary64.Rounding
import NumericalMethods.Proofs.Binary64.RoundingInterval
import NumericalMethods.Proofs.Binary64.Scaling
import NumericalMethods.Proofs.Binary64.Scientific
import NumericalMethods.Proofs.Binary64.Signs
import NumericalMethods.Proofs.Binary64.Sorting
import NumericalMethods.Proofs.Binary64.SquareRoot
import NumericalMethods.Proofs.Binary64.Undefined
import NumericalMethods.Proofs.Binary64.Value
import NumericalMethods.Proofs.Binary64.Zero
import NumericalMethods.Proofs.ByIndex.Differences
import NumericalMethods.Proofs.ByIndex.Fits
import NumericalMethods.Proofs.ByIndex.Formula
import NumericalMethods.Proofs.ByIndex.Interpolation
import NumericalMethods.Proofs.ByIndex.Milne
import NumericalMethods.Proofs.ByIndex.Reading
import NumericalMethods.Proofs.ByIndex.Systems
import NumericalMethods.Proofs.Cap
import NumericalMethods.Proofs.Config.Document
import NumericalMethods.Proofs.Config.Validation
import NumericalMethods.Proofs.Contraction
import NumericalMethods.Proofs.Decimal.Digits
import NumericalMethods.Proofs.Decimal.ReadBack
import NumericalMethods.Proofs.Decimal.Shortest
import NumericalMethods.Proofs.Errors.Calls
import NumericalMethods.Proofs.Errors.Engine
import NumericalMethods.Proofs.Errors.InitialValue
import NumericalMethods.Proofs.Errors.Reported
import NumericalMethods.Proofs.Errors.Solvers
import NumericalMethods.Proofs.Exact.Basic
import NumericalMethods.Proofs.Exact.Rational
import NumericalMethods.Proofs.Exact.Real
import NumericalMethods.Proofs.Failure
import NumericalMethods.Proofs.InitialValue.Corrector
import NumericalMethods.Proofs.InitialValue.CorrectorContraction
import NumericalMethods.Proofs.InitialValue.ExactError
import NumericalMethods.Proofs.InitialValue.Grid
import NumericalMethods.Proofs.InitialValue.LinearGrowth
import NumericalMethods.Proofs.InitialValue.PolynomialSlope
import NumericalMethods.Proofs.InitialValue.Prefix
import NumericalMethods.Proofs.InitialValue.Refinement
import NumericalMethods.Proofs.InitialValue.RungeEstimate
import NumericalMethods.Proofs.InitialValue.Sequence
import NumericalMethods.Proofs.Interpolation.Agreement
import NumericalMethods.Proofs.Interpolation.BinomialDifferences
import NumericalMethods.Proofs.Interpolation.Differences
import NumericalMethods.Proofs.Interpolation.Forms
import NumericalMethods.Proofs.Interpolation.InPlace
import NumericalMethods.Proofs.Interpolation.NearestNodes
import NumericalMethods.Proofs.Interpolation.OrderOfData
import NumericalMethods.Proofs.Interpolation.SampledNodes
import NumericalMethods.Proofs.Interpolation.Selection
import NumericalMethods.Proofs.Iteration
import NumericalMethods.Proofs.LawfulSearch
import NumericalMethods.Proofs.LeastSquares.Basic
import NumericalMethods.Proofs.LeastSquares.BestFit
import NumericalMethods.Proofs.LeastSquares.Correlation
import NumericalMethods.Proofs.LeastSquares.Determination
import NumericalMethods.Proofs.LeastSquares.NormalEquations
import NumericalMethods.Proofs.LeastSquares.Optimality
import NumericalMethods.Proofs.LeastSquares.OrderOfData
import NumericalMethods.Proofs.LeastSquares.Recovery
import NumericalMethods.Proofs.LeastSquares.SignedZeros
import NumericalMethods.Proofs.LinearSystem.Basic
import NumericalMethods.Proofs.LinearSystem.Certificate
import NumericalMethods.Proofs.LinearSystem.Contraction
import NumericalMethods.Proofs.LinearSystem.Convergence
import NumericalMethods.Proofs.LinearSystem.Determinant
import NumericalMethods.Proofs.LinearSystem.Document.Checks
import NumericalMethods.Proofs.LinearSystem.Document.Parse
import NumericalMethods.Proofs.LinearSystem.Document.Reading
import NumericalMethods.Proofs.LinearSystem.Document.Rows
import NumericalMethods.Proofs.LinearSystem.Dominance
import NumericalMethods.Proofs.LinearSystem.DominantOrder
import NumericalMethods.Proofs.LinearSystem.Elimination
import NumericalMethods.Proofs.LinearSystem.OrderIndependence
import NumericalMethods.Proofs.LinearSystem.Permutation
import NumericalMethods.Proofs.LinearSystem.Reordering
import NumericalMethods.Proofs.LinearSystem.RowScaling
import NumericalMethods.Proofs.LinearSystem.ScaleInvariance
import NumericalMethods.Proofs.Outcome
import NumericalMethods.Proofs.PlaneNewton
import NumericalMethods.Proofs.Quadrature.Arguments
import NumericalMethods.Proofs.Quadrature.Counts
import NumericalMethods.Proofs.Quadrature.Doublings
import NumericalMethods.Proofs.Quadrature.Nodes
import NumericalMethods.Proofs.Quadrature.Panels
import NumericalMethods.Proofs.Quadrature.Pieces
import NumericalMethods.Proofs.Quadrature.Polynomial
import NumericalMethods.Proofs.Quadrature.Relations
import NumericalMethods.Proofs.Quadrature.RungeExact
import NumericalMethods.Proofs.Quadrature.SingularPoints
import NumericalMethods.Proofs.Quadrature.Tolerance
import NumericalMethods.Proofs.Quadrature.Trace
import NumericalMethods.Proofs.Registry.ClosedForms
import NumericalMethods.Proofs.RootFinding.ContractionWarning
import NumericalMethods.Proofs.RootFinding.ConvexTangents
import NumericalMethods.Proofs.RootFinding.HalfDivision
import NumericalMethods.Proofs.RootFinding.Relaxation
import NumericalMethods.Proofs.RootFinding.SignChange
import NumericalMethods.Proofs.Search
import NumericalMethods.Proofs.SearchSteps
import NumericalMethods.Proofs.Toml.Document
import NumericalMethods.Proofs.Toml.Plain
import NumericalMethods.Proofs.Toml.Quoted
import NumericalMethods.Proofs.Trace
import NumericalMethods.Proofs.Trace.SideBySide
import NumericalMethods.Quadrature
import NumericalMethods.Quadrature.Pieces
import NumericalMethods.Quadrature.Rule
import NumericalMethods.Record
import NumericalMethods.Registry.Equation
import NumericalMethods.Registry.Integrand
import NumericalMethods.Registry.Lookup
import NumericalMethods.Registry.Ode
import NumericalMethods.Registry.Sample
import NumericalMethods.Registry.System
import NumericalMethods.Response
import NumericalMethods.RootFinding
import NumericalMethods.RootFinding.Basic
import NumericalMethods.RootFinding.HalfDivision
import NumericalMethods.RootFinding.Newton
import NumericalMethods.RootFinding.Secant
import NumericalMethods.RootFinding.SimpleIteration
import NumericalMethods.Scalar
import NumericalMethods.Scalar.Binary64
import NumericalMethods.Showcase
import NumericalMethods.SolveResult
import NumericalMethods.Text.Blank
import NumericalMethods.Text.Boxed
import NumericalMethods.Text.Emoji
import NumericalMethods.Text.Emoji.Table
import NumericalMethods.Text.Ligature
import NumericalMethods.Text.Lowercase
import NumericalMethods.Text.Lowercase.Table
import NumericalMethods.Text.Ranges
import NumericalMethods.Text.Width
import NumericalMethods.Text.Width.Table
import NumericalMethods.Toml.Plain
import NumericalMethods.Toml.Quoted
import NumericalMethods.Toml.Reader
import NumericalMethods.Toml.Value
import NumericalMethods.Toml.Writer
import NumericalMethods.Trace
import NumericalMethods.Trace.Table
