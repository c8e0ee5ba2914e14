import LoxNative.Main
import LoxNative.Proofs.ProgramText
import LoxNative.Proofs.StraightLine
import LoxNative.Proofs.Evaluation
import LoxNative.Proofs.LoweredCode
import LoxNative.Proofs.StackEvaluation
import LoxNative.Proofs.CompilerCorrectness
import LoxNative.Proofs.Optimization
import LoxNative.Proofs.Grammar
import LoxNative.Proofs.Fetching
import LoxNative.Proofs.StepOutcome
import LoxNative.Proofs.MemorySafety
import LoxNative.Proofs.Termination
import LoxNative.Proofs.Identifier
import LoxNative.Proofs.LabelReference
import LoxNative.Proofs.LabelPlacement
import LoxNative.Proofs.AddressText
import LoxNative.Proofs.ProgramRoundTrip
import LoxNative.Proofs.ErrorPosition
import LoxNative.Proofs.CompileDiagnostics
import LoxNative.Proofs.ReusedMachine
import LoxNative.Proofs.StackBalance
import LoxNative.Proofs.ObjectFormat
import LoxNative.Proofs.TextBytes
import LoxNative.Proofs.BuiltExecutable
import LoxNative.Proofs.ScanAgreement
import LoxNative.Proofs.LongestMatch
import LoxNative.Proofs.FirstDefect
import LoxNative.Proofs.ExactFlags
import LoxNative.Proofs.PreciseFaults
import LoxNative.Proofs.ProductAndQuotient
import LoxNative.Proofs.QuadwordBounds
import LoxNative.Proofs.CodeIntegrity
import LoxNative.Proofs.LoadableImage
import LoxNative.Proofs.SourceMap
import LoxNative.Proofs.ListingAgreement
import LoxNative.Proofs.LayoutIndependence
import LoxNative.Proofs.Rescanning
import LoxNative.Proofs.Parentheses
import LoxNative.Proofs.PrintedTrees
import LoxNative.Proofs.OperationChange
