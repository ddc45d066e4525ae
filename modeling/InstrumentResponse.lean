import InstrumentResponse.FileSearch
import InstrumentResponse.Main
import InstrumentResponse.Proofs.Chain.Acceptance
import InstrumentResponse.Proofs.Record.Accounting
import InstrumentResponse.Proofs.Record.RoundTrip
import InstrumentResponse.Proofs.Chain.CanonicalForm
import InstrumentResponse.Proofs.Chain.Rechecking
import InstrumentResponse.Proofs.Chain.Renormalizing
import InstrumentResponse.Proofs.Chain.Reevaluating
import InstrumentResponse.Proofs.Record.Selecting
import InstrumentResponse.Proofs.Chain.OutOfRange
import InstrumentResponse.Proofs.Chain.MovedGains
import InstrumentResponse.Proofs.Chain.Outcome
import InstrumentResponse.Proofs.Chain.AdjacentRanges
import InstrumentResponse.Proofs.Record.Undecoded
import InstrumentResponse.Proofs.Chain.UndecodedUnits
import InstrumentResponse.Proofs.Interpolation.Knots
import InstrumentResponse.Proofs.Interpolation.OwnFrequencies
import InstrumentResponse.Proofs.CommandLine.Sinks
import InstrumentResponse.Proofs.Record.RecordTexts
import InstrumentResponse.Proofs.Interpolation.NaturalSpline
import InstrumentResponse.Proofs.Interpolation.StraightLines
import InstrumentResponse.Proofs.Interpolation.Unwinding
import InstrumentResponse.Proofs.Scalar.Grid
import InstrumentResponse.Proofs.Scalar.Rounding
import InstrumentResponse.Proofs.Scalar.Double
import InstrumentResponse.Proofs.Interpolation.RoundedTurns
import InstrumentResponse.Proofs.Interpolation.RoundedUnwinding
import InstrumentResponse.Proofs.Chain.Continuations
import InstrumentResponse.Proofs.Chain.FailedCheck
import InstrumentResponse.Proofs.Chain.Touched
import InstrumentResponse.Proofs.Scalar.Kinds
import InstrumentResponse.Proofs.Chain.NotANumber
import InstrumentResponse.Proofs.Record.Grouping
import InstrumentResponse.Proofs.Record.CountedTables
import InstrumentResponse.Proofs.Record.Prefixes
import InstrumentResponse.Proofs.Record.StageOrder
import InstrumentResponse.Proofs.Chain.DcGain
import InstrumentResponse.Proofs.Chain.StoredTaps
import InstrumentResponse.Proofs.Scalar.Polar
import InstrumentResponse.Proofs.Transfer.LinearPhase
import InstrumentResponse.Proofs.Interpolation.Answers
import InstrumentResponse.Proofs.Selection.Globs
import InstrumentResponse.Proofs.Units.Symbols
import InstrumentResponse.Proofs.Transfer.Conversion
import InstrumentResponse.Proofs.Selection.TwoDirectories
import InstrumentResponse.Proofs.Selection.FileNames
import InstrumentResponse.Proofs.Transfer.AngularRoots
import InstrumentResponse.Proofs.Scalar.Bits
import InstrumentResponse.Proofs.Scalar.Signs
import InstrumentResponse.Proofs.Frequencies.Grids
import InstrumentResponse.Proofs.Decimal.DigitTexts
import InstrumentResponse.Proofs.Calendar.EpochTexts
import InstrumentResponse.Proofs.Decimal.SignificantDigits
import InstrumentResponse.Proofs.Decimal.TableNumbers
