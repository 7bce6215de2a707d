import PolicyExpr.Coverage.Condition
import PolicyExpr.Coverage.Document
import PolicyExpr.Import.Document
import PolicyExpr.Proofs.Calling
import PolicyExpr.Proofs.Cleanness
import PolicyExpr.Proofs.Exactness
import PolicyExpr.Proofs.Folding
import PolicyExpr.Proofs.Instrumentation
import PolicyExpr.Proofs.Locating
import PolicyExpr.Proofs.NonInterference
import PolicyExpr.Proofs.NumberTexts
import PolicyExpr.Proofs.Numerals
import PolicyExpr.Proofs.PlainNotation
import PolicyExpr.Proofs.Precision
import PolicyExpr.Proofs.RoundTrip
import PolicyExpr.Proofs.Rounding
import PolicyExpr.Proofs.Sameness
import PolicyExpr.Proofs.Slicing
import PolicyExpr.Proofs.StepLineage
import PolicyExpr.Proofs.Textless
import PolicyExpr.Proofs.TimingIndependence
import PolicyExpr.Proofs.TreeDocument
import PolicyExpr.Proofs.Waking
import PolicyExpr.Stream.Source
import PolicyExpr.Proofs.Tallying
import PolicyExpr.Proofs.Absorption
import PolicyExpr.Proofs.FramedPatterns
import PolicyExpr.Proofs.Matching
import PolicyExpr.Proofs.Undefinedness
import PolicyExpr.Proofs.WholeMatch
import PolicyExpr.Proofs.Extremum
import PolicyExpr.Proofs.Merging
import PolicyExpr.Proofs.Mirroring
import PolicyExpr.Proofs.Answering
