import Clausal.Complaint
import Clausal.Demo
import Clausal.Main
import Clausal.Session
import Clausal.Proofs.Valuation
import Clausal.Proofs.Fixing
import Clausal.Proofs.Polarities
import Clausal.Proofs.Simplification
import Clausal.Proofs.Tautologies
import Clausal.Proofs.Verdicts
import Clausal.Proofs.Answers
import Clausal.Proofs.Depth
import Clausal.Proofs.TruthTable
import Clausal.Proofs.Completion
import Clausal.Proofs.Counters
import Clausal.Proofs.Cutoff
import Clausal.Proofs.Renaming
import Clausal.Proofs.Equivariance
import Clausal.Proofs.Bookkeeping
import Clausal.Proofs.Noninterference
import Clausal.Proofs.Encoding
import Clausal.Proofs.Readers
import Clausal.Proofs.Printing
import Clausal.Proofs.Arguments
import Clausal.Proofs.Calls
import Clausal.Proofs.Substitution
import Clausal.Proofs.PureLiterals
import Clausal.Proofs.Sources
import Clausal.Proofs.Endings
import Clausal.Proofs.Directories
import Clausal.Proofs.BothSigns
import Clausal.Proofs.CheckedAnswers
import Clausal.Proofs.Pigeonhole
import Clausal.Proofs.ProperColorings
import Clausal.Proofs.Words
import Clausal.Proofs.Numerals
import Clausal.Proofs.ClauseLines
import Clausal.Proofs.Layout
import Clausal.Proofs.Decoding
import Clausal.Proofs.VertexNumbers
import Clausal.Proofs.LeastModels
import Clausal.Proofs.Traces
import Clausal.Proofs.PrintedFormulas
import Clausal.Proofs.Draws
import Clausal.Proofs.Evaluation
import Clausal.Proofs.FixedVariables
import Clausal.Proofs.PolarityPasses
import Clausal.Proofs.ConsistentSigns
import Clausal.Proofs.DeadExits
import Clausal.Proofs.RandomFormulas
