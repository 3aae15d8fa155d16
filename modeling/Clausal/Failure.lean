import Clausal.Decimal.Fixed
import Clausal.Decimal.Shortest
import Clausal.Dimacs.File
import Clausal.Instance.Coloring
import Clausal.Instance.RandomClauses
import Clausal.Message
import Clausal.Solve
import Clausal.TruthTable

namespace Clausal

open Text (DecodeError DecodeFault)

namespace Text

def DecodeFault.text : DecodeFault → String
  | invalidStart => "invalid start byte"
  | invalidContinuation => "invalid continuation byte"
  | unexpectedEnd => "unexpected end of data"

/-- A single byte is shown, several are only located. -/
def DecodeError.text (e : DecodeError) : String :=
  let place :=
    if e.first = e.last then
      "byte 0x" ++ String.ofList (hex 2 e.byte.toNat) ++ " in position " ++ countText e.first
    else "bytes in position " ++ countText e.first ++ "-" ++ countText e.last
  "'utf-8' codec can't decode " ++ place ++ ": " ++ e.fault.text

end Text

namespace Seconds

def text : Seconds → String
  | whole n => Numeral.text n
  | real x => Decimal.shortest x

end Seconds

def OptionsError.text : OptionsError → String
  | negativeDecisions n => "max_decisions must be >= 0, got " ++ Numeral.text n
  | timeoutNotPositive limit => "timeout must be positive, got " ++ limit.text

def Scalar.name : Scalar → String
  | whole => "int"
  | truth => "bool"
  | empty => "NoneType"
  | real => "float"

def InputError.text : InputError → String
  | zeroLiteral => "0 is a clause terminator, not a literal"
  | tooFewParts n => "not enough values to unpack (expected 2, got " ++ countText n ++ ")"
  | tooManyParts => "too many values to unpack (expected 2)"
  | notAPair s => "cannot unpack non-iterable " ++ s.name ++ " object"
  | notAList s => "'" ++ s.name ++ "' object is not iterable"

namespace Dimacs

def Fault.text : Fault → String
  | notANumber => "Non-integer token"
  | noTerminator => "Missing clause terminator 0"
  | innerTerminator => "Terminator 0 before end of clause"
  | literal e => e.text

def located (fault number line : String) : String :=
  fault ++ " (line " ++ number ++ ": " ++ line ++ ")"

/-- What the making of a literal raises is not told of a line. -/
def ParseError.text (e : ParseError) : String :=
  match e.fault with
  | .literal raised => raised.text
  | fault => located fault.text (countText e.lineNumber) (Text.quoted e.line)

end Dimacs

def RandomClauses.RequestError.text : RequestError → String
  | width k vars =>
    "clause width k=" ++ Numeral.text k ++ " must be in 1.." ++ Numeral.text vars
  | negativeSeed => "expected non-negative integer"

def detailed (summary : String) (details : List String) : String :=
  if details.isEmpty then summary else summary ++ " (" ++ ", ".intercalate details ++ ")"

def timeDetail (seconds : String) : String :=
  "time_spent=" ++ seconds ++ "s"

def decisionsDetail (count : String) : String :=
  "decisions=" ++ count

def overBudgetSummary : String := "Solver exceeded its budget"

def Exhausted.summary (e : Exhausted) : String :=
  match e.part with
  | .decisions => "Decision budget exhausted"
  | .time => overBudgetSummary

def Exhausted.text (e : Exhausted) : String :=
  detailed e.summary
    [timeDetail (Decimal.twoPlaces e.spent), decisionsDetail (countText e.decisions)]

def about (summary var : String) : String :=
  summary ++ ": " ++ var

def unassignedSummary : String := "Variable missing from assignment"

/-- The empty value is not named. -/
def unassignedText : Variable → String
  | .empty => unassignedSummary
  | v => about unassignedSummary v.display

def invalidSummary : String := "Invalid solution found"

inductive PlaceError where
  | outOfRange
  | tooLarge
  | removalOutOfRange
  | removalFromEmpty

def PlaceError.text : PlaceError → String
  | outOfRange => "list index out of range"
  | tooLarge => "cannot fit 'int' into an index-sized integer"
  | removalOutOfRange => "pop index out of range"
  | removalFromEmpty => "pop from empty list"

inductive Failure where
  | malformed (e : Dimacs.ParseError)
  | undecodable (e : DecodeError)
  | unassigned (v : Variable)
  /-- An answer that does not make its formula true. -/
  | invalid (pairs : Assignment Variable)
  | overBudget (e : Exhausted)
  | options (e : OptionsError)
  | tableTooLarge (vars : Nat)
  | input (e : InputError)
  | random (e : RandomClauses.RequestError)
  | place (e : PlaceError)
  | unhashable
  /-- Nothing has the name. -/
  | unknownName (name : String)
  | noResult

namespace Failure

def text : Failure → String
  | malformed e => e.text
  | undecodable e => e.text
  | unassigned v => unassignedText v
  | invalid _ => invalidSummary
  | overBudget e => e.text
  | options e => e.text
  | tableTooLarge n =>
    countText n ++ " variables exceed the brute force limit of " ++ countText Formula.tableLimit
  | input e => e.text
  | random e => e.text
  | place e => e.text
  | unhashable => "unhashable type: 'CNFFormula'"
  | unknownName name => Text.quoted name
  | noResult => "'NoneType' object has no attribute 'satisfiable'"

def ofSolve : SolveError Variable → Failure
  | .exhausted e => overBudget e
  | .unassigned v => unassigned v
  | .invalid pairs => invalid pairs

def ofTable : TableError Variable → Failure
  | .tooLarge n => tableTooLarge n
  | .unassigned v => unassigned v

def ofFile : Dimacs.FileError → Failure
  | .undecodable e => undecodable e
  | .malformed e => malformed e

end Failure
end Clausal
