import Clausal.Failure
import Clausal.Value

namespace Clausal

/-- A part that is not given is none. -/
inductive Complaint where
  | malformed (summary : Value) (lineNumber : Option Value) (line : Value)
  | unassigned (summary : Value) (var : Option Value)
  | invalid (summary : Value)
  | overBudget (summary : Value) (timeSpent decisions : Option Value)
  | setting (summary : Option Value)
  /-- Any other failure. -/
  | general (summary : Option Value)

inductive WordingError where
  /-- A summary that stands alone must be a text. -/
  | notText (v : Value)
  | tooLarge
  | notTime (v : Value)

def WordingError.text : WordingError → String
  | notText v => "__str__ returned non-string (type " ++ v.kind ++ ")"
  | tooLarge => "int too large to convert to float"
  | notTime v =>
    match v with
    | .plain (.text _) => "Unknown format code 'f' for object of type '" ++ v.kind ++ "'"
    | _ => "unsupported format string passed to " ++ v.kind ++ ".__format__"

/-- A number with two places. Whole numbers are taken for fractions, if they are not too large. -/
def Value.twoPlaces (v : Value) : Except WordingError String :=
  match v with
  | .real x => .ok (Decimal.twoPlaces x)
  | .plain w =>
    match w.number? with
    | none => .error (.notTime v)
    | some n =>
      let x := Float.ofInt n
      if x.isInf then .error .tooLarge else .ok (Decimal.twoPlaces x)
  | .tuple _ => .error (.notTime v)

namespace Complaint

def malformedSummary : String := "Malformed DIMACS input"

def details (timeSpent decisions : Option Value) : Except WordingError (List String) := do
  let time ← timeSpent.mapM (fun t => t.twoPlaces.map timeDetail)
  return time.toList ++ (decisions.map (fun n => decisionsDetail n.display)).toList

def text : Complaint → Except WordingError String
  | malformed summary none _ => .ok summary.display
  | malformed summary (some n) line =>
    .ok (Dimacs.located summary.display n.display line.inspect)
  | unassigned summary none => .ok summary.display
  | unassigned summary (some v) => .ok (about summary.display v.display)
  | invalid summary => .ok summary.display
  | overBudget summary timeSpent decisions => do
    let known ← details timeSpent decisions
    match known, summary with
    | [], .plain (.text s) => return s
    | [], v => throw (.notText v)
    | known, v => return detailed v.display known
  | setting summary | general summary => .ok ((summary.map Value.display).getD "")

/-- What is kept of a complaint beside its wording, if anything: the summary, with the line or the
variable that it is about where one is given. -/
def summary? : Complaint → Option Value
  | malformed summary (some n) line =>
    some (.plain (.text (Dimacs.located summary.display n.display line.inspect)))
  | unassigned summary (some v) => some (.plain (.text (about summary.display v.display)))
  | malformed summary none _ | unassigned summary none => some summary
  | invalid summary | overBudget summary _ _ => some summary
  | setting _ | general _ => none

end Complaint
end Clausal
