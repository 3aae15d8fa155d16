import Clausal.Solve
import Clausal.Variable.Printer

namespace Clausal

def Literal.text (l : Literal Variable) : String :=
  (if l.sign then "" else "~") ++ l.var.name

/-- Literals are joined by a bar, clauses by an ampersand. -/
def Clause.text (c : Clause Variable) : String :=
  "(" ++ " | ".intercalate (c.map Literal.text) ++ ")"

def Formula.text (f : Formula Variable) : String :=
  " & ".intercalate (f.clauses.map Clause.text)

def Literal.inspect (l : Literal Variable) : String :=
  "Literal(var=" ++ l.var.inspect ++ ", sign=" ++ truthText l.sign ++ ")"

def Formula.inspect (f : Formula Variable) : String :=
  "CNFFormula(variables=" ++ Variable.inspectAll f.vars ++ ", clauses=" ++
    bracketed (f.clauses.map (fun c => bracketed (c.map Literal.inspect))) ++ ")"

def Status.text : Status → String
  | .satisfiable => "SAT"
  | .unsatisfiable => "UNSAT"

namespace Result

def valueLine (pair : Variable × Bool) : String :=
  pair.1.name ++ " = " ++ (if pair.2 then "true" else "false")

def text (r : Result Variable) : String :=
  match r.status with
  | .unsatisfiable => "UNSAT"
  | .satisfiable => "\n".intercalate ("SAT:" :: r.assignment.map valueLine)

def insertPair (pair : Variable × Bool) : Assignment Variable → Assignment Variable
  | [] => [pair]
  | q :: qs =>
    if pair.1.less? q.1 = some true then pair :: q :: qs else q :: insertPair pair qs

/-- No pair is less than the one before it, and any two neighbours can be compared. -/
def ascends : Assignment Variable → Bool
  | p :: q :: pairs => q.1.less? p.1 = some false && ascends (q :: pairs)
  | _ => true

/-- The pairs in ascending order of their variables; pairs of one variable keep their order. There
is no order where two variables cannot be compared. -/
def ordered? (pairs : Assignment Variable) : Option (Assignment Variable) :=
  let sorted := pairs.foldl (fun sorted pair => insertPair pair sorted) []
  if ascends sorted then some sorted else none

/-- A true variable is written as it is, a false one negated, which takes a number. -/
def signedText? (pair : Variable × Bool) : Option String :=
  if pair.2 then some pair.1.display
  else pair.1.number?.map (fun n => Numeral.text (-n))

/-- The status line, and for a model the line of its literals in ascending order with a zero behind.
Variables that cannot be ordered or negated have no such form. -/
def dimacsText? (r : Result Variable) : Option String :=
  match r.status with
  | .unsatisfiable => some "s UNSATISFIABLE"
  | .satisfiable => do
    let pairs ← ordered? r.assignment
    let literals ← pairs.mapM signedText?
    return "s SATISFIABLE\nv " ++ " ".intercalate (literals ++ ["0"])

end Result
end Clausal
