import Clausal.Report
import Clausal.Source

namespace Clausal.Demo

structure Shown where
  lines : List String := []
  events : List (Event Variable) := []

def Shown.append (a b : Shown) : Shown :=
  ⟨a.lines ++ b.lines, a.events ++ b.events⟩

instance : Append Shown := ⟨Shown.append⟩

def say (lines : List String) : Shown :=
  { lines := lines }

def Shown.output (s : Shown) : String :=
  String.join (s.lines.map (fun line => line ++ "\n"))

def rule : String :=
  String.ofList (List.replicate 60 '=')

def heading (title : String) : Shown :=
  say ["\n" ++ rule, title, rule]

/-- Goes on with a formula, and with its result under the standard options. -/
def withFormula (made : Made) (next : Formula Variable → Shown) : Shown :=
  { events := made.events } ++
    match made.outcome with
    | .ok f => next f
    | .error e => say [e.text]

def withResult (clock : Nat → Float) (f : Formula Variable) (next : Result Variable → Shown) :
    Shown :=
  let run := f.solve clock {}
  { events := run.events } ++
    match run.outcome with
    | .ok r => next r
    | .error e => say [(Failure.ofSolve e).text]

def colorLine (pairs : Assignment Variable) (colors : Nat) (vertex color : Nat) : List String :=
  if pairs.value? (.number (Coloring.number colors vertex color)) = some true then
    ["  Vertex " ++ countText vertex ++ ": Color " ++ countText color]
  else []

def coloring (clock : Nat → Float) : Shown :=
  heading "Example: Graph 3-Coloring (Triangle)" ++
    withFormula (.ofBuilt (Coloring.formula [[0, 1], [0, 2], [1, 2]] 3)) fun f =>
    withResult clock f fun r => say <|
      match r.status with
      | .satisfiable =>
        ["SAT - 3-coloring exists!", "\nColoring:"] ++
          (List.range 3).flatMap fun vertex =>
            (List.range 3).flatMap (colorLine r.assignment 3 vertex)
      | .unsatisfiable => ["UNSAT - No 3-coloring exists"]

def polarityLines (pols : Polarities Variable) : List String :=
  (pols.mergeSort (fun p q => q.1.less? p.1 != some true)).map fun (v, pol) =>
    "  Variable " ++ v.display ++ ": " ++ pol.name

def polarities (clock : Nat → Float) : Shown :=
  let clauses := [[1, 2], [1, 3], [1, 4], [-1, 5], [-2, -3, -4]]
  heading "Example: Polarity Analysis" ++
    withFormula (.ofBuilt (Formula.ofSigned clauses none)) fun f =>
    say (["\nFormula: " ++ f.text, "\nPolarities:"] ++ polarityLines f.polarities) ++
    withResult clock f fun r =>
      say ["\n" ++ r.text, "calls=" ++ countText r.stats.calls ++ " decisions=" ++
        countText r.stats.decisions]

def dimacsText : String :=
  "\n    c (x1 | ~x2) & (x2 | x3) & (~x1 | ~x3)\n    p cnf 3 3\n    1 -2 0\n    2 3 0\n" ++
    "    -1 -3 0\n    "

def dimacs (clock : Nat → Float) : Shown :=
  heading "Example: DIMACS Format" ++ say ["\nDIMACS input:", dimacsText] ++
    withFormula (.ofText dimacsText) fun f => withResult clock f fun r => say [r.text]

def pigeonhole (clock : Nat → Float) : Shown :=
  heading "Example: Pigeonhole Principle (4 pigeons, 3 holes)" ++
    withFormula (.ofBuilt (Pigeonhole.formula 4 3)) fun f =>
    say ["\n" ++ countText f.clauses.length ++ " clauses generated"] ++
    withResult clock f fun r => say <|
      match r.status with
      | .satisfiable => ["SAT - Assignment found (unexpected!)"]
      | .unsatisfiable =>
        ["UNSAT - Cannot fit 4 pigeons in 3 holes (as expected)",
          "explored " ++ countText r.stats.calls ++ " nodes, " ++ countText r.stats.backtracks ++
            " backtracks"]

def all (clock : Nat → Float) : Shown :=
  say ["\nDPLL SAT Solver - Examples", rule] ++ polarities clock ++ coloring clock ++
    dimacs clock ++ pigeonhole clock ++
    say ["\n" ++ rule, "All examples completed!", rule]

end Clausal.Demo
