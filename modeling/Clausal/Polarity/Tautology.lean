import Clausal.Event
import Clausal.Polarity

namespace Clausal

variable {V : Type} [BEq V]

/-- The joined polarity of `v` over the clauses without the tautologies in `v`, and those
clauses. -/
def polarityPass (v : V) : Polarity → List (Clause V) → Polarity × List (Clause V)
  | pol, [] => (pol, [])
  | pol, c :: cs =>
    match c.polarity v with
    | .mixed => polarityPass v pol cs
    | p =>
      let (pol, rest) := polarityPass v (pol.join p) cs
      (pol, c :: rest)

namespace Formula

/-- The polarity of `v`, and the formula without the tautologies in `v`. -/
def variablePolarity (f : Formula V) (v : V) : Polarity × Formula V :=
  let (pol, clauses) := polarityPass v .unknown f.clauses
  if clauses.length = f.clauses.length then (pol, f)
  else (pol, reconcile { f with clauses := clauses })

def unknownVariables (f : Formula V) : List V :=
  let present := f.freeVariables
  f.declared.filter (fun v => !present.contains v)

def unknownReport (f : Formula V) : List (Event V) :=
  Event.listing .unknownPolarity f.unknownVariables

/-- Runs the pass for every declared variable. -/
def eliminateTautologies (f : Formula V) : Formula V :=
  f.declared.foldl (fun g v => (g.variablePolarity v).2) f

end Formula
end Clausal
