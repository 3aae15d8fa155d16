import Clausal.Formula

namespace Clausal

variable {V : Type} [BEq V]

/-- The last pair for a variable gives its value. -/
def Assignment.value? : Assignment V → V → Option Bool
  | [], _ => none
  | (w, value) :: pairs, v =>
    match Assignment.value? pairs v with
    | some later => some later
    | none => if w == v then some value else none

def Literal.trueUnder (pairs : Assignment V) (l : Literal V) : Bool :=
  match pairs.value? l.var with
  | some value => l.holds value
  | none => false

/-- The truth value of the formula, or the first of its variables that has no value. Every variable
must have one, also where the truth does not depend on it. -/
def Formula.evaluate (f : Formula V) (pairs : Assignment V) : Except V Bool :=
  match f.freeVariables.find? (fun v => (pairs.value? v).isNone) with
  | some v => .error v
  | none => .ok (f.clauses.all (fun c => c.any (Literal.trueUnder pairs)))

end Clausal
