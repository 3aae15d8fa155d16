import Clausal.Formula.Evaluate

namespace Clausal

variable {V : Type} [BEq V]

inductive TableError (V : Type) where
  | tooLarge (vars : Nat)
  | unassigned (v : V)

namespace Formula

/-- The most variables that a truth table may have. -/
def tableLimit : Nat := 20

/-- The first row that makes the formula true, among those that begin with `row` and go on with
values for the given variables. -/
def firstRow (f : Formula V) (row : Assignment V) : List V → Except V (Option (Assignment V))
  | [] =>
    match f.evaluate row with
    | .error v => .error v
    | .ok true => .ok (some row)
    | .ok false => .ok none
  | v :: vs =>
    match f.firstRow (row ++ [(v, false)]) vs with
    | .ok none => f.firstRow (row ++ [(v, true)]) vs
    | found => found

def firstModel (f : Formula V) : Except (TableError V) (Option (Assignment V)) :=
  let vars := f.freeVariables
  if tableLimit < vars.length then .error (.tooLarge vars.length)
  else (f.firstRow [] vars).mapError .unassigned

end Formula
end Clausal
