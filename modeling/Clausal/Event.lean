import Clausal.Literal

namespace Clausal

inductive Level where
  | debug
  | info
  | warning
  | error
  deriving DecidableEq

namespace Level

/-- The more urgent of two levels has the larger rank. -/
def rank : Level → Nat
  | debug => 10
  | info => 20
  | warning => 30
  | error => 40

def quiet : Level := warning

/-- Asking once for more shows the outcome of a search, asking twice its steps as well. -/
def ofVerbosity (n : Int) : Level :=
  if 2 ≤ n then debug else if n = 1 then info else quiet

def shows (threshold level : Level) : Bool :=
  threshold.rank ≤ level.rank

end Level

inductive Event (V : Type) where
  /-- Variables of the clauses were missing from the given list. -/
  | undeclared (vars : List V)
  /-- Declared variables occur in no clause. -/
  | unknownPolarity (vars : List V)
  | conflictingUnits (var : V)
  | emptiedByUnit (l : Literal V)
  | emptiedByPure (var : V) (value : Bool)
  | trying (depth : Nat) (var : V)
  | backtracking (depth : Nat) (var : V)
  | filled (value : Bool) (vars : List V)
  | finished (satisfiable : Bool) (calls decisions : Nat)

namespace Event

variable {V : Type}

def level : Event V → Level
  | undeclared _ | unknownPolarity _ => .warning
  | finished .. => .info
  | _ => .debug

/-- A report on variables is made only if there are any. -/
def listing (report : List V → Event V) : List V → List (Event V)
  | [] => []
  | vars => [report vars]

end Event
end Clausal
