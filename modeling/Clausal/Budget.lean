import Clausal.Options

namespace Clausal

structure Stats where
  calls : Nat := 0
  decisions : Nat := 0
  backtracks : Nat := 0
  maxDepth : Nat := 0
  deriving DecidableEq

namespace Stats

def enter (s : Stats) (depth : Nat) : Stats :=
  { s with calls := s.calls + 1, maxDepth := max s.maxDepth depth }

def decide (s : Stats) : Stats :=
  { s with decisions := s.decisions + 1 }

def backtrack (s : Stats) : Stats :=
  { s with backtracks := s.backtracks + 1 }

end Stats

inductive BudgetPart where
  | decisions
  | time

structure Exhausted where
  part : BudgetPart
  spent : Float
  decisions : Nat

/-- The clock tells the seconds that have passed when a number of calls have been made. -/
structure Budget where
  maxDecisions : Option Nat
  timeout : Option Seconds
  clock : Nat → Float

/-- A clock that counts a microsecond for every call, the first one included. -/
def callClock (calls : Nat) : Float :=
  Float.ofNat (calls + 1) / 1000000

namespace Budget

/-- Every call looks at the budget before it counts itself, at the decisions first. -/
def exhausted? (budget : Budget) (stats : Stats) : Option Exhausted :=
  let spent := budget.clock stats.calls
  if budget.maxDecisions.any (· < stats.decisions) then some ⟨.decisions, spent, stats.decisions⟩
  else if budget.timeout.any (·.exceededBy spent) then some ⟨.time, spent, stats.decisions⟩
  else none

end Budget

end Clausal
