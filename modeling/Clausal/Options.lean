namespace Clausal

inductive Seconds where
  | whole (n : Int)
  | real (x : Float)

namespace Seconds

/-- Zero or less. A span that is not a number is not. -/
def isSpent : Seconds → Bool
  | whole n => n ≤ 0
  | real x => x ≤ 0

def exceededBy (limit : Seconds) (passed : Float) : Bool :=
  match limit with
  | whole n => Float.ofInt n < passed
  | real x => x < passed

end Seconds

structure Options where
  /-- The value of variables that no decision has to fix. -/
  defaultValue : Bool := false
  /-- Whether such variables stand in the answer. -/
  fillUnconstrained : Bool := true
  /-- Whether the answer is evaluated before it is given. -/
  verify : Bool := true
  /-- Whether tautologies are removed before the search. -/
  dropTautologies : Bool := true
  maxDecisions : Option Nat := none
  timeout : Option Seconds := none

/-- A search nests as deeply as its formula has variables. A caller that limits how deeply calls may
nest should allow this much more. -/
def Options.nestingReserve : Nat := 200

inductive OptionsError where
  | negativeDecisions (n : Int)
  | timeoutNotPositive (limit : Seconds)

namespace Options

/-- Sets the budget. The limit on decisions is looked at first. -/
def withBudget (options : Options) (maxDecisions : Option Int) (timeout : Option Seconds) :
    Except OptionsError Options :=
  match maxDecisions.filter (· < 0), timeout.filter Seconds.isSpent with
  | some n, _ => .error (.negativeDecisions n)
  | none, some limit => .error (.timeoutNotPositive limit)
  | none, none =>
    .ok { options with maxDecisions := maxDecisions.map Int.toNat, timeout := timeout }

end Options

structure Settings where
  options : Options := {}
  maxDecisions : Option Int := none
  timeout : Option Seconds := none

def Settings.check (s : Settings) : Except OptionsError Options :=
  s.options.withBudget s.maxDecisions s.timeout

end Clausal
