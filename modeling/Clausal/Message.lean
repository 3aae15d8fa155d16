import Clausal.Event
import Clausal.Variable.Printer

namespace Clausal

def Level.name : Level → String
  | debug => "DEBUG"
  | info => "INFO"
  | warning => "WARNING"
  | error => "ERROR"

def countText (n : Nat) : String :=
  Numeral.text n

def valueText (v : Variable) (value : Bool) : String :=
  v.display ++ "=" ++ truthText value

def Event.message : Event Variable → String
  | undeclared vars =>
    "variables " ++ Variable.inspectAll vars ++ " occur in clauses but were not declared"
  | unknownPolarity vars =>
    "unknown polarity for variables " ++ Variable.inspectAll vars ++
      " (they don't occur anywhere in the formula)"
  | conflictingUnits v => "conflicting unit clauses on " ++ v.display
  | emptiedByUnit l => "unit " ++ valueText l.var l.sign ++ " produced an empty clause"
  | emptiedByPure v value => "pure literal " ++ valueText v value ++ " produced an empty clause"
  | trying depth v => "depth " ++ countText depth ++ ": trying " ++ valueText v false
  | backtracking depth v =>
    "depth " ++ countText depth ++ ": backtracking, trying " ++ valueText v true
  | filled value vars =>
    "unconstrained variables set to " ++ truthText value ++ ": " ++ Variable.inspectAll vars
  | finished satisfiable calls decisions =>
    (if satisfiable then "SAT" else "UNSAT") ++ " after " ++ countText calls ++ " calls, " ++
      countText decisions ++ " decisions"

def logName : String := "dpll_sat"

/-- How a log line is laid out: the time, the level, the name and the message. -/
def logFormat : String := "%(asctime)s [%(levelname)s] [%(name)s] %(message)s"

structure Record where
  level : Level
  message : String

def Event.record (e : Event Variable) : Record :=
  ⟨e.level, e.message⟩

def Record.kept (threshold : Level) (records : List Record) : List Record :=
  records.filter (fun r => threshold.shows r.level)

end Clausal
