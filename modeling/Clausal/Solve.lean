import Clausal.Polarity.Tautology
import Clausal.Search

namespace Clausal

inductive Status where
  | satisfiable
  | unsatisfiable
  deriving DecidableEq

/-- An unsatisfiable formula has the empty assignment. -/
structure Result (V : Type) where
  status : Status
  assignment : Assignment V
  stats : Stats
  deriving DecidableEq

def Result.model? {V : Type} (r : Result V) : Option (Assignment V) :=
  match r.status with
  | .satisfiable => some r.assignment
  | .unsatisfiable => none

/-- The counters are those of the search, also when there is no result. -/
structure Run (V : Type) where
  outcome : Except (SolveError V) (Result V)
  stats : Stats
  events : List (Event V)

variable {V : Type} [BEq V]

namespace Formula

/-- A copy of the formula that lists its variables and, if asked, has no tautology left. -/
def prepare (f : Formula V) (options : Options) : Formula V × List (Event V) :=
  let g := f.copy.reconcile
  (if options.dropTautologies then g.eliminateTautologies else g,
    f.copyReport ++ g.unknownReport)

/-- The variables that a decision left open, the declared ones first. -/
def unconstrained (f : Formula V) (decided : Assignment V) : List V :=
  (distinct (f.declared ++ f.freeVariables)).filter (fun v => !(decided.map Prod.fst).contains v)

/-- Gives the default value to every variable left open. -/
def complete (f : Formula V) (options : Options) (decided : Assignment V) : Assignment V :=
  decided ++ (f.unconstrained decided).map (fun v => (v, options.defaultValue))

def conclude (f : Formula V) (options : Options) (found : Explored V) : Run V :=
  let stats := found.stats
  match found.verdict with
  | .failed e => ⟨.error e, stats, found.events⟩
  | .refuted =>
    ⟨.ok ⟨.unsatisfiable, [], stats⟩, stats,
      found.events ++ [.finished false stats.calls stats.decisions]⟩
  | .satisfied decided =>
    let complete := f.complete options decided
    let events := found.events ++
      Event.listing (.filled options.defaultValue) (f.unconstrained decided)
    match if options.verify then f.evaluate complete else .ok true with
    | .error v => ⟨.error (.unassigned v), stats, events⟩
    | .ok false => ⟨.error (.invalid complete), stats, events⟩
    | .ok true =>
      ⟨.ok ⟨.satisfiable, if options.fillUnconstrained then complete else decided, stats⟩, stats,
        events ++ [.finished true stats.calls stats.decisions]⟩

def solveBy (answer : Formula V → Explored V) (f : Formula V) (options : Options) : Run V :=
  let (prepared, events) := f.prepare options
  let run := f.conclude options (answer prepared)
  { run with events := events ++ run.events }

def solve [EquivBEq V] (clock : Nat → Float) (f : Formula V) (options : Options) : Run V :=
  f.solveBy (fun g => search ⟨options.maxDecisions, options.timeout, clock⟩ 0 g {}) options

end Formula
end Clausal
