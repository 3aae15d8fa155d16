import Clausal.Proofs.Answers
import Clausal.Proofs.Exploration

namespace Clausal

variable {V : Type} [BEq V]

namespace Budget

theorem exhausted?_of_untimed {budget : Budget} (time : budget.timeout = none) (stats : Stats) :
    budget.exhausted? stats =
      if budget.maxDecisions.any (· < stats.decisions) then
        some ⟨.decisions, budget.clock stats.calls, stats.decisions⟩
      else none := by
  simp [exhausted?, time]

theorem exhausted?_clock {budget : Budget} (time : budget.timeout = none) (clock : Nat → Float)
    (stats : Stats) : ({ budget with clock := clock } : Budget).exhausted? stats =
      (budget.exhausted? stats).map (fun x => { x with spent := clock stats.calls }) := by
  simp only [exhausted?, time, Option.any_none, Bool.false_eq_true, ↓reduceIte]
  split <;> rfl

end Budget

def SolveError.withTime (spent : Float) : SolveError V → SolveError V
  | .exhausted x => .exhausted { x with spent := spent }
  | e => e

/-- The same findings, with a failure at the time that another clock tells. -/
def Explored.timed (clock : Nat → Float) (found : Explored V) : Explored V :=
  match found.verdict with
  | .failed e => { found with verdict := .failed (e.withTime (clock found.stats.calls)) }
  | _ => found

namespace Explored

variable (clock : Nat → Float) (found : Explored V)

omit [BEq V]

theorem timed_stats : (found.timed clock).stats = found.stats := by
  unfold timed
  split <;> rfl

theorem timed_events : (found.timed clock).events = found.events := by
  unfold timed
  split <;> rfl

theorem timed_refuted : (found.timed clock).verdict = .refuted ↔ found.verdict = .refuted := by
  obtain ⟨verdict, stats, events⟩ := found
  cases verdict <;> simp [timed]

theorem timed_after (decided : Assignment V) (events : List (Event V)) :
    (⟨found.verdict.after decided, found.stats, events⟩ : Explored V).timed clock =
      ⟨(found.timed clock).verdict.after decided, (found.timed clock).stats, events⟩ := by
  obtain ⟨verdict, stats, events⟩ := found
  cases verdict <;> rfl

end Explored

def Run.timed (clock : Nat → Float) (run : Run V) : Run V :=
  { run with outcome := run.outcome.mapError (.withTime (clock run.stats.calls)) }

/-- A search without a time limit goes the same way under every clock. -/
theorem Explores.timed [EquivBEq V] {budget : Budget} {depth : Nat} {f : Formula V} {stats : Stats}
    {found : Explored V} (time : budget.timeout = none) (clock : Nat → Float)
    (h : Explores budget depth f stats found) :
    Explores { budget with clock := clock } depth f stats (found.timed clock) := by
  have within' {stats : Stats} (within : budget.exhausted? stats = none) :
      ({ budget with clock := clock } : Budget).exhausted? stats = none := by
    rw [Budget.exhausted?_clock time, within]
    rfl
  induction h with
  | cutOff spent => exact .cutOff (by rw [Budget.exhausted?_clock time, spent]; rfl)
  | @settled _ _ _ _ verdict within node =>
    have answers := Formula.settled_justified node
    cases verdict with
    | satisfied decided => exact .settled (within' within) node
    | refuted => exact .settled (within' within) node
    | failed e => exact answers.elim
  | first within node _ ends ih =>
    rw [Explored.timed_after]
    have := Explores.first (within' within) node ih (mt (Explored.timed_refuted clock _).mp ends)
    rwa [Explored.timed_events] at this
  | both within node _ refuted _ ihLow ihHigh =>
    rw [Explored.timed_after]
    rw [← Explored.timed_stats clock] at ihHigh
    have := Explores.both (within' within) node ihLow
      ((Explored.timed_refuted clock _).mpr refuted) ihHigh
    rwa [Explored.timed_events, Explored.timed_events] at this

namespace Formula

variable [EquivBEq V]

theorem solve_of_explored (clock : Nat → Float) (f : Formula V) (options : Options) :
    f.solve clock options = f.solveBy (fun _ => f.explored clock options) options := rfl

/-- Without a time limit it is the decisions that run out, and the error tells how many the run has
counted in the end. -/
theorem exhausted_of_untimed {clock : Nat → Float} {f : Formula V} {options : Options}
    {x : Exhausted} (time : options.timeout = none)
    (h : (f.solve clock options).outcome = .error (.exhausted x)) :
    x = ⟨.decisions, clock (f.solve clock options).stats.calls,
      (f.solve clock options).stats.decisions⟩ := by
  obtain ⟨y, same, spent⟩ := (explores_search _ _ _ _).exhausted (outcome_error_iff.mp h)
  cases same
  rw [Budget.exhausted?_of_untimed time] at spent
  split at spent
  · rw [stats_solve]
    exact (Option.some.inj spent).symm
  · cases spent

omit [EquivBEq V] in
theorem conclude_timed (f : Formula V) (options : Options) (found : Explored V)
    (clock : Nat → Float) :
    f.conclude options (found.timed clock) = (f.conclude options found).timed clock := by
  obtain ⟨verdict, stats, events⟩ := found
  cases verdict with
  | failed e => rfl
  | refuted => rfl
  | satisfied decided =>
    simp only [Explored.timed, conclude]
    split <;> rfl

/-- Without a time limit a run under another clock is the same run, but for the time in its
error. -/
theorem solve_timed (f : Formula V) (options : Options) (time : options.timeout = none)
    (clock clock' : Nat → Float) :
    f.solve clock' options = (f.solve clock options).timed clock' := by
  have same : f.explored clock' options = (f.explored clock options).timed clock' :=
    ((explores_search (options.budget clock) _ _ _).timed time clock').search_eq
  rw [solve_of_explored, solve_of_explored, same]
  simp only [solveBy, conclude_timed]
  rfl

end Formula
end Clausal
