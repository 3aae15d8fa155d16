import Clausal.Proofs.Bookkeeping
import Clausal.Proofs.Clocks

namespace Clausal

variable {V : Type} [BEq V]

/-- The formulas differ in the declared variables at most. -/
structure Formula.Alike (f g : Formula V) : Prop where
  clauses : g.clauses = f.clauses
  vars : g.vars = f.vars

structure Simplified.Alike (s t : Simplified V) : Prop where
  formula : s.formula.Alike t.formula
  decided : t.decided = s.decided
  events : t.events = s.events

inductive Node.Alike : Node V → Node V → Prop where
  | settled (verdict : Verdict V) : Alike (.settled verdict) (.settled verdict)
  | split (decided : Assignment V) (v : V) {rest rest' : Formula V} (alike : rest.Alike rest') :
      Alike (.split decided rest v) (.split decided rest' v)

namespace Formula.Alike

variable {f g : Formula V}

theorem freeVariables (h : f.Alike g) : g.freeVariables = f.freeVariables :=
  congrArg variablesOf h.clauses

theorem polarities (h : f.Alike g) : g.polarities = f.polarities := by
  rw [Formula.polarities, h.clauses]
  rfl

theorem evaluate (h : f.Alike g) (pairs : Assignment V) : g.evaluate pairs = f.evaluate pairs := by
  rw [Formula.evaluate, h.freeVariables, h.clauses]
  rfl

omit [BEq V] in
theorem hasEmptyClause (h : f.Alike g) : g.hasEmptyClause = f.hasEmptyClause := by
  rw [Formula.hasEmptyClause, h.clauses]
  rfl

omit [BEq V] in
theorem withUnit (h : f.Alike g) (l : Literal V) : (f.withUnit l).Alike (g.withUnit l) where
  clauses := congrArg (· ++ [[l]]) h.clauses
  vars := h.vars

theorem reconcile (h : f.Alike g) : f.reconcile.Alike g.reconcile where
  clauses := h.clauses
  vars := by
    rw [Formula.reconcile, h.freeVariables, h.vars]
    rfl

theorem copy (h : f.Alike g) : f.copy.Alike g.copy := by
  apply reconcile
  refine ⟨h.clauses, ?_⟩
  show listed g.clauses (some g.vars) = listed f.clauses (some f.vars)
  rw [h.clauses, h.vars]

theorem copyReport (h : f.Alike g) : g.copyReport = f.copyReport := by
  rw [Formula.copyReport, h.clauses, h.vars]
  rfl

theorem assign (h : f.Alike g) (v : V) (value : Bool) :
    (f.assign v value).1.Alike (g.assign v value).1 ∧
      (g.assign v value).2 = (f.assign v value).2 := by
  have reduced : reduce v value g.clauses = reduce v value f.clauses := by rw [h.clauses]
  have consistent : (reduce v value g.clauses).2 = (reduce v value f.clauses).2 := by rw [reduced]
  exact ⟨reconcile ⟨congrArg Prod.fst reduced, h.vars⟩, consistent⟩

section Simplifications

theorem settleUnits (h : f.Alike g) (ls : List (Literal V)) (decided : Assignment V) :
    (settleUnits ls f decided).Alike (settleUnits ls g decided) := by
  fun_induction Formula.settleUnits ls f decided generalizing g with
  | case1 => exact ⟨h, rfl, rfl⟩
  | case2 l ls f decided value known same ih =>
    rw [Formula.settleUnits, known]
    simp only [same, ↓reduceIte]
    exact ih h
  | case3 l ls f decided value known differs =>
    rw [Formula.settleUnits, known]
    simp only [differs]
    exact ⟨h, rfl, rfl⟩
  | case4 l ls f decided fresh f' hf ih =>
    obtain ⟨next, consistent⟩ := h.assign l.var l.sign
    rw [hf] at next consistent
    rw [Formula.settleUnits, fresh, ← Prod.eta (g.assign l.var l.sign), consistent]
    exact ih next
  | case5 l ls f decided fresh f' hf =>
    obtain ⟨next, inconsistent⟩ := h.assign l.var l.sign
    rw [hf] at next inconsistent
    rw [Formula.settleUnits, fresh, ← Prod.eta (g.assign l.var l.sign), inconsistent]
    exact ⟨next, rfl, rfl⟩

theorem propagateUnits (h : f.Alike g) : f.propagateUnits.Alike g.propagateUnits := by
  rw [Formula.propagateUnits, Formula.propagateUnits, h.clauses]
  exact h.settleUnits _ []

theorem settlePure (h : f.Alike g) (pols : Polarities V) (decided : Assignment V) :
    (settlePure pols f decided).Alike (settlePure pols g decided) := by
  induction pols generalizing f g decided with
  | nil => exact ⟨h, rfl, rfl⟩
  | cons entry pols ih =>
    obtain ⟨v, pol⟩ := entry
    obtain ⟨next, consistent⟩ := h.assign v (pol = .positive : Bool)
    rw [Formula.settlePure, Formula.settlePure, h.vars]
    split
    · dsimp only
      rw [← Prod.eta (f.assign v (pol = .positive : Bool)),
        ← Prod.eta (g.assign v (pol = .positive : Bool)), consistent]
      cases (f.assign v (pol = .positive : Bool)).2 with
      | true => exact ih next _
      | false => exact ⟨next, rfl, rfl⟩
    · exact ih h decided

theorem assignPure (h : f.Alike g) (pols : Polarities V) :
    (f.assignPure pols).Alike (g.assignPure pols) :=
  h.settlePure pols []

end Simplifications

section Nodes

omit [BEq V] in
theorem branch (h : f.Alike g) (decided : Assignment V) :
    (f.branch decided).Alike (g.branch decided) := by
  rw [Formula.branch, Formula.branch, h.vars]
  cases f.vars.getLast? with
  | none => exact .settled _
  | some v => exact .split decided v h

theorem simplify (h : f.Alike g) :
    g.simplify.1 = f.simplify.1 ∧ f.simplify.2.Alike g.simplify.2 := by
  have units := h.propagateUnits
  have pure := units.formula.assignPure f.propagateUnits.formula.polarities
  rw [Formula.simplify, Formula.simplify, units.decided, units.events,
    units.formula.polarities]
  cases f.propagateUnits.decided with
  | none => exact ⟨rfl, .settled _⟩
  | some decided =>
    dsimp only
    rw [pure.decided, pure.events]
    cases (f.propagateUnits.formula.assignPure
        f.propagateUnits.formula.polarities).decided with
    | none => exact ⟨rfl, .settled _⟩
    | some more => exact ⟨rfl, pure.formula.branch _⟩

theorem examine (h : f.Alike g) :
    g.examine.1 = f.examine.1 ∧ f.examine.2.Alike g.examine.2 := by
  simp only [Formula.examine, h.hasEmptyClause, h.polarities, h.evaluate]
  split
  · exact ⟨rfl, .settled _⟩
  · split
    · cases f.evaluate f.polarities.assignment with
      | error v => exact ⟨rfl, .settled _⟩
      | ok truth =>
        cases truth with
        | true => exact ⟨rfl, .settled _⟩
        | false => exact h.simplify
    · exact h.simplify

/-- A node does the same to alike formulas. -/
theorem expand (h : f.Alike g) : g.expand.1 = f.expand.1 ∧ f.expand.2.Alike g.expand.2 := by
  obtain ⟨told, node⟩ := h.copy.examine
  exact ⟨congrArg₂ (· ++ ·) h.copyReport told, node⟩

theorem expand_settled {events : List (Event V)} {verdict : Verdict V} (h : f.Alike g)
    (node : f.expand = (events, .settled verdict)) : g.expand = (events, .settled verdict) := by
  obtain ⟨same, alike⟩ := h.expand
  rw [node] at same alike
  generalize g.expand = other at same alike
  obtain ⟨_, other⟩ := other
  cases alike
  exact congrArg (·, _) same

theorem expand_split {events : List (Event V)} {decided : Assignment V} {rest : Formula V} {v : V}
    (h : f.Alike g) (node : f.expand = (events, .split decided rest v)) :
    ∃ rest', g.expand = (events, .split decided rest' v) ∧ rest.Alike rest' := by
  obtain ⟨same, alike⟩ := h.expand
  rw [node] at same alike
  generalize g.expand = other at same alike
  obtain ⟨_, other⟩ := other
  cases alike with
  | split _ _ rests => exact ⟨_, congrArg (·, _) same, rests⟩

end Nodes

end Formula.Alike

/-- Every rule of the search applies to an alike formula as well, and finds the same. -/
theorem Explores.alike {budget : Budget} {depth : Nat} {f g : Formula V} {stats : Stats}
    {found : Explored V} (h : Explores budget depth f stats found) (same : f.Alike g) :
    Explores budget depth g stats found := by
  induction h generalizing g with
  | cutOff spent => exact .cutOff spent
  | settled within node => exact .settled within (same.expand_settled node)
  | first within node _ ends ih =>
    obtain ⟨rest', node', rests⟩ := same.expand_split node
    exact .first within node' (ih (rests.withUnit _)) ends
  | both within node _ refuted _ ihLow ihHigh =>
    obtain ⟨rest', node', rests⟩ := same.expand_split node
    exact .both within node' (ihLow (rests.withUnit _)) refuted (ihHigh (rests.withUnit _))

section Preparation

variable [EquivBEq V]

theorem Clause.polarity_congr {v w : V} (h : (v == w) = true) (c : Clause V) :
    c.polarity v = c.polarity w := by
  simp only [Clause.polarity, BEq.congr_right h]

/-- Where the list covers what occurs, it does not matter what else it holds, nor its order. -/
theorem Clause.plainIn_of_covers {cs : List (Clause V)} {vs : List V}
    (covers : ∀ v, Occurs cs v → vs.contains v = true) {c : Clause V} (hc : c ∈ cs) :
    c.plainIn vs = true ↔ ∀ v, c.polarity v ≠ .mixed := by
  rw [Clause.plainIn, List.all_eq_true]
  constructor
  · intro plain v mixed
    obtain ⟨l, hl, hv, -⟩ :=
      Clause.polarity_includes_iff.mp (Polarity.eq_mixed_iff.mp mixed true)
    obtain ⟨w, hw, hvw⟩ := List.contains_iff_exists_mem_beq.mp (covers v ⟨c, hc, l, hl, hv⟩)
    have := plain w hw
    rw [← Clause.polarity_congr hvw, mixed] at this
    exact absurd this (by decide)
  · intro plain v _
    simpa using plain v

namespace Formula

/-- Lists of declared variables that cover all that occurs remove the same tautologies and leave the
same list of variables. -/
theorem Alike.eliminateTautologies {f g : Formula V} (h : f.Alike g) (hf : f.Coherent)
    (hg : g.Coherent) : f.eliminateTautologies.Alike g.eliminateTautologies := by
  have clauses : g.eliminateTautologies.clauses = f.eliminateTautologies.clauses := by
    rw [eliminateTautologies_clauses, eliminateTautologies_clauses, h.clauses]
    apply List.filter_congr
    intro c hc
    rw [Bool.eq_iff_iff, Clause.plainIn_of_covers (fun _ => hf.declares_occurs) hc]
    exact Clause.plainIn_of_covers (fun _ => hg.declares_occurs) (h.clauses ▸ hc)
  refine ⟨clauses, ?_⟩
  rw [(Leaves.eliminateTautologies hf.listed).vars, (Leaves.eliminateTautologies hg.listed).vars,
    h.vars, Formula.freeVariables, clauses]
  rfl

theorem Alike.prepare {f g : Formula V} {options options' : Options} (h : f.Alike g)
    (tautologies : options'.dropTautologies = options.dropTautologies) :
    (f.prepare options).1.Alike (g.prepare options').1 := by
  have start : f.copy.reconcile.Alike g.copy.reconcile := h.copy.reconcile
  unfold Formula.prepare
  rw [tautologies]
  cases options.dropTautologies with
  | false => exact start
  | true => exact start.eliminateTautologies (coherent_copy_reconcile f) (coherent_copy_reconcile g)

end Formula

end Preparation

namespace Formula

variable [EquivBEq V] {f g : Formula V} {options options' : Options} {clock clock' : Nat → Float}

/-- The searches find the same, except for the time at which the budget was found exhausted. -/
theorem Alike.explored (h : f.Alike g)
    (tautologies : options'.dropTautologies = options.dropTautologies)
    (decisions : options'.maxDecisions = options.maxDecisions) (time : options.timeout = none)
    (time' : options'.timeout = none) :
    g.explored clock' options' = (f.explored clock options).timed clock' := by
  have budgets : options'.budget clock' = { options.budget clock with clock := clock' } := by
    rw [Options.budget, decisions, time', ← time]
    rfl
  unfold Formula.explored
  rw [budgets]
  exact (((explores_search _ _ _ _).timed time clock').alike (h.prepare tautologies)).search_eq

/-- A run that returns: its status and its counters, and the pairs that were decided. They are the
assignment if nothing is filled in, and otherwise the assignment begins with them. -/
structure Answers (clock : Nat → Float) (f : Formula V) (options : Options) (status : Status)
    (decided : Assignment V) (stats : Stats) : Prop where
  bare : (f.solve clock { options with fillUnconstrained := false }).outcome =
    .ok ⟨status, decided, stats⟩
  given : (f.solve clock options).outcome =
    .ok ⟨status, if status = .satisfiable ∧ options.fillUnconstrained then
      f.complete options decided else decided, stats⟩

theorem answers_of_satisfied {decided : Assignment V}
    (h : (f.explored clock options).verdict = .satisfied decided) :
    Answers clock f options .satisfiable decided (f.explored clock options).stats := by
  have bare : f.explored clock { options with fillUnconstrained := false } =
      f.explored clock options := rfl
  constructor
  · rw [solve_outcome, bare, unchecked, h]
    rfl
  · rw [solve_outcome, unchecked, h]
    simp

theorem answers_of_refuted (h : (f.explored clock options).verdict = .refuted) :
    Answers clock f options .unsatisfiable [] (f.explored clock options).stats := by
  have bare : f.explored clock { options with fillUnconstrained := false } =
      f.explored clock options := rfl
  constructor
  · rw [solve_outcome, bare, unchecked, h]
  · rw [solve_outcome, unchecked, h]
    simp

/-- Alike formulas are answered alike, whatever is declared, filled in and checked: with the same
status, counters and decided pairs, or after the same number of decisions. -/
theorem solve_alike (h : f.Alike g)
    (tautologies : options'.dropTautologies = options.dropTautologies)
    (decisions : options'.maxDecisions = options.maxDecisions) (time : options.timeout = none)
    (time' : options'.timeout = none) :
    (g.solve clock' options').stats = (f.solve clock options).stats ∧
      ((∃ status decided stats, Answers clock f options status decided stats ∧
        Answers clock' g options' status decided stats) ∨
      ∃ spent spent' n,
        (f.solve clock options).outcome = .error (.exhausted ⟨.decisions, spent, n⟩) ∧
        (g.solve clock' options').outcome = .error (.exhausted ⟨.decisions, spent', n⟩)) := by
  have same : g.explored clock' options' = (f.explored clock options).timed clock' :=
    h.explored tautologies decisions time time'
  have counters : (g.solve clock' options').stats = (f.solve clock options).stats := by
    rw [stats_solve, stats_solve, same, Explored.timed_stats]
  refine ⟨counters, ?_⟩
  obtain ⟨r, hr⟩ | ⟨x, hx⟩ := result_or_exhausted clock f options
  · left
    obtain ⟨refuted, -⟩ | ⟨decided, satisfied, -⟩ := outcome_cases hr
    · have refuted' : (g.explored clock' options').verdict = .refuted := by
        rw [same]
        exact (Explored.timed_refuted clock' _).mpr refuted
      have answer := answers_of_refuted refuted'
      rw [same, Explored.timed_stats] at answer
      exact ⟨_, _, _, answers_of_refuted refuted, answer⟩
    · have satisfied' : (g.explored clock' options').verdict = .satisfied decided := by
        rw [same, Explored.timed, satisfied]
        exact satisfied
      have answer := answers_of_satisfied satisfied'
      rw [same, Explored.timed_stats] at answer
      exact ⟨_, _, _, answers_of_satisfied satisfied, answer⟩
  · right
    have failed := outcome_error_iff.mp hx
    have hx' : (g.solve clock' options').outcome =
        .error (.exhausted { x with spent := clock' (f.explored clock options).stats.calls }) := by
      rw [outcome_error_iff, same, Explored.timed, failed]
      rfl
    have told := exhausted_of_untimed time hx
    rw [told] at hx hx'
    exact ⟨_, _, _, hx, hx'⟩

/-- Other variables are declared, and nothing is filled in or checked. -/
theorem eitherOr_solve_alike :
    eitherOr.Alike { eitherOr with declared := [3, 7, 1] } ∧
      (eitherOr.solve callClock {}).outcome =
        .ok ⟨.satisfiable, [(1, false), (2, true), (9, false), (3, false)], ⟨2, 1, 0, 1⟩⟩ ∧
      ({ eitherOr with declared := [3, 7, 1] }.solve (fun _ => 0)
        { defaultValue := true, fillUnconstrained := false, verify := false }).outcome =
        .ok ⟨.satisfiable, [(1, false), (2, true)], ⟨2, 1, 0, 1⟩⟩ := by
  have alike : eitherOr.Alike { eitherOr with declared := [3, 7, 1] } := ⟨rfl, rfl⟩
  have bare : (eitherOr.solve callClock { fillUnconstrained := false }).outcome =
      .ok ⟨.satisfiable, [(1, false), (2, true)], ⟨2, 1, 0, 1⟩⟩ :=
    eq_ok_of_toOption (by decide +kernel)
  obtain ⟨-, ⟨_, _, _, first, second⟩ | ⟨_, _, _, failed, -⟩⟩ :=
    @solve_alike Nat _ _ eitherOr _ {}
      { defaultValue := true, fillUnconstrained := false, verify := false } callClock (fun _ => 0)
      alike rfl rfl rfl rfl
  · cases bare.symm.trans first.bare
    exact ⟨alike, eitherOr_outcome, second.bare⟩
  · cases eitherOr_outcome.symm.trans failed

end Formula
end Clausal
