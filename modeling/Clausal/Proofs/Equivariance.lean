import Clausal.Proofs.Clocks
import Clausal.Proofs.Renaming

namespace Clausal

variable {V W : Type} [BEq V] [BEq W]

namespace Renaming

variable (r : Renaming V W)

def event : Event V → Event W
  | .undeclared vars => .undeclared (vars.map r.name)
  | .unknownPolarity vars => .unknownPolarity (vars.map r.name)
  | .conflictingUnits v => .conflictingUnits (r.name v)
  | .emptiedByUnit l => .emptiedByUnit (r.literal l)
  | .emptiedByPure v value => .emptiedByPure (r.name v) value
  | .trying depth v => .trying depth (r.name v)
  | .backtracking depth v => .backtracking depth (r.name v)
  | .filled value vars => .filled value (vars.map r.name)
  | .finished satisfiable calls decisions => .finished satisfiable calls decisions

def simplified (s : Simplified V) : Simplified W :=
  ⟨r.formula s.formula, s.decided.map r.table, s.events.map r.event⟩

def error : SolveError V → SolveError W
  | .exhausted x => .exhausted x
  | .unassigned v => .unassigned (r.name v)
  | .invalid pairs => .invalid (r.table pairs)

def verdict : Verdict V → Verdict W
  | .satisfied decided => .satisfied (r.table decided)
  | .refuted => .refuted
  | .failed e => .failed (r.error e)

def node : Node V → Node W
  | .settled verdict => .settled (r.verdict verdict)
  | .split decided rest v => .split (r.table decided) (r.formula rest) (r.name v)

def explored (found : Explored V) : Explored W :=
  ⟨r.verdict found.verdict, found.stats, found.events.map r.event⟩

def result (result : Result V) : Result W :=
  ⟨result.status, r.table result.assignment, result.stats⟩

def run (run : Run V) : Run W :=
  ⟨(run.outcome.map r.result).mapError r.error, run.stats, run.events.map r.event⟩

section Simplifications

@[simp] theorem table_append (xs ys : Assignment V) :
    r.table (xs ++ ys) = r.table xs ++ r.table ys :=
  List.map_append

@[simp] theorem unitsOf_clauses (cs : List (Clause V)) :
    unitsOf (r.clauses cs) = (unitsOf cs).map r.literal := by
  induction cs with
  | nil => rfl
  | cons c cs ih =>
    obtain - | ⟨l, - | ⟨k, ls⟩⟩ := c
    · exact ih
    · exact congrArg (r.literal l :: ·) ih
    · exact ih

theorem settleUnits_formula (ls : List (Literal V)) (f : Formula V) (decided : Assignment V) :
    Formula.settleUnits (ls.map r.literal) (r.formula f) (r.table decided) =
      r.simplified (Formula.settleUnits ls f decided) := by
  fun_induction Formula.settleUnits ls f decided with
  | case1 => rfl
  | case2 l ls f decided value known same ih =>
    rw [List.map_cons, Formula.settleUnits]
    simp only [literal_var, value?_table, known, literal_sign, same, ↓reduceIte, ih]
  | case3 l ls f decided value known differs =>
    rw [List.map_cons, Formula.settleUnits]
    simp only [literal_var, value?_table, known, literal_sign, differs]
    rfl
  | case4 l ls f decided fresh g hg ih =>
    rw [List.map_cons, Formula.settleUnits]
    simp only [literal_var, value?_table, fresh, literal_sign, assign_formula, hg, ← ih,
      table_append]
    rfl
  | case5 l ls f decided fresh g hg =>
    rw [List.map_cons, Formula.settleUnits]
    simp only [literal_var, value?_table, fresh, literal_sign, assign_formula, hg]
    rfl

@[simp] theorem propagateUnits_formula (f : Formula V) :
    (r.formula f).propagateUnits = r.simplified f.propagateUnits := by
  rw [Formula.propagateUnits, formula_clauses, unitsOf_clauses]
  exact r.settleUnits_formula _ f []

theorem settlePure_formula (pols : Polarities V) (f : Formula V) (decided : Assignment V) :
    Formula.settlePure (r.table pols) (r.formula f) (r.table decided) =
      r.simplified (Formula.settlePure pols f decided) := by
  fun_induction Formula.settlePure pols f decided with
  | case1 => rfl
  | case2 v pol pols f decided free value g hg ih =>
    rw [table_cons, Formula.settlePure]
    simp only [formula_vars, contains_map, free, ↓reduceIte, assign_formula]
    rw [show f.assign v (pol = .positive : Bool) = (g, true) from hg, ← ih, table_append]
    rfl
  | case3 v pol pols f decided free value g hg =>
    rw [table_cons, Formula.settlePure]
    simp only [formula_vars, contains_map, free, ↓reduceIte, assign_formula]
    rw [show f.assign v (pol = .positive : Bool) = (g, false) from hg]
    rfl
  | case4 v pol pols f decided gone ih =>
    rw [table_cons, Formula.settlePure, formula_vars, contains_map, if_neg gone, ih]

@[simp] theorem assignPure_formula (f : Formula V) (pols : Polarities V) :
    (r.formula f).assignPure (r.table pols) = r.simplified (f.assignPure pols) :=
  r.settlePure_formula pols f []

end Simplifications

section Nodes

theorem branch_formula (f : Formula V) (decided : Assignment V) :
    (r.formula f).branch (r.table decided) = r.node (f.branch decided) := by
  rw [Formula.branch, formula_vars, List.getLast?_map, Formula.branch]
  cases f.vars.getLast? <;> rfl

@[simp] theorem simplify_formula (f : Formula V) :
    (r.formula f).simplify = (f.simplify.1.map r.event, r.node f.simplify.2) := by
  rw [Formula.simplify, Formula.simplify, propagateUnits_formula]
  cases hu : f.propagateUnits.decided with
  | none => simp [simplified, hu, node, verdict]
  | some decided =>
    cases hp : (f.propagateUnits.formula.assignPure
        f.propagateUnits.formula.polarities).decided with
    | none => simp [simplified, hu, hp, node, verdict]
    | some more => simp [simplified, hu, hp, ← table_append, branch_formula]

@[simp] theorem examine_formula (f : Formula V) :
    (r.formula f).examine = (f.examine.1.map r.event, r.node f.examine.2) := by
  simp only [Formula.examine, hasEmptyClause_formula, polarities_formula,
    isConsistent_table, assignment_table, evaluate_formula, simplify_formula]
  split
  · rfl
  · split
    · cases f.evaluate f.polarities.assignment with
      | error v => rfl
      | ok truth => cases truth <;> rfl
    · rfl

theorem listing_map (report : List V → Event V) (report' : List W → Event W)
    (h : ∀ vs, report' (vs.map r.name) = r.event (report vs)) (vs : List V) :
    Event.listing report' (vs.map r.name) = (Event.listing report vs).map r.event := by
  cases vs with
  | nil => rfl
  | cons v vs => exact congrArg (fun e => [e]) (h (v :: vs))

@[simp] theorem copyReport_formula (f : Formula V) :
    (r.formula f).copyReport = f.copyReport.map r.event := by
  have undeclared : Formula.undeclared (r.clauses f.clauses) (some (f.vars.map r.name)) =
      (Formula.undeclared f.clauses (some f.vars)).map r.name :=
    r.undeclared_clauses f.clauses (some f.vars)
  rw [Formula.copyReport, Formula.buildReport, formula_clauses, formula_vars, undeclared]
  exact r.listing_map .undeclared .undeclared (fun _ => rfl) _

@[simp] theorem expand_formula (f : Formula V) :
    (r.formula f).expand = (f.expand.1.map r.event, r.node f.expand.2) := by
  simp only [Formula.expand, copy_formula, copyReport_formula, examine_formula, List.map_append]

theorem verdict_after (decided : Assignment V) (found : Verdict V) :
    r.verdict (found.after decided) = (r.verdict found).after (r.table decided) := by
  cases found <;> simp [Verdict.after, verdict]

theorem verdict_eq_refuted {found : Verdict V} : r.verdict found = .refuted ↔ found = .refuted := by
  cases found <;> simp [verdict]

end Nodes

section Search

/-- Every rule of the search applies to the renamed formula as well. -/
theorem explores {budget : Budget} {depth : Nat} {f : Formula V} {stats : Stats}
    {found : Explored V} (h : Explores budget depth f stats found) :
    Explores budget depth (r.formula f) stats (r.explored found) := by
  have renamed {f : Formula V} {events : List (Event V)} {n : Node V} (h : f.expand = (events, n)) :
      (r.formula f).expand = (events.map r.event, r.node n) := by
    rw [expand_formula, h]
  induction h with
  | cutOff spent => exact .cutOff spent
  | settled within node => exact .settled within (renamed node)
  | @first depth _ _ _ events decided v low within node _ ends ih =>
    rw [← withUnit_formula] at ih
    have step : Explores budget depth _ _ ⟨(r.explored low).verdict.after (r.table decided),
        (r.explored low).stats, events.map r.event ++
          .trying depth (r.name v) :: (r.explored low).events⟩ :=
      .first within (renamed node) ih fun h => ends (r.verdict_eq_refuted.mp h)
    simpa [explored, verdict_after, event] using step
  | @both depth _ _ _ events decided v low high within node _ refuted _ ihLow ihHigh =>
    rw [← withUnit_formula] at ihLow ihHigh
    have step : Explores budget depth _ _ ⟨(r.explored high).verdict.after (r.table decided),
        (r.explored high).stats, (events.map r.event ++
          .trying depth (r.name v) :: (r.explored low).events) ++
          .backtracking depth (r.name v) :: (r.explored high).events⟩ :=
      .both within (renamed node) ihLow (r.verdict_eq_refuted.mpr refuted) ihHigh
    simpa [explored, verdict_after, event] using step

theorem search_formula [EquivBEq V] [EquivBEq W] (budget : Budget) (depth : Nat) (f : Formula V)
    (stats : Stats) :
    search budget depth (r.formula f) stats = r.explored (search budget depth f stats) :=
  (r.explores (explores_search budget depth f stats)).search_eq

end Search

section Solving

theorem prepare_formula (f : Formula V) (options : Options) :
    (r.formula f).prepare options =
      (r.formula (f.prepare options).1, (f.prepare options).2.map r.event) := by
  have unknown := r.listing_map .unknownPolarity .unknownPolarity (fun _ => rfl)
  simp only [Formula.prepare, Formula.unknownReport, copy_formula, copyReport_formula,
    reconcile_formula, unknownVariables_formula, eliminateTautologies_formula, unknown,
    List.map_append]
  split <;> rfl

@[simp] theorem map_fst_table {A : Type} (entries : List (V × A)) :
    (r.table entries).map Prod.fst = (entries.map Prod.fst).map r.name := by
  simp [table]

theorem unconstrained_formula (f : Formula V) (decided : Assignment V) :
    (r.formula f).unconstrained (r.table decided) = (f.unconstrained decided).map r.name := by
  rw [Formula.unconstrained, formula_declared, freeVariables_formula, ← List.map_append,
    distinct_map, map_fst_table, filter_not_contains]
  rfl

theorem complete_formula (f : Formula V) (options : Options) (decided : Assignment V) :
    (r.formula f).complete options (r.table decided) = r.table (f.complete options decided) := by
  rw [Formula.complete, unconstrained_formula, Formula.complete, table_append]
  simp [table]

theorem conclude_formula (f : Formula V) (options : Options) (found : Explored V) :
    (r.formula f).conclude options (r.explored found) = r.run (f.conclude options found) := by
  obtain ⟨verdict, stats, events⟩ := found
  cases verdict with
  | failed e => rfl
  | refuted => simp [Formula.conclude, explored, run, Renaming.verdict, result, event, Except.map,
      Except.mapError, table]
  | satisfied decided =>
    have filled := r.listing_map (.filled options.defaultValue) (.filled options.defaultValue)
      (fun _ => rfl)
    have checked : (if options.verify then
        (r.formula f).evaluate (r.table (f.complete options decided)) else .ok true) =
        (if options.verify then f.evaluate (f.complete options decided) else .ok true).mapError
          r.name := by
      rw [evaluate_formula]
      cases options.verify <;> rfl
    simp only [Formula.conclude, explored, Renaming.verdict, checked, complete_formula,
      unconstrained_formula, filled]
    cases (if options.verify then f.evaluate (f.complete options decided) else .ok true) with
    | error v => simp [run, error, Except.map, Except.mapError]
    | ok truth =>
      cases truth with
      | false => simp [run, error, Except.map, Except.mapError]
      | true => cases options.fillUnconstrained <;>
          simp [run, result, event, Except.map, Except.mapError]

/-- To solve a renamed formula is to solve the formula and to rename what comes of it. -/
theorem solve_formula [EquivBEq V] [EquivBEq W] (clock : Nat → Float) (f : Formula V)
    (options : Options) :
    (r.formula f).solve clock options = r.run (f.solve clock options) := by
  simp only [Formula.solve, Formula.solveBy, prepare_formula, search_formula, conclude_formula]
  simp [run]

/-- A renamed formula is solved in the same way, and the answer has the new names in the old order.
Two runs without a time limit may go by different clocks. -/
theorem solve_renamed [EquivBEq V] [EquivBEq W] (f : Formula V) (options : Options)
    (time : options.timeout = none) (clock clock' : Nat → Float) :
    ((r.formula f).solve clock' options).stats = (f.solve clock options).stats ∧
      ((r.formula f).solve clock' options).events = (f.solve clock options).events.map r.event ∧
      ((∃ a : Result V, (f.solve clock options).outcome = .ok a ∧
        ((r.formula f).solve clock' options).outcome =
          .ok ⟨a.status, a.assignment.map (fun pair => (r.name pair.1, pair.2)), a.stats⟩) ∨
      ∃ x spent, (f.solve clock options).outcome = .error (.exhausted x) ∧
        ((r.formula f).solve clock' options).outcome =
          .error (.exhausted { x with spent := spent })) := by
  have same : (r.formula f).solve clock' options =
      (r.run (f.solve clock options)).timed clock' := by
    rw [← solve_formula]
    exact Formula.solve_timed _ options time clock clock'
  rw [same]
  refine ⟨rfl, rfl, ?_⟩
  obtain ⟨a, h⟩ | ⟨x, h⟩ := Formula.result_or_exhausted clock f options
  · left
    refine ⟨a, h, ?_⟩
    simp only [run, Run.timed, h]
    rfl
  · right
    refine ⟨x, clock' (f.solve clock options).stats.calls, h, ?_⟩
    simp only [run, Run.timed, h]
    rfl

end Solving

/-- New names of another kind, in the opposite order. -/
def mirrored : Renaming Nat Variable where
  name n := .tuple [.number (-n)]
  same m n := by
    show Variable.same _ _ = _
    rw [Bool.eq_iff_iff]
    simp only [Variable.same, Variable.sameParts, Bool.and_true, beq_iff_eq]
    omega

/-- The answer keeps the order of the decisions, which is not that of the new names. -/
theorem mirrored_solve_renamed :
    ({} : Options).timeout = none ∧
      (Formula.eitherOr.solve callClock {}).outcome =
        .ok ⟨.satisfiable, [(1, false), (2, true), (9, false), (3, false)], ⟨2, 1, 0, 1⟩⟩ ∧
      ((mirrored.formula Formula.eitherOr).solve (fun _ => 0) {}).outcome =
        .ok ⟨.satisfiable, [(.tuple [.number (-1)], false), (.tuple [.number (-2)], true),
          (.tuple [.number (-9)], false), (.tuple [.number (-3)], false)], ⟨2, 1, 0, 1⟩⟩ := by
  obtain ⟨-, -, ⟨a, h, renamed⟩ | ⟨x, -, h, -⟩⟩ :=
    mirrored.solve_renamed Formula.eitherOr {} rfl callClock (fun _ => 0)
  · cases Formula.eitherOr_outcome.symm.trans h
    exact ⟨rfl, Formula.eitherOr_outcome, renamed⟩
  · cases Formula.eitherOr_outcome.symm.trans h

end Renaming
end Clausal
