import Clausal.Formula.Assign
import Clausal.Formula.Evaluate
import Clausal.Polarity.Tautology

namespace Clausal

/-- New names that are the same exactly where the old ones are. -/
structure Renaming (V W : Type) [BEq V] [BEq W] where
  name : V → W
  same : ∀ v w, (name v == name w) = (v == w)

variable {V W : Type} [BEq V] [BEq W]

namespace Renaming

attribute [simp] Renaming.same

variable (r : Renaming V W)

def literal (l : Literal V) : Literal W :=
  ⟨r.name l.var, l.sign⟩

def clause (c : Clause V) : Clause W :=
  c.map r.literal

def clauses (cs : List (Clause V)) : List (Clause W) :=
  cs.map r.clause

/-- Renames the keys of a table. -/
def table {A : Type} (entries : List (V × A)) : List (W × A) :=
  entries.map (fun entry => (r.name entry.1, entry.2))

def formula (f : Formula V) : Formula W :=
  ⟨r.clauses f.clauses, f.vars.map r.name, f.declared.map r.name⟩

@[simp] theorem literal_var (l : Literal V) : (r.literal l).var = r.name l.var := rfl

@[simp] theorem literal_sign (l : Literal V) : (r.literal l).sign = l.sign := rfl

@[simp] theorem formula_clauses (f : Formula V) : (r.formula f).clauses = r.clauses f.clauses := rfl

@[simp] theorem formula_vars (f : Formula V) : (r.formula f).vars = f.vars.map r.name := rfl

@[simp] theorem formula_declared (f : Formula V) :
    (r.formula f).declared = f.declared.map r.name := rfl

theorem clauses_cons (c : Clause V) (cs : List (Clause V)) :
    r.clauses (c :: cs) = r.clause c :: r.clauses cs := rfl

theorem table_cons {A : Type} (entry : V × A) (entries : List (V × A)) :
    r.table (entry :: entries) = (r.name entry.1, entry.2) :: r.table entries := rfl

@[simp] theorem literal_beq (k l : Literal V) : (r.literal k == r.literal l) = (k == l) := by
  simp [Literal.beq_eq]

@[simp] theorem contains_map (vs : List V) (v : V) :
    (vs.map r.name).contains (r.name v) = vs.contains v := by
  induction vs with
  | nil => rfl
  | cons w ws ih => simp only [List.map_cons, List.contains_cons, same, ih]

@[simp] theorem contains_clause (c : Clause V) (l : Literal V) :
    (r.clause c).contains (r.literal l) = c.contains l := by
  induction c with
  | nil => rfl
  | cons k ks ih =>
    rw [clause, List.map_cons, List.contains_cons, literal_beq, List.contains_cons, ← ih]
    rfl

/-- A choice that goes by new names is made as it is by the old ones. -/
theorem filter_map {p : W → Bool} {q : V → Bool} (h : ∀ v, p (r.name v) = q v) (vs : List V) :
    (vs.map r.name).filter p = (vs.filter q).map r.name := by
  rw [List.filter_map]
  congr 1
  exact List.filter_congr fun v _ => h v

theorem filter_not_contains (vs ws : List V) :
    (vs.map r.name).filter (fun w => !(ws.map r.name).contains w) =
      (vs.filter (fun v => !ws.contains v)).map r.name :=
  r.filter_map (fun v => by rw [contains_map]) vs

@[simp] theorem distinct_map (vs : List V) :
    distinct (vs.map r.name) = (distinct vs).map r.name :=
  distinct_map_of_same r.same vs

/-- What occurs under the new names is what occurred under the old ones. -/
theorem occurs_clauses [EquivBEq W] {cs : List (Clause V)} {w : W} :
    Occurs (r.clauses cs) w ↔ ∃ v, Occurs cs v ∧ (r.name v == w) = true := by
  constructor
  · rintro ⟨d, hd, k, hk, hw⟩
    obtain ⟨c, hc, rfl⟩ := List.mem_map.mp hd
    obtain ⟨l, hl, rfl⟩ := List.mem_map.mp hk
    refine ⟨l.var, ⟨c, hc, l, hl, ?_⟩, hw⟩
    rw [← r.same]
    exact BEq.rfl
  · rintro ⟨v, ⟨c, hc, l, hl, hv⟩, hw⟩
    refine ⟨r.clause c, List.mem_map.mpr ⟨c, hc, rfl⟩, r.literal l,
      List.mem_map.mpr ⟨l, hl, rfl⟩, ?_⟩
    rw [← r.same] at hv
    exact BEq.trans hv hw

section Formulas

@[simp] theorem variablesOf_clauses (cs : List (Clause V)) :
    variablesOf (r.clauses cs) = (variablesOf cs).map r.name := by
  rw [variablesOf, variablesOf, ← distinct_map]
  congr 1
  simp [clauses, clause, List.map_flatten, Function.comp_def]

@[simp] theorem freeVariables_formula (f : Formula V) :
    (r.formula f).freeVariables = f.freeVariables.map r.name :=
  r.variablesOf_clauses f.clauses

@[simp] theorem reconcile_formula (f : Formula V) :
    (r.formula f).reconcile = r.formula f.reconcile := by
  have kept : (f.vars.map r.name).filter (f.freeVariables.map r.name).contains =
      (f.vars.filter f.freeVariables.contains).map r.name :=
    r.filter_map (fun v => r.contains_map _ v) _
  simp only [Formula.reconcile, freeVariables_formula, formula_vars, kept, filter_not_contains,
    ← List.map_append]
  rfl

theorem listed_clauses (cs : List (Clause V)) (given : Option (List V)) :
    Formula.listed (r.clauses cs) (given.map (List.map r.name)) =
      (Formula.listed cs given).map r.name := by
  cases given with
  | none => exact r.variablesOf_clauses cs
  | some vs =>
    simp only [Formula.listed, Option.map_some, distinct_map, variablesOf_clauses,
      filter_not_contains, ← List.map_append]

theorem undeclared_clauses (cs : List (Clause V)) (given : Option (List V)) :
    Formula.undeclared (r.clauses cs) (given.map (List.map r.name)) =
      (Formula.undeclared cs given).map r.name := by
  cases given with
  | none => rfl
  | some vs => simp only [Formula.undeclared, Option.map_some, variablesOf_clauses,
      filter_not_contains]

theorem declare_map (vs : List V) (given : Option (List V)) :
    Formula.declare (vs.map r.name) (given.map (List.map r.name)) =
      (Formula.declare vs given).map r.name := by
  cases given with
  | none => rfl
  | some ws =>
    simp only [Formula.declare, Option.map_some, distinct_map, filter_not_contains,
      ← List.map_append]

theorem build_clauses (cs : List (Clause V)) (vars declared : Option (List V)) :
    Formula.build (r.clauses cs) (vars.map (List.map r.name)) (declared.map (List.map r.name)) =
      r.formula (Formula.build cs vars declared) := by
  simp only [Formula.build, listed_clauses, declare_map]
  exact r.reconcile_formula ⟨cs, _, _⟩

theorem ofClauses_clauses (cs : List (Clause V)) (vars : Option (List V)) :
    Formula.ofClauses (r.clauses cs) (vars.map (List.map r.name)) =
      r.formula (Formula.ofClauses cs vars) := by
  have repeats : (r.clauses cs).map distinct = r.clauses (cs.map distinct) := by
    simp only [clauses, List.map_map]
    exact List.map_congr_left fun c _ => distinct_map_of_same r.literal_beq c
  rw [Formula.ofClauses, repeats]
  exact r.build_clauses (cs.map distinct) vars none

@[simp] theorem copy_formula (f : Formula V) : (r.formula f).copy = r.formula f.copy :=
  r.build_clauses f.clauses (some f.vars) (some f.declared)

@[simp] theorem hasEmptyClause_formula (f : Formula V) :
    (r.formula f).hasEmptyClause = f.hasEmptyClause := by
  simp [Formula.hasEmptyClause, clauses, clause, Function.comp_def]

@[simp] theorem withUnit_formula (f : Formula V) (l : Literal V) :
    (r.formula f).withUnit (r.literal l) = r.formula (f.withUnit l) := by
  simp [Formula.withUnit, formula, clauses, clause]

theorem reduce_clauses (v : V) (value : Bool) (cs : List (Clause V)) :
    reduce (r.name v) value (r.clauses cs) =
      (r.clauses (reduce v value cs).1, (reduce v value cs).2) := by
  induction cs with
  | nil => rfl
  | cons c cs ih =>
    have met : (r.clause c).contains ⟨r.name v, value⟩ = c.contains ⟨v, value⟩ :=
      r.contains_clause c ⟨v, value⟩
    have stripped : (r.clause c).filter (fun l => !l.var == r.name v) =
        r.clause (c.filter (fun l => !l.var == v)) := by
      simp [clause, List.filter_map, Function.comp_def]
    simp only [clauses_cons, reduce, ih, met, stripped]
    split
    · rfl
    · simp [clauses, clause]

@[simp] theorem assign_formula (f : Formula V) (v : V) (value : Bool) :
    (r.formula f).assign (r.name v) value =
      (r.formula (f.assign v value).1, (f.assign v value).2) := by
  simp only [Formula.assign, formula_clauses, reduce_clauses]
  exact congrArg (·, _) (r.reconcile_formula { f with clauses := (reduce v value f.clauses).1 })

end Formulas

section Evaluation

@[simp] theorem value?_table (pairs : Assignment V) (v : V) :
    Assignment.value? (r.table pairs) (r.name v) = pairs.value? v := by
  induction pairs with
  | nil => rfl
  | cons pair pairs ih =>
    rw [table_cons, Assignment.value?, ih, same]
    rfl

@[simp] theorem trueUnder_literal (pairs : Assignment V) (l : Literal V) :
    (r.literal l).trueUnder (r.table pairs) = l.trueUnder pairs := by
  rw [Literal.trueUnder, literal_var, value?_table]
  rfl

@[simp] theorem evaluate_formula (f : Formula V) (pairs : Assignment V) :
    (r.formula f).evaluate (r.table pairs) = (f.evaluate pairs).mapError r.name := by
  have missing : (f.freeVariables.map r.name).find?
      (fun w => (Assignment.value? (r.table pairs) w).isNone) =
        (f.freeVariables.find? (fun v => (pairs.value? v).isNone)).map r.name := by
    rw [List.find?_map]
    congr 2
    funext v
    exact congrArg Option.isNone (r.value?_table pairs v)
  have truth : (r.clauses f.clauses).all
      (fun c => c.any (Literal.trueUnder (r.table pairs))) =
        f.clauses.all (fun c => c.any (Literal.trueUnder pairs)) := by
    simp [clauses, clause, Function.comp_def]
  rw [Formula.evaluate, freeVariables_formula, missing, formula_clauses, truth, Formula.evaluate]
  cases f.freeVariables.find? (fun v => (pairs.value? v).isNone) <;> rfl

end Evaluation

section Polarities

variable {A : Type}

theorem put_table (entries : List (V × A)) (v : V) (a : A) :
    put (r.table entries) (r.name v) a = r.table (put entries v a) := by
  induction entries with
  | nil => rfl
  | cons entry rest ih =>
    rw [table_cons, put, ih, same, put]
    cases entry.1 == v <;> rfl

theorem find?_table (entries : List (V × A)) (v : V) :
    find? (r.table entries) (r.name v) = find? entries v := by
  induction entries with
  | nil => rfl
  | cons entry rest ih =>
    rw [table_cons, find?, ih, same, find?]

theorem record_table (pols : Polarities V) (l : Literal V) :
    Polarities.record (r.table pols) (r.literal l) = r.table (pols.record l) := by
  rw [Polarities.record, literal_var, find?_table, put_table]
  rfl

@[simp] theorem isConsistent_table (pols : Polarities V) :
    Polarities.isConsistent (r.table pols) = pols.isConsistent := by
  simp [Polarities.isConsistent, table, Function.comp_def]

@[simp] theorem assignment_table (pols : Polarities V) :
    Polarities.assignment (r.table pols) = r.table pols.assignment := by
  simp [Polarities.assignment, table]

theorem foldl_record_table (pols : Polarities V) (c : Clause V) :
    (r.clause c).foldl Polarities.record (r.table pols) =
      r.table (c.foldl Polarities.record pols) := by
  rw [clause, List.foldl_map]
  exact List.foldl_hom r.table r.record_table

@[simp] theorem polarities_formula (f : Formula V) :
    (r.formula f).polarities = r.table f.polarities := by
  rw [Formula.polarities, formula_clauses, clauses, List.foldl_map]
  change List.foldl _ (r.table []) _ = _
  exact List.foldl_hom r.table fun pols c => r.foldl_record_table pols c

@[simp] theorem polarity_clause (v : V) (c : Clause V) :
    Clause.polarity (r.name v) (r.clause c) = c.polarity v := by
  simp [Clause.polarity, clause, List.foldl_map]

theorem polarityPass_clauses (v : V) (pol : Polarity) (cs : List (Clause V)) :
    polarityPass (r.name v) pol (r.clauses cs) =
      ((polarityPass v pol cs).1, r.clauses (polarityPass v pol cs).2) := by
  induction cs generalizing pol with
  | nil => rfl
  | cons c cs ih =>
    rw [clauses_cons, polarityPass, polarityPass, polarity_clause]
    cases c.polarity v <;> simp only [ih] <;> rfl

@[simp] theorem variablePolarity_formula (f : Formula V) (v : V) :
    (r.formula f).variablePolarity (r.name v) =
      ((f.variablePolarity v).1, r.formula (f.variablePolarity v).2) := by
  simp only [Formula.variablePolarity, formula_clauses, polarityPass_clauses]
  have length (cs : List (Clause V)) : (r.clauses cs).length = cs.length := List.length_map _
  rw [length, length]
  split
  · rfl
  · exact congrArg (_, ·) (r.reconcile_formula { f with clauses := _ })

theorem unknownVariables_formula (f : Formula V) :
    (r.formula f).unknownVariables = f.unknownVariables.map r.name := by
  simp only [Formula.unknownVariables, freeVariables_formula, formula_declared, filter_not_contains]

/-- The passes over the renamed declared variables take the same course. -/
@[simp] theorem eliminateTautologies_formula (f : Formula V) :
    (r.formula f).eliminateTautologies = r.formula f.eliminateTautologies := by
  rw [Formula.eliminateTautologies, formula_declared, List.foldl_map]
  exact List.foldl_hom r.formula fun g v => congrArg Prod.snd (r.variablePolarity_formula g v)

end Polarities

end Renaming
end Clausal
