import Clausal.Formula.Input
import Clausal.Proofs.Fixing
import Clausal.Proofs.Tautologies

namespace Clausal

variable {V : Type} [BEq V]

namespace Formula

/-- The lists fit the clauses: what is listed occurs and is declared, and nothing is repeated. -/
structure Coherent (f : Formula V) : Prop where
  once : NoRepeat f.vars
  listed : f.Listed
  declaredOnce : NoRepeat f.declared
  declares : ∀ v ∈ f.vars, f.declared.contains v = true

/-- The second formula is what an operation leaves of the first: the variables that are gone are
dropped from the list, and the declared ones stay. -/
structure Leaves (f g : Formula V) : Prop where
  occurs : ∀ v, Occurs g.clauses v → Occurs f.clauses v
  vars : g.vars = f.vars.filter g.freeVariables.contains
  declared : g.declared = f.declared

variable [EquivBEq V]

section Making

theorem vars_reconcile {f : Formula V}
    (all : ∀ v, Occurs f.clauses v → f.vars.contains v = true) :
    f.reconcile.vars = f.vars.filter f.freeVariables.contains := by
  have missing : f.freeVariables.filter
      (fun v => !(f.vars.filter f.freeVariables.contains).contains v) = [] := by
    apply List.filter_eq_nil_iff.mpr
    intro v hv
    rw [contains_filter_contains, all v (occurs_of_mem_variablesOf hv), contains_of_mem hv]
    decide
  show f.vars.filter f.freeVariables.contains ++ f.freeVariables.filter
    (fun v => !(f.vars.filter f.freeVariables.contains).contains v) = _
  rw [missing, List.append_nil]

theorem once_listed (clauses : List (Clause V)) (vars : Option (List V)) :
    NoRepeat (listed clauses vars) := by
  cases vars with
  | none => exact pairwise_distinct _
  | some given => exact noRepeat_extend given (pairwise_distinct _)

theorem contains_listed {clauses : List (Clause V)} (vars : Option (List V)) {v : V}
    (h : Occurs clauses v) : (listed clauses vars).contains v = true := by
  have present := variablesOf_contains.mpr h
  cases vars with
  | none => exact present
  | some given => rw [listed, contains_extend, present, Bool.or_true]

theorem once_declare {listed : List V} (once : NoRepeat listed) (declared : Option (List V)) :
    NoRepeat (declare listed declared) := by
  cases declared with
  | none => exact once
  | some given => exact noRepeat_extend given once

theorem contains_declare {listed : List V} (declared : Option (List V)) {v : V}
    (h : listed.contains v = true) : (declare listed declared).contains v = true := by
  cases declared with
  | none => exact h
  | some given => rw [declare, contains_extend, h, Bool.or_true]

theorem vars_build (clauses : List (Clause V)) (vars declared : Option (List V)) :
    (build clauses vars declared).vars =
      (listed clauses vars).filter (variablesOf clauses).contains :=
  vars_reconcile fun _ hv => contains_listed vars hv

/-- Whatever lists are given, the lists that a formula is built with fit its clauses. -/
theorem coherent_build (clauses : List (Clause V)) (vars declared : Option (List V)) :
    (build clauses vars declared).Coherent := by
  have lists := vars_build clauses vars declared
  refine ⟨?_, listed_reconcile _, once_declare (once_listed clauses vars) declared, ?_⟩
  · rw [lists]
    exact (once_listed clauses vars).filter _
  · intro v hv
    rw [lists] at hv
    exact contains_declare declared (contains_of_mem (List.mem_filter.mp hv).1)

theorem build_covered {clauses : List (Clause V)} {given : List V} (once : NoRepeat given)
    (covers : ∀ v, Occurs clauses v → given.contains v = true) :
    build clauses (some given) none =
      ⟨clauses, given.filter (variablesOf clauses).contains, given⟩ := by
  have all : listed clauses (some given) = given :=
    extend_eq_self once fun v hv => covers v (occurs_of_mem_variablesOf hv)
  show (⟨clauses, listed clauses (some given), listed clauses (some given)⟩ :
    Formula V).reconcile = _
  rw [all]
  exact congrArg (fun vars => (⟨clauses, vars, given⟩ : Formula V)) (vars_reconcile covers)

theorem reconcile_of_listed {f : Formula V} (h : f.Listed) : f.reconcile = f := by
  have vars : f.reconcile.vars = f.vars := by
    rw [vars_reconcile fun v hv => (h v).mpr hv]
    apply List.filter_eq_self.mpr
    intro v hv
    exact variablesOf_contains.mpr (h.grounded v hv)
  obtain ⟨clauses, listed, declared⟩ := f
  exact congrArg (fun vars => (⟨clauses, vars, declared⟩ : Formula V)) vars

theorem Coherent.declares_occurs {f : Formula V} (h : f.Coherent) {v : V}
    (hv : Occurs f.clauses v) : f.declared.contains v = true := by
  obtain ⟨w, hw, hvw⟩ := List.contains_iff_exists_mem_beq.mp ((h.listed v).mpr hv)
  rw [contains_congr hvw]
  exact h.declares w hw

/-- There is nothing to add to lists that fit. -/
theorem Coherent.copy_eq {f : Formula V} (h : f.Coherent) : f.copy = f := by
  have vars : Formula.listed f.clauses (some f.vars) = f.vars :=
    extend_eq_self h.once fun v hv => (h.listed v).mpr (occurs_of_mem_variablesOf hv)
  have declared : declare f.vars (some f.declared) = f.declared :=
    extend_eq_self h.declaredOnce h.declares
  show (⟨f.clauses, Formula.listed f.clauses (some f.vars),
    declare (Formula.listed f.clauses (some f.vars)) (some f.declared)⟩ : Formula V).reconcile = f
  rw [vars, declared]
  exact reconcile_of_listed h.listed

theorem coherent_copy (f : Formula V) : f.copy.Coherent :=
  coherent_build f.clauses (some f.vars) (some f.declared)

theorem coherent_copy_reconcile (f : Formula V) : f.copy.reconcile.Coherent := by
  rw [reconcile_of_listed (coherent_copy f).listed]
  exact coherent_copy f

end Making

namespace Leaves

variable {f g e : Formula V}

theorem refl (h : f.Listed) : Leaves f f := by
  refine ⟨fun _ => id, (List.filter_eq_self.mpr ?_).symm, rfl⟩
  intro v hv
  exact variablesOf_contains.mpr (h.grounded v hv)

theorem trans (h : Leaves f g) (k : Leaves g e) : Leaves f e := by
  refine ⟨fun v hv => h.occurs v (k.occurs v hv), ?_, k.declared.trans h.declared⟩
  rw [k.vars, h.vars, List.filter_filter]
  apply List.filter_congr
  intro v _
  cases he : e.freeVariables.contains v with
  | false => simp
  | true =>
    have hg : g.freeVariables.contains v = true :=
      variablesOf_contains.mpr (k.occurs v (variablesOf_contains.mp he))
    rw [hg]
    decide

theorem listed (h : Leaves f g) (before : f.Listed) : g.Listed := by
  intro v
  rw [h.vars, contains_filter_contains, Bool.and_eq_true]
  constructor
  · rintro ⟨-, hv⟩
    exact variablesOf_contains.mp hv
  · intro hv
    exact ⟨(before v).mpr (h.occurs v hv), variablesOf_contains.mpr hv⟩

omit [EquivBEq V] in
theorem sublist (h : Leaves f g) : g.vars.Sublist f.vars := by
  rw [h.vars]
  exact List.filter_sublist

theorem coherent (h : Leaves f g) (before : f.Coherent) : g.Coherent where
  once := before.once.sublist h.sublist
  listed := h.listed before.listed
  declaredOnce := by
    rw [h.declared]
    exact before.declaredOnce
  declares v hv := by
    rw [h.declared]
    exact before.declares v (h.sublist.mem hv)

theorem reconcile {cs : List (Clause V)} (listed : f.Listed)
    (sub : ∀ v, Occurs cs v → Occurs f.clauses v) :
    Leaves f { f with clauses := cs }.reconcile :=
  ⟨sub, vars_reconcile fun v hv => (listed v).mpr (sub v hv), rfl⟩

theorem assign (listed : f.Listed) (v : V) (value : Bool) : Leaves f (f.assign v value).1 :=
  reconcile listed fun _ hw => (occurs_reduce hw).1

theorem then_assign (listed : f.Listed) (g : Formula V) (v : V) (value : Bool)
    (h : Leaves f g) : Leaves f (g.assign v value).1 :=
  h.trans (assign (h.listed listed) v value)

theorem propagateUnits (listed : f.Listed) : Leaves f f.propagateUnits.formula :=
  settleUnits_keeps (then_assign listed) (refl listed)

theorem assignPure (listed : f.Listed) (pols : Polarities V) :
    Leaves f (f.assignPure pols).formula :=
  settlePure_keeps (then_assign listed) (refl listed)

theorem variablePolarity (listed : f.Listed) (v : V) : Leaves f (f.variablePolarity v).2 := by
  have sub : ∀ w, Occurs (polarityPass v .unknown f.clauses).2 w → Occurs f.clauses w := by
    intro w hw
    rw [polarityPass_snd] at hw
    exact hw.of_sublist List.filter_sublist
  unfold Formula.variablePolarity
  dsimp only
  split
  · exact refl listed
  · exact reconcile listed sub

theorem eliminateTautologies (listed : f.Listed) : Leaves f f.eliminateTautologies := by
  have passes (vs : List V) (g : Formula V) (h : Leaves f g) :
      Leaves f (vs.foldl (fun g v => (g.variablePolarity v).2) g) := by
    induction vs generalizing g with
    | nil => exact h
    | cons v vs ih => exact ih _ (h.trans (variablePolarity (h.listed listed) v))
  exact passes f.declared f (refl listed)

end Leaves

theorem coherent_prepare (f : Formula V) (options : Options) :
    (f.prepare options).1.Coherent := by
  have start := f.coherent_copy_reconcile
  unfold prepare
  cases options.dropTautologies with
  | false => exact start
  | true => exact (Leaves.eliminateTautologies start.listed).coherent start

end Formula

/-- What can be done to a formula without touching its lists by hand. -/
inductive Operation (V : Type) where
  | assign (v : V) (value : Bool)
  | reconcile
  | copy
  | propagateUnits
  | assignPure (pols : Polarities V)
  | variablePolarity (v : V)
  | eliminateTautologies

/-- The formula behind an operation, also behind a simplification that gave up on the way. -/
def Operation.apply (f : Formula V) : Operation V → Formula V
  | assign v value => (f.assign v value).1
  | reconcile => f.reconcile
  | copy => f.copy
  | propagateUnits => f.propagateUnits.formula
  | assignPure pols => (f.assignPure pols).formula
  | variablePolarity v => (f.variablePolarity v).2
  | eliminateTautologies => f.eliminateTautologies

/-- How a formula is come by. What is copied may have been changed by hand. -/
inductive Origin (V : Type) where
  | parts (clauses : List (Clause V)) (vars declared : Option (List V))
  | clauses (clauses : List (Clause V)) (vars : Option (List V))
  | copyOf (f : Formula V)

def Origin.formula : Origin V → Formula V
  | parts cs vars declared => .build cs vars declared
  | clauses cs vars => .ofClauses cs vars
  | copyOf f => f.copy

namespace Formula

def after (f : Formula V) (operations : List (Operation V)) : Formula V :=
  operations.foldl Operation.apply f

variable [EquivBEq V]

theorem coherent_origin (origin : Origin V) : origin.formula.Coherent := by
  cases origin with
  | parts cs vars declared => exact coherent_build cs vars declared
  | clauses cs vars => exact coherent_build _ vars none
  | copyOf f => exact coherent_copy f

theorem Coherent.leaves {f : Formula V} (h : f.Coherent) (o : Operation V) :
    Leaves f (o.apply f) := by
  cases o with
  | assign v value => exact .assign h.listed v value
  | reconcile => exact .reconcile h.listed fun _ => id
  | copy =>
    show Leaves f f.copy
    rw [h.copy_eq]
    exact .refl h.listed
  | propagateUnits => exact .propagateUnits h.listed
  | assignPure pols => exact .assignPure h.listed pols
  | variablePolarity v => exact .variablePolarity h.listed v
  | eliminateTautologies => exact .eliminateTautologies h.listed

theorem Coherent.after {f : Formula V} (h : f.Coherent) (operations : List (Operation V)) :
    (f.after operations).Coherent := by
  induction operations generalizing f with
  | nil => exact h
  | cons o operations ih => exact ih ((h.leaves o).coherent h)

/-- Whatever loosely typed input is accepted, the formula is made of clauses and of a list of
variables. -/
theorem ofInput_accepted {clauses : Listing (Listing Item)} {vars : Option (Listing Variable)}
    {f : Formula Variable} (h : (ofInput clauses vars).outcome = .ok f) :
    ∃ cs vs, f = ofClauses cs vs := by
  simp only [ofInput] at h
  split at h
  · cases h
  · rename_i read
    obtain ⟨_, -, read⟩ := ok_of_bind read
    obtain ⟨cs, -, read⟩ := ok_of_bind read
    obtain ⟨_, -, read⟩ := ok_of_bind read
    cases read
    exact ⟨cs, _, (Except.ok.inj h).symm⟩

theorem ofRaw_accepted {clauses : List (Clause Variable)}
    {vars declared : Option (Listing Variable)} {f : Formula Variable}
    (h : (ofRaw clauses vars declared).outcome = .ok f) :
    ∃ vs ds, f = build clauses vs ds := by
  simp only [ofRaw] at h
  split at h
  · cases h
  · split at h
    · cases h
    · exact ⟨_, _, (Except.ok.inj h).symm⟩

/-- However a formula is made and whatever is done to it, its lists fit its clauses and a copy is
the formula itself; the next operation keeps what is declared and only drops listed variables. What
is made of loosely typed input is made in one of these ways. -/
theorem lists_fit :
    (∀ (origin : Origin V) (operations : List (Operation V)),
      (origin.formula.after operations).Coherent ∧
      (origin.formula.after operations).copy = origin.formula.after operations ∧
      ∀ o : Operation V,
        (o.apply (origin.formula.after operations)).declared =
          (origin.formula.after operations).declared ∧
        (o.apply (origin.formula.after operations)).vars.Sublist
          (origin.formula.after operations).vars) ∧
    (∀ (clauses : Listing (Listing Item)) (vars : Option (Listing Variable)) (f : Formula Variable),
      (ofInput clauses vars).outcome = .ok f → ∃ cs vs, f = (Origin.clauses cs vs).formula) ∧
    ∀ (clauses : List (Clause Variable)) (vars declared : Option (Listing Variable))
      (f : Formula Variable), (ofRaw clauses vars declared).outcome = .ok f →
        ∃ vs ds, f = (Origin.parts clauses vs ds).formula := by
  refine ⟨?_, fun _ _ _ => ofInput_accepted, fun _ _ _ _ => ofRaw_accepted⟩
  intro origin operations
  have coherent := (coherent_origin origin).after operations
  refine ⟨coherent, coherent.copy_eq, ?_⟩
  intro o
  have left := coherent.leaves o
  exact ⟨left.declared, left.sublist⟩

/-- A truth value beside the number that it counts as, with both signs asked for. -/
def truthAsNumber : Origin Variable :=
  .parts [[⟨.truth true, true⟩], [⟨.number 2, true⟩, ⟨.number 1, false⟩], [⟨.number 1, false⟩]]
    (some [.text "spare", .number 1, .truth true]) (some [.number 9, .number 9])

/-- Propagation stops midway here, and then the lists fit what it left. -/
theorem truthAsNumber_lists_fit :
    truthAsNumber.formula.propagateUnits.decided = none ∧
      (truthAsNumber.formula.after [.propagateUnits]).Coherent ∧
      (truthAsNumber.formula.after [.propagateUnits]).copy =
        truthAsNumber.formula.after [.propagateUnits] ∧
      (truthAsNumber.formula.after [.propagateUnits]).vars.Sublist truthAsNumber.formula.vars :=
  ⟨Option.isNone_iff_eq_none.mp (by decide +kernel), (lists_fit.1 truthAsNumber [_]).1,
    (lists_fit.1 truthAsNumber [_]).2.1,
    ((lists_fit.1 truthAsNumber []).2.2 .propagateUnits).2⟩

end Formula
end Clausal
