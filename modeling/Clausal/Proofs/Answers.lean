import Mathlib.Order.Nat
import Clausal.Proofs.Tautologies
import Clausal.Proofs.Verdicts

namespace Clausal

variable {V : Type} [BEq V]

theorem Verdict.Justified.of_clauses {allowed : SolveError V → Prop} {cs ds : List (Clause V)}
    {verdict : Verdict V} (h : verdict.Justified allowed cs)
    (occurs : ∀ v, Occurs cs v → Occurs ds v)
    (satisfies : ∀ a : Valuation V, a.Satisfies cs ↔ a.Satisfies ds) :
    verdict.Justified allowed ds := by
  cases verdict with
  | satisfied decided =>
    exact ⟨h.once, fun p hp => occurs p.1 (h.occurs p hp),
      fun a agrees => (satisfies a).mp (h.satisfies a agrees)⟩
  | refuted => exact fun a ha => h a ((satisfies a).mpr ha)
  | failed e => exact h

theorem eq_ok_of_toOption {E A : Type} {e : Except E A} {a : A} (h : e.toOption = some a) :
    e = .ok a := by
  cases e with
  | error x => cases h
  | ok b => exact congrArg Except.ok (Option.some.inj h)

namespace Options

def budget (options : Options) (clock : Nat → Float) : Budget :=
  ⟨options.maxDecisions, options.timeout, clock⟩

omit [BEq V] in
theorem not_fails {options : Options} {clock : Nat → Float} {e : SolveError V}
    (decisions : options.maxDecisions = none) (time : options.timeout = none) :
    ¬ (options.budget clock).Fails e := by
  rintro ⟨x, stats, -, h⟩
  simp [budget, Budget.exhausted?, decisions, time] at h

end Options

namespace Formula

theorem map_fst_complete (f : Formula V) (options : Options) (decided : Assignment V) :
    (f.complete options decided).map Prod.fst =
      decided.map Prod.fst ++ f.unconstrained decided := by
  simp [complete, Function.comp_def]

theorem contains_unconstrained [EquivBEq V] (f : Formula V) (decided : Assignment V) (v : V) :
    (f.unconstrained decided).contains v =
      ((f.declared.contains v || f.freeVariables.contains v) &&
        !(decided.map Prod.fst).contains v) := by
  rw [unconstrained, contains_filter_not_contains, contains_distinct, List.contains_append]

theorem complete_extends [EquivBEq V] (f : Formula V) (options : Options)
    (decided : Assignment V) : Assignment.Extends (f.complete options decided) decided := by
  intro v b h
  have filler : Assignment.value?
      ((f.unconstrained decided).map (fun v => (v, options.defaultValue))) v = none := by
    rw [Assignment.value?_eq_none, List.map_map, Bool.eq_false_iff]
    intro hc
    obtain ⟨w, hw, hvw⟩ := List.contains_iff_exists_mem_beq.mp hc
    have hw : w ∈ f.unconstrained decided := by simpa [Function.comp_def] using hw
    have known : (decided.map Prod.fst).contains w = true := by
      rw [← contains_congr hvw, ← Assignment.value?_isSome, h]
      rfl
    have := (List.mem_filter.mp hw).2
    rw [known] at this
    cases this
  rw [complete, Assignment.value?_append, filler]
  exact h

theorem complete_covers [EquivBEq V] (f : Formula V) (options : Options)
    (decided : Assignment V) : Assignment.Covers (f.complete options decided) f.clauses := by
  intro v hv
  have candidate : f.freeVariables.contains v = true := variablesOf_contains.mpr hv
  rw [Assignment.value?_isSome, map_fst_complete, List.contains_append, contains_unconstrained,
    candidate, Bool.or_true]
  cases (decided.map Prod.fst).contains v <;> rfl

/-- Every assignment that covers the formula and keeps pairs that settle it makes it true. -/
theorem evaluate_of_extends [EquivBEq V] {f : Formula V} {total decided : Assignment V}
    (h : decided.Decides f.clauses) (covers : total.Covers f.clauses)
    (keeps : total.Extends decided) : f.evaluate total = .ok true :=
  (evaluate_eq_true_iff covers).mpr (h.satisfies _ (keeps.agrees h.once))

theorem evaluate_complete [EquivBEq V] {f : Formula V} {decided : Assignment V}
    (options : Options) (h : decided.Decides f.clauses) :
    f.evaluate (f.complete options decided) = .ok true :=
  evaluate_of_extends h (f.complete_covers options decided) (f.complete_extends options decided)

/-- The outcome that a search leads to if the check of its answer is passed over. -/
def unchecked (f : Formula V) (options : Options) (found : Explored V) :
    Except (SolveError V) (Result V) :=
  match found.verdict with
  | .failed e => .error e
  | .refuted => .ok ⟨.unsatisfiable, [], found.stats⟩
  | .satisfied decided =>
    .ok ⟨.satisfiable, if options.fillUnconstrained then f.complete options decided else decided,
      found.stats⟩

variable [EquivBEq V]

def explored (clock : Nat → Float) (f : Formula V) (options : Options) : Explored V :=
  search (options.budget clock) 0 (f.prepare options).1 {}

theorem explored_justified (clock : Nat → Float) (f : Formula V) (options : Options) :
    (f.explored clock options).verdict.Justified (options.budget clock).Fails f.clauses :=
  (search_justified _ _ _ _).of_clauses (fun _ => occurs_prepare) (fun _ => satisfies_prepare)

/-- The check of the answer never changes the outcome. -/
theorem solve_outcome (clock : Nat → Float) (f : Formula V) (options : Options) :
    (f.solve clock options).outcome = f.unchecked options (f.explored clock options) := by
  have right := explored_justified clock f options
  show (f.conclude options (f.explored clock options)).outcome = _
  unfold conclude unchecked
  cases hv : (f.explored clock options).verdict with
  | failed e => rfl
  | refuted => rfl
  | satisfied decided =>
    rw [hv] at right
    have passed : (if options.verify then f.evaluate (f.complete options decided) else .ok true) =
        .ok true := by
      rw [evaluate_complete options right]
      exact ite_self _
    simp only [passed]

/-- A result is one of two verdicts of the search, with the counters of the search. -/
theorem outcome_cases {clock : Nat → Float} {f : Formula V} {options : Options} {r : Result V}
    (h : (f.solve clock options).outcome = .ok r) :
    ((f.explored clock options).verdict = .refuted ∧
      r = ⟨.unsatisfiable, [], (f.explored clock options).stats⟩) ∨
    ∃ decided, (f.explored clock options).verdict = .satisfied decided ∧
      r = ⟨.satisfiable, if options.fillUnconstrained then f.complete options decided else decided,
        (f.explored clock options).stats⟩ := by
  rw [solve_outcome] at h
  unfold unchecked at h
  cases hv : (f.explored clock options).verdict with
  | failed e =>
    rw [hv] at h
    cases h
  | refuted =>
    rw [hv] at h
    exact .inl ⟨rfl, (Except.ok.inj h).symm⟩
  | satisfied decided =>
    rw [hv] at h
    exact .inr ⟨decided, rfl, (Except.ok.inj h).symm⟩

theorem stats_of_outcome {clock : Nat → Float} {f : Formula V} {options : Options} {r : Result V}
    (h : (f.solve clock options).outcome = .ok r) :
    r.stats = (f.explored clock options).stats := by
  obtain ⟨-, rfl⟩ | ⟨_, -, rfl⟩ := outcome_cases h <;> rfl

theorem stats_solve (clock : Nat → Float) (f : Formula V) (options : Options) :
    (f.solve clock options).stats = (f.explored clock options).stats := by
  show (f.conclude options (f.explored clock options)).stats = _
  unfold conclude
  split
  · rfl
  · rfl
  · dsimp only
    split <;> rfl

theorem outcome_error_iff {clock : Nat → Float} {f : Formula V} {options : Options}
    {e : SolveError V} :
    (f.solve clock options).outcome = .error e ↔
      (f.explored clock options).verdict = .failed e := by
  rw [solve_outcome]
  unfold unchecked
  cases (f.explored clock options).verdict <;> simp

theorem decides_of_satisfiable {clock : Nat → Float} {f : Formula V} {options : Options}
    {r : Result V} (h : (f.solve clock options).outcome = .ok r)
    (hs : r.status = .satisfiable) :
    ∃ decided, (f.explored clock options).verdict = .satisfied decided ∧
      decided.Decides f.clauses ∧ r.assignment =
        if options.fillUnconstrained then f.complete options decided else decided := by
  have right := explored_justified clock f options
  obtain ⟨-, rfl⟩ | ⟨decided, hv, rfl⟩ := outcome_cases h
  · cases hs
  · rw [hv] at right
    exact ⟨decided, hv, right, rfl⟩

theorem not_satisfies_of_unsatisfiable {clock : Nat → Float} {f : Formula V} {options : Options}
    {r : Result V} (h : (f.solve clock options).outcome = .ok r)
    (hs : r.status = .unsatisfiable) :
    r.assignment = [] ∧ ∀ a : Valuation V, ¬ a.Satisfies f.clauses := by
  have right := explored_justified clock f options
  obtain ⟨hv, rfl⟩ | ⟨decided, -, rfl⟩ := outcome_cases h
  · rw [hv] at right
    exact ⟨rfl, right⟩
  · cases hs

/-- A result tells whether the formula has a model, within any budget. -/
theorem satisfiable_iff {clock : Nat → Float} {f : Formula V} {options : Options} {r : Result V}
    (h : (f.solve clock options).outcome = .ok r) :
    r.status = .satisfiable ↔ ∃ a : Valuation V, a.Satisfies f.clauses := by
  constructor
  · intro hs
    obtain ⟨decided, -, right, -⟩ := decides_of_satisfiable h hs
    exact ⟨_, right.satisfies _ (Assignment.agrees_valuation right.once)⟩
  · rintro ⟨a, ha⟩
    cases hs : r.status with
    | satisfiable => rfl
    | unsatisfiable => exact absurd ha ((not_satisfies_of_unsatisfiable h hs).2 a)

theorem exists_result {clock : Nat → Float} {f : Formula V} {options : Options}
    (decisions : options.maxDecisions = none) (time : options.timeout = none) :
    ∃ r, (f.solve clock options).outcome = .ok r := by
  have right := explored_justified clock f options
  rw [solve_outcome]
  unfold unchecked
  cases hv : (f.explored clock options).verdict with
  | failed e =>
    rw [hv] at right
    exact absurd right (Options.not_fails decisions time)
  | refuted => exact ⟨_, rfl⟩
  | satisfied decided => exact ⟨_, rfl⟩

theorem result_or_exhausted (clock : Nat → Float) (f : Formula V) (options : Options) :
    (∃ r, (f.solve clock options).outcome = .ok r) ∨
      ∃ x, (f.solve clock options).outcome = .error (.exhausted x) := by
  have right := explored_justified clock f options
  cases h : (f.solve clock options).outcome with
  | ok r => exact .inl ⟨r, rfl⟩
  | error e =>
    rw [outcome_error_iff.mp h] at right
    obtain ⟨x, -, rfl, -⟩ := right
    exact .inr ⟨x, rfl⟩

/-- The pairs that were decided, which are the answer if nothing is filled in, make the formula true
in every way to complete them, and so does the filled answer whatever value it is filled with. -/
theorem extensions_satisfy {clock : Nat → Float} {f : Formula V} {options : Options}
    {r : Result V} (h : (f.solve clock options).outcome = .ok r)
    (hs : r.status = .satisfiable) :
    ∃ decided : Assignment V,
      (f.solve clock { options with fillUnconstrained := false }).outcome =
        .ok { r with assignment := decided } ∧
      r.assignment = (if options.fillUnconstrained then f.complete options decided else decided) ∧
      (∀ total : Assignment V, total.Covers f.clauses → total.Extends decided →
        f.evaluate total = .ok true) ∧
      ∀ value, f.evaluate (f.complete { options with defaultValue := value } decided) =
        .ok true := by
  obtain ⟨decided, hv, right, hfilled⟩ := decides_of_satisfiable h hs
  refine ⟨decided, ?_, hfilled, fun total covers keeps => evaluate_of_extends right covers keeps,
    fun value => evaluate_complete _ right⟩
  have bare : f.explored clock { options with fillUnconstrained := false } =
      f.explored clock options := rfl
  rw [solve_outcome, bare]
  unfold unchecked
  rw [hv, ← hs, ← stats_of_outcome h]
  rfl

/-- Exactly one of two variables, written with a repeated literal; beside it a tautology, and lists
of variables that no longer fit the clauses. -/
def eitherOr : Formula Nat where
  clauses := [[⟨1, true⟩, ⟨1, true⟩, ⟨2, true⟩], [⟨1, false⟩, ⟨2, false⟩], [⟨3, true⟩, ⟨3, false⟩]]
  vars := [2, 2]
  declared := [9]

/-- One decision settles both variables; the others are filled in, the declared one first. -/
theorem eitherOr_outcome : (eitherOr.solve callClock {}).outcome =
    .ok ⟨.satisfiable, [(1, false), (2, true), (9, false), (3, false)], ⟨2, 1, 0, 1⟩⟩ :=
  eq_ok_of_toOption (by decide +kernel)

theorem eitherOr_extensions_satisfy :
    (eitherOr.solve callClock { verify := false }).outcome =
        .ok ⟨.satisfiable, [(1, false), (2, true), (9, false), (3, false)], ⟨2, 1, 0, 1⟩⟩ ∧
      ∃ decided : Assignment Nat,
        (eitherOr.solve callClock { verify := false, fillUnconstrained := false }).outcome =
          .ok ⟨.satisfiable, decided, ⟨2, 1, 0, 1⟩⟩ ∧
        [(1, false), (2, true), (9, false), (3, false)] =
          eitherOr.complete { verify := false } decided ∧
        (∀ total : Assignment Nat, total.Covers eitherOr.clauses → total.Extends decided →
          eitherOr.evaluate total = .ok true) ∧
        ∀ value, eitherOr.evaluate
          (eitherOr.complete { verify := false, defaultValue := value } decided) = .ok true :=
  have solved := eq_ok_of_toOption (by decide +kernel)
  ⟨solved, extensions_satisfy solved rfl⟩

/-- Without a budget there is a result, and it is unsatisfiable exactly if no valuation satisfies
the clauses. Then its assignment is empty and every assignment that covers the formula makes it
false. -/
theorem solve_complete {clock : Nat → Float} {f : Formula V} {options : Options}
    (decisions : options.maxDecisions = none) (time : options.timeout = none) :
    ∃ r, (f.solve clock options).outcome = .ok r ∧
      (r.status = .unsatisfiable ↔ ∀ a : Valuation V, ¬ a.Satisfies f.clauses) ∧
      (r.status = .unsatisfiable → r.assignment = [] ∧
        ∀ total : Assignment V, total.Covers f.clauses → f.evaluate total = .ok false) := by
  obtain ⟨r, h⟩ : ∃ r, (f.solve clock options).outcome = .ok r := exists_result decisions time
  refine ⟨r, h, ⟨fun hs => (not_satisfies_of_unsatisfiable h hs).2, ?_⟩, ?_⟩
  · intro none
    cases hs : r.status with
    | unsatisfiable => rfl
    | satisfiable =>
      obtain ⟨a, ha⟩ := (satisfiable_iff h).mp hs
      exact absurd ha (none a)
  · intro hs
    obtain ⟨empty, none⟩ := not_satisfies_of_unsatisfiable h hs
    refine ⟨empty, ?_⟩
    intro total covers
    have value := evaluate_of_covers covers
    cases ht : f.clauses.all (fun c => c.any (Literal.trueUnder total)) with
    | false => rw [value, ht]
    | true =>
      rw [ht] at value
      exact absurd ((evaluate_eq_true_iff covers).mp value) (none _)

/-- Two variables that may not have any values. The literals are repeated, so that no clause is a
unit clause. -/
def contrary : Formula Nat where
  clauses := [[⟨1, true⟩, ⟨1, true⟩, ⟨2, true⟩], [⟨1, true⟩, ⟨1, true⟩, ⟨2, false⟩],
    [⟨1, false⟩, ⟨1, false⟩, ⟨2, true⟩], [⟨1, false⟩, ⟨1, false⟩, ⟨2, false⟩]]
  vars := []
  declared := []

/-- Every value of the first variable has to be refuted by both values of the second. -/
theorem contrary_outcome : (contrary.solve callClock { dropTautologies := false }).outcome =
    .ok ⟨.unsatisfiable, [], ⟨7, 3, 3, 2⟩⟩ :=
  eq_ok_of_toOption (by decide +kernel)

theorem contrary_solve_complete :
    ({ dropTautologies := false } : Options).maxDecisions = none ∧
      ({ dropTautologies := false } : Options).timeout = none ∧
      ∃ r, (contrary.solve callClock { dropTautologies := false }).outcome = .ok r ∧
        (r.status = .unsatisfiable ↔ ∀ a : Valuation Nat, ¬ a.Satisfies contrary.clauses) ∧
        (r.status = .unsatisfiable → r.assignment = [] ∧ ∀ total : Assignment Nat,
          total.Covers contrary.clauses → contrary.evaluate total = .ok false) :=
  ⟨rfl, rfl, solve_complete rfl rfl⟩

end Formula
end Clausal
