import Clausal.Proofs.Completion

namespace Clausal

variable {V : Type} [BEq V]

namespace Formula

variable [EquivBEq V] {f : Formula V} {options : Options} {decided : Assignment V}

theorem complete_eq_append (f : Formula V) (options : Options) (decided : Assignment V) :
    ∃ filler : Assignment V, f.complete options decided = decided ++ filler ∧
      NoRepeat (filler.map Prod.fst) ∧ (∀ p ∈ filler, p.2 = options.defaultValue) ∧
      ∀ v, (filler.map Prod.fst).contains v = true ↔
        (f.declared.contains v = true ∨ Occurs f.clauses v) ∧
          (decided.map Prod.fst).contains v = false := by
  refine ⟨_, rfl, ?_, ?_, ?_⟩
  · rw [List.map_map, Function.comp_def, List.map_id']
    exact (pairwise_distinct _).filter _
  · intro p hp
    obtain ⟨v, -, rfl⟩ := List.mem_map.mp hp
    rfl
  · intro v
    rw [List.map_map, Function.comp_def, List.map_id', contains_unconstrained,
      ← variablesOf_contains]
    simp [freeVariables]

omit [EquivBEq V] in
theorem outcome_solveBy (f : Formula V) (options : Options) (answer : Formula V → Explored V) :
    (f.solveBy answer options).outcome =
      (f.conclude options (answer (f.prepare options).1)).outcome :=
  rfl

/-- The check finds a value for every variable, and objects to a clause that is false. -/
theorem conclude_satisfied {found : Explored V} (verify : options.verify = true)
    (h : found.verdict = .satisfied decided) :
    (f.conclude options found).outcome =
      if (f.complete options decided).Falsifies f.clauses then
        .error (.invalid (f.complete options decided))
      else .ok ⟨.satisfiable, if options.fillUnconstrained then f.complete options decided
        else decided, found.stats⟩ := by
  have covers := f.complete_covers options decided
  have objection := evaluate_eq_false_iff covers
  obtain ⟨b, value⟩ : ∃ b, f.evaluate (f.complete options decided) = .ok b :=
    ⟨_, evaluate_of_covers covers⟩
  rw [value, Except.ok.injEq] at objection
  unfold conclude
  cases b with
  | false => simp only [h, verify, ↓reduceIte, value, if_pos (objection.mp rfl)]
  | true =>
    have sound : ¬ (f.complete options decided).Falsifies f.clauses := by
      rw [← objection]
      decide
    simp only [h, verify, ↓reduceIte, value, if_neg sound]

/-- If answers are checked, whatever pairs a search comes up with are completed, with the default
value of each variable that is declared or occurs and was not decided, and then refused if some
clause is false by the last values of its variables, and given out otherwise. No variable is ever
found without a value. If answers are filled in, each one that is given out makes every clause
true. -/
theorem answers_checked (f : Formula V) {options : Options} (verify : options.verify = true) :
    (∀ (answer : Formula V → Explored V) (decided : Assignment V),
      (answer (f.prepare options).1).verdict = .satisfied decided →
      (∃ filler : Assignment V, f.complete options decided = decided ++ filler ∧
        NoRepeat (filler.map Prod.fst) ∧ (∀ p ∈ filler, p.2 = options.defaultValue) ∧
        ∀ v, (filler.map Prod.fst).contains v = true ↔
          (f.declared.contains v = true ∨ Occurs f.clauses v) ∧
            (decided.map Prod.fst).contains v = false) ∧
      (∀ v, (f.solveBy answer options).outcome ≠ .error (.unassigned v)) ∧
      (∀ pairs, (f.solveBy answer options).outcome = .error (.invalid pairs) ↔
        pairs = f.complete options decided ∧ pairs.Falsifies f.clauses) ∧
      (¬ (f.complete options decided).Falsifies f.clauses →
        (f.solveBy answer options).outcome = .ok ⟨.satisfiable,
          if options.fillUnconstrained then f.complete options decided else decided,
          (answer (f.prepare options).1).stats⟩)) ∧
      (options.fillUnconstrained = true → ∀ (answer : Formula V → Explored V) (r : Result V),
        (f.solveBy answer options).outcome = .ok r → r.status = .satisfiable →
          f.evaluate r.assignment = .ok true ∧
            ∀ c ∈ f.clauses, ∃ l ∈ c, r.assignment.LastIs l.var l.sign) := by
  constructor
  · intro answer decided found
    have outcome := outcome_solveBy f options answer
    rw [conclude_satisfied verify found] at outcome
    refine ⟨f.complete_eq_append options decided, ?_, ?_, ?_⟩
    · intro v
      rw [outcome]
      split <;> simp
    · intro pairs
      rw [outcome]
      split
      · rename_i falsified
        rw [Except.error.injEq, SolveError.invalid.injEq]
        exact ⟨fun same => ⟨same.symm, same ▸ falsified⟩, fun h => h.1.symm⟩
      · rename_i sound
        exact iff_of_false (by simp) fun h => sound (h.1 ▸ h.2)
    · intro sound
      rw [outcome, if_neg sound]
  · intro fill answer r outcome satisfiable
    rw [outcome_solveBy] at outcome
    cases verdict : (answer (f.prepare options).1).verdict with
    | failed e =>
      rw [conclude, verdict] at outcome
      cases outcome
    | refuted =>
      rw [conclude, verdict] at outcome
      cases outcome
      cases satisfiable
    | satisfied decided =>
      have covers := f.complete_covers options decided
      rw [conclude_satisfied verify verdict, fill] at outcome
      split at outcome
      · cases outcome
      · rename_i sound
        cases outcome
        exact ⟨evaluate_of_not_falsifies covers sound, covers.literal_of_not_falsifies sound⟩

/-- Pairs that say of the second variable first that it is true, as the clauses want, and then that
it is false; the first variable is missing, and one that occurs nowhere is there. -/
def contradictory (last : Bool) : Assignment Nat :=
  [(2, true), (7, true), (2, last)]

theorem eitherOr_answers_checked :
    ({} : Options).verify = true ∧ ({} : Options).fillUnconstrained = true ∧
      (eitherOr.solveBy (fun _ => ⟨.satisfied (contradictory false), {}, []⟩) {}).outcome =
        .error (.invalid (contradictory false ++ [(9, false), (1, false), (3, false)])) ∧
      (eitherOr.solveBy (fun _ => ⟨.satisfied (contradictory true), {}, []⟩) {}).outcome =
        .ok ⟨.satisfiable, contradictory true ++ [(9, false), (1, false), (3, false)], {}⟩ ∧
      ∀ c ∈ eitherOr.clauses, ∃ l ∈ c, Assignment.LastIs
        (contradictory true ++ [(9, false), (1, false), (3, false)]) l.var l.sign := by
  obtain ⟨checked, given⟩ := answers_checked eitherOr (rfl : ({} : Options).verify = true)
  have answered :
      (eitherOr.solveBy (fun _ => ⟨.satisfied (contradictory true), {}, []⟩) {}).outcome =
        .ok ⟨.satisfiable, contradictory true ++ [(9, false), (1, false), (3, false)], {}⟩ :=
    (checked _ (contradictory true) rfl).2.2.2 (by decide)
  refine ⟨rfl, rfl, ?_, answered, (given rfl _ _ answered rfl).2⟩
  exact ((checked _ (contradictory false) rfl).2.2.1 _).mpr ⟨by decide, by decide⟩

end Formula
end Clausal
