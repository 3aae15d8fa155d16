import Clausal.Proofs.Bookkeeping
import Clausal.Proofs.Depth
import Clausal.Proofs.Evaluation

namespace Clausal

variable {V : Type} [BEq V] [EquivBEq V] {f : Formula V}

namespace Formula

omit [BEq V] [EquivBEq V] in
theorem no_empty_iff : (!f.hasEmptyClause) = true ↔ [] ∉ f.clauses := by
  rw [Bool.not_eq_true', ← Bool.not_eq_true, hasEmptyClause_iff]

theorem evaluate_signs (consistent : f.polarities.isConsistent = true) :
    f.evaluate f.polarities.assignment = .ok (!f.hasEmptyClause) := by
  refine evaluate_eq_ok_iff.mpr ⟨f.covers_assignment, no_empty_iff.trans ?_⟩
  constructor
  · intro no_empty
    have truth := evaluate_of_consistent consistent no_empty
    exact (evaluate_eq_ok_iff.mp truth).2.mp rfl
  · intro meets empty
    obtain ⟨l, hl, -⟩ := meets [] empty
    cases hl

theorem examine_of_consistent (consistent : f.polarities.isConsistent = true) :
    f.examine =
      ([], .settled (if f.hasEmptyClause then .refuted
        else .satisfied f.polarities.assignment)) := by
  rw [examine_eq, if_pos consistent]
  split <;> rfl

theorem expand_of_consistent (consistent : f.polarities.isConsistent = true) :
    f.expand = (f.copyReport,
      .settled (if f.hasEmptyClause then .refuted else .satisfied f.polarities.assignment)) := by
  rw [expand, examine_of_consistent (f := f.copy) consistent]
  exact congrArg (·, _) (List.append_nil f.copyReport)

theorem not_childOf_of_consistent (consistent : f.polarities.isConsistent = true) (g : Formula V) :
    ¬ ChildOf g f := by
  rintro ⟨events, decided, rest, v, sign, split, -⟩
  rw [expand_of_consistent consistent] at split
  cases split

/-- What preparation hands to the search, or a split to a further call of it. -/
def HandedDown (f : Formula V) : Prop :=
  (∃ g options, f = (prepare g options).1) ∨ ∃ g, ChildOf f g

theorem HandedDown.covered (h : f.HandedDown) : f.Covered := by
  obtain ⟨g, options, rfl⟩ | ⟨g, events, decided, rest, v, sign, split, rfl⟩ := h
  · exact (coherent_prepare g options).listed.covered
  · exact covered_of_split split sign

end Formula

theorem search_of_consistent {budget : Budget} {stats : Stats}
    (consistent : f.polarities.isConsistent = true) (within : budget.exhausted? stats = none)
    (depth : Nat) :
    search budget depth f stats =
      ⟨if f.hasEmptyClause then .refuted else .satisfied f.polarities.assignment,
        stats.enter depth, f.copyReport⟩ :=
  search_of_settled within (Formula.expand_of_consistent consistent)

/-- Also where the budget ends the search, nothing is decided and nothing more reported. -/
theorem search_quiet (consistent : f.polarities.isConsistent = true) (budget : Budget) (depth : Nat)
    (stats : Stats) :
    (search budget depth f stats).stats.decisions = stats.decisions ∧
      (search budget depth f stats).events ⊆ f.copyReport := by
  cases spent : budget.exhausted? stats with
  | some x =>
    rw [search_of_exhausted spent]
    exact ⟨rfl, List.nil_subset _⟩
  | none =>
    rw [search_of_consistent consistent spent]
    exact ⟨rfl, List.Subset.refl _⟩

namespace Formula

/-- Under consistent signs evaluation never lacks a value, and is true exactly if no clause is
empty. The evaluation of a node without empty clauses succeeds, and the node has found its answer.
No search branches here: it decides nothing, it reports no more than its copy does, which is nothing
for what preparation and splits hand down, and within its budget its verdict hangs on an empty
clause alone. -/
theorem consistent_signs_settle (f : Formula V) (consistent : f.polarities.isConsistent = true) :
    (∃ b, f.evaluate f.polarities.assignment = .ok b ∧ (b = true ↔ [] ∉ f.clauses)) ∧
    ([] ∉ f.clauses → f.copy.evaluate f.copy.polarities.assignment = .ok true ∧
      f.expand = (f.copyReport, .settled (.satisfied f.polarities.assignment))) ∧
    (∀ g, ¬ ChildOf g f) ∧
    ∀ budget depth stats,
      (search budget depth f stats).stats.decisions = stats.decisions ∧
      (search budget depth f stats).events ⊆ f.copyReport ∧
      (f.HandedDown → (search budget depth f stats).events = []) ∧
      (budget.exhausted? stats = none →
        search budget depth f stats =
          ⟨if f.hasEmptyClause then .refuted else .satisfied f.polarities.assignment,
            stats.enter depth, f.copyReport⟩) := by
  refine ⟨⟨!f.hasEmptyClause, evaluate_signs consistent, no_empty_iff⟩, ?_,
    not_childOf_of_consistent consistent, fun budget depth stats => ?_⟩
  · intro no_empty
    refine ⟨evaluate_of_consistent (f := f.copy) consistent no_empty, ?_⟩
    rw [expand_of_consistent consistent, if_neg (mt hasEmptyClause_iff.mp no_empty)]
  · obtain ⟨decisions, events⟩ := search_quiet consistent budget depth stats
    refine ⟨decisions, events, ?_, fun within => search_of_consistent consistent within depth⟩
    intro handed
    rw [copyReport_eq_nil.mpr handed.covered] at events
    exact List.subset_nil.mp events

/-- A variable in two forms, always with the same sign. -/
def oneSign : Formula Variable where
  clauses := [[⟨.number 1, true⟩, ⟨.text "a", false⟩], [⟨.text "a", false⟩, ⟨.truth true, true⟩]]
  vars := []
  declared := []

theorem oneSign_consistent_signs_settle :
    oneSign.polarities.isConsistent = true ∧ [] ∉ oneSign.clauses ∧
      oneSign.expand = ([.undeclared [.number 1, .text "a"]],
        .settled (.satisfied [(.number 1, true), (.text "a", false)])) ∧
      search ⟨some 0, none, callClock⟩ 0 oneSign {} =
        ⟨.satisfied [(.number 1, true), (.text "a", false)], { calls := 1 },
          [.undeclared [.number 1, .text "a"]]⟩ ∧
      (search ⟨some 0, none, callClock⟩ 0 (oneSign.prepare {}).1 {}).events = [] ∧
      search ⟨some 0, none, callClock⟩ 0 (⟨[] :: oneSign.clauses, [], []⟩ : Formula Variable) {} =
        ⟨.refuted, { calls := 1 }, [.undeclared [.number 1, .text "a"]]⟩ := by
  have consistent : oneSign.polarities.isConsistent = true := by decide
  have no_empty : [] ∉ oneSign.clauses := by simp [oneSign]
  have within : Budget.exhausted? ⟨some 0, none, callClock⟩ {} = none := rfl
  obtain ⟨-, answered, -, searched⟩ := consistent_signs_settle oneSign consistent
  obtain ⟨-, -, -, prepared⟩ := consistent_signs_settle (oneSign.prepare {}).1 (by decide)
  obtain ⟨-, -, -, refuted⟩ := consistent_signs_settle ⟨[] :: oneSign.clauses, [], []⟩ consistent
  exact ⟨consistent, no_empty, (answered no_empty).2, (searched _ 0 _).2.2.2 within,
    (prepared _ _ _).2.2.1 (.inl ⟨oneSign, {}, rfl⟩), (refuted _ 0 _).2.2.2 within⟩

end Formula
end Clausal
