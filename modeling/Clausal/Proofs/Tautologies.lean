import Clausal.Proofs.Polarities
import Clausal.Solve

namespace Clausal

variable {V : Type} [BEq V]

/-- Whether no variable of the list occurs in the clause with both signs. -/
def Clause.plainIn (vs : List V) (c : Clause V) : Bool :=
  vs.all (fun v => c.polarity v ≠ .mixed)

/-- A clause that holds a variable with both signs is true under every valuation. -/
theorem Valuation.satisfies_of_mixed {c : Clause V} {v : V} (h : c.polarity v = .mixed)
    (a : Valuation V) : ∃ l ∈ c, l.sign = a.value l.var := by
  have both := Polarity.eq_mixed_iff.mp h (a.value v)
  obtain ⟨l, hl, hv, hs⟩ := Clause.polarity_includes_iff.mp both
  exact ⟨l, hl, by rw [hs, a.congr hv]⟩

theorem polarityPass_snd (v : V) (pol : Polarity) (cs : List (Clause V)) :
    (polarityPass v pol cs).2 = cs.filter (Clause.plainIn [v]) := by
  induction cs generalizing pol with
  | nil => rfl
  | cons c cs ih =>
    simp only [polarityPass, List.filter_cons]
    split
    · rename_i hm
      simp [Clause.plainIn, hm, ih]
    · rename_i hm
      have hm : c.polarity v ≠ .mixed := hm
      simp [Clause.plainIn, hm, ih]

namespace Formula

theorem variablePolarity_clauses (f : Formula V) (v : V) :
    (f.variablePolarity v).2.clauses = f.clauses.filter (Clause.plainIn [v]) := by
  rw [← polarityPass_snd v .unknown]
  unfold variablePolarity
  cases hp : polarityPass v .unknown f.clauses with
  | mk pol clauses =>
    simp only
    split
    · rename_i hlen
      have hs : clauses = f.clauses.filter (Clause.plainIn [v]) := by
        rw [← polarityPass_snd v .unknown, hp]
      have sub : clauses.Sublist f.clauses := hs ▸ List.filter_sublist
      exact (sub.eq_of_length hlen).symm
    · rfl

/-- The order of the declared variables does not matter. -/
theorem eliminateTautologies_clauses (f : Formula V) :
    f.eliminateTautologies.clauses = f.clauses.filter (Clause.plainIn f.declared) := by
  have passes (vs : List V) (g : Formula V) :
      (vs.foldl (fun g v => (g.variablePolarity v).2) g).clauses =
        g.clauses.filter (Clause.plainIn vs) := by
    induction vs generalizing g with
    | nil => exact (List.filter_eq_self.mpr fun _ _ => rfl).symm
    | cons v vs ih =>
      rw [List.foldl_cons, ih, variablePolarity_clauses, List.filter_filter]
      apply List.filter_congr
      intro c _
      simp [Clause.plainIn, Bool.and_comm]
  exact passes f.declared f

theorem satisfies_eliminateTautologies (f : Formula V) (a : Valuation V) :
    a.Satisfies f.eliminateTautologies.clauses ↔ a.Satisfies f.clauses := by
  rw [eliminateTautologies_clauses]
  constructor
  · intro h c hc
    cases hp : c.plainIn f.declared with
    | true => exact h c (List.mem_filter.mpr ⟨hc, hp⟩)
    | false =>
      obtain ⟨v, -, hm⟩ := List.all_eq_false.mp hp
      exact Valuation.satisfies_of_mixed (by simpa using hm) a
  · exact fun h => h.of_subset fun _ hc => (List.mem_filter.mp hc).1

theorem eliminateTautologies_sublist (f : Formula V) :
    f.eliminateTautologies.clauses.Sublist f.clauses := by
  rw [eliminateTautologies_clauses]
  exact List.filter_sublist

theorem prepare_sublist (f : Formula V) (options : Options) :
    (f.prepare options).1.clauses.Sublist f.clauses := by
  unfold prepare
  cases options.dropTautologies with
  | false => exact .refl _
  | true => exact f.copy.reconcile.eliminateTautologies_sublist

theorem occurs_prepare {f : Formula V} {options : Options} {v : V}
    (h : Occurs (f.prepare options).1.clauses v) : Occurs f.clauses v :=
  h.of_sublist (f.prepare_sublist options)

/-- Preparation neither adds a model nor loses one. -/
theorem satisfies_prepare {f : Formula V} {options : Options} {a : Valuation V} :
    a.Satisfies (f.prepare options).1.clauses ↔ a.Satisfies f.clauses := by
  unfold prepare
  cases options.dropTautologies with
  | false => exact Iff.rfl
  | true => exact satisfies_eliminateTautologies f.copy.reconcile a

end Formula
end Clausal
