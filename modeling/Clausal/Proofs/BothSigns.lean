import Clausal.Proofs.Answers
import Clausal.Proofs.Bookkeeping
import Clausal.Session.Edit

namespace Clausal

variable {V : Type} [BEq V]

/-- The variable occurs in the clause with both signs. -/
def Clause.HasBoth (c : Clause V) (v : V) : Prop :=
  ∀ sign, ∃ l ∈ c, (l.var == v) = true ∧ l.sign = sign

instance (c : Clause V) (v : V) : Decidable (c.HasBoth v) :=
  inferInstanceAs (Decidable (∀ sign, ∃ l ∈ c, (l.var == v) = true ∧ l.sign = sign))

theorem Clause.polarity_eq_mixed_iff {c : Clause V} {v : V} :
    c.polarity v = .mixed ↔ c.HasBoth v :=
  Polarity.eq_mixed_iff.trans (forall_congr' fun _ => polarity_includes_iff)

theorem Clause.plainIn_iff {c : Clause V} {vs : List V} :
    c.plainIn vs = true ↔ ∀ v ∈ vs, ¬ c.HasBoth v := by
  simp [plainIn, polarity_eq_mixed_iff]

theorem Clause.HasBoth.congr [EquivBEq V] {c : Clause V} {v w : V} (h : c.HasBoth v)
    (same : (v == w) = true) : c.HasBoth w := by
  intro sign
  obtain ⟨l, hl, hv, hs⟩ := h sign
  exact ⟨l, hl, BEq.trans hv same, hs⟩

namespace Formula

theorem eliminateTautologies_eq_filter (f : Formula V) :
    f.eliminateTautologies.clauses =
      f.clauses.filter (fun c => ∀ v ∈ f.declared, ¬ c.HasBoth v) := by
  rw [eliminateTautologies_clauses]
  apply List.filter_congr
  intro c _
  rw [Bool.eq_iff_iff, Clause.plainIn_iff, decide_eq_true_iff]

theorem declared_variablePolarity (f : Formula V) (v : V) :
    (f.variablePolarity v).2.declared = f.declared := by
  unfold variablePolarity
  dsimp only
  split <;> rfl

theorem declared_eliminateTautologies (f : Formula V) :
    f.eliminateTautologies.declared = f.declared := by
  have passes (vs : List V) (g : Formula V) :
      (vs.foldl (fun g v => (g.variablePolarity v).2) g).declared = g.declared := by
    induction vs generalizing g with
    | nil => rfl
    | cons v vs ih => rw [List.foldl_cons, ih, declared_variablePolarity]
  exact passes f.declared f

/-- A pass that finds nothing to drop leaves the lists of variables alone as well. -/
theorem variablePolarity_of_plain {f : Formula V} {v : V} (plain : ∀ c ∈ f.clauses, ¬ c.HasBoth v) :
    (f.variablePolarity v).2 = f := by
  have all : (polarityPass v .unknown f.clauses).2 = f.clauses := by
    rw [polarityPass_snd]
    apply List.filter_eq_self.mpr
    intro c hc
    apply Clause.plainIn_iff.mpr
    intro w hw
    rw [List.mem_singleton.mp hw]
    exact plain c hc
  unfold variablePolarity
  dsimp only
  rw [if_pos (congrArg List.length all)]

theorem eliminateTautologies_of_plain {f : Formula V}
    (plain : ∀ c ∈ f.clauses, ∀ v ∈ f.declared, ¬ c.HasBoth v) : f.eliminateTautologies = f := by
  have passes (vs : List V) (known : ∀ v ∈ vs, v ∈ f.declared) :
      vs.foldl (fun g v => (g.variablePolarity v).2) f = f := by
    induction vs with
    | nil => rfl
    | cons v vs ih =>
      obtain ⟨hv, hvs⟩ := List.forall_mem_cons.mp known
      rw [List.foldl_cons, variablePolarity_of_plain fun c hc => plain c hc v hv, ih hvs]
  exact passes f.declared fun _ => id

theorem plain_eliminateTautologies {f : Formula V} {c : Clause V}
    (hc : c ∈ f.eliminateTautologies.clauses) {v : V} (hv : v ∈ f.declared) : ¬ c.HasBoth v := by
  rw [eliminateTautologies_eq_filter] at hc
  exact of_decide_eq_true (List.mem_filter.mp hc).2 v hv

theorem eliminateTautologies_idem (f : Formula V) :
    f.eliminateTautologies.eliminateTautologies = f.eliminateTautologies := by
  apply eliminateTautologies_of_plain
  intro c hc v hv
  rw [declared_eliminateTautologies] at hv
  exact plain_eliminateTautologies hc hv

theorem unknownVariables_eq_filter [EquivBEq V] (f : Formula V) :
    f.unknownVariables = f.declared.filter (fun v => ¬ Occurs f.clauses v) := by
  apply List.filter_congr
  intro v _
  rw [Bool.eq_iff_iff, decide_eq_true_iff, ← variablesOf_contains, Bool.not_eq_true', freeVariables,
    Bool.not_eq_true]

variable [EquivBEq V]

/-- The clauses with both signs of a declared variable go; the others stay, in order, whatever the
order of the declared variables, and so does the truth under every assignment that covers the
formula. A second time nothing is done. If all that occurs is declared, as in the formula that a
search is prepared from, no clause with both signs of any variable is left. What is answered are the
declared variables that occurred nowhere. -/
theorem tautologies_dropped (f : Formula V) :
    f.eliminateTautologies.clauses =
        f.clauses.filter (fun c => ∀ v ∈ f.declared, ¬ c.HasBoth v) ∧
      (∀ order : List V, order.Perm f.declared →
        ({ f with declared := order } : Formula V).eliminateTautologies.clauses =
          f.eliminateTautologies.clauses) ∧
      (∀ pairs : Assignment V, pairs.Covers f.clauses →
        ∃ b, f.evaluate pairs = .ok b ∧ f.eliminateTautologies.evaluate pairs = .ok b) ∧
      f.eliminateTautologies.eliminateTautologies = f.eliminateTautologies ∧
      ((∀ v, Occurs f.clauses v → f.declared.contains v = true) →
        ∀ c ∈ f.eliminateTautologies.clauses, ∀ v, ¬ c.HasBoth v) ∧
      (∀ options : Options, options.dropTautologies = true →
        ∃ g : Formula V, (f.prepare options).1 = g.eliminateTautologies ∧ g.clauses = f.clauses ∧
          ∀ v, Occurs g.clauses v → g.declared.contains v = true) ∧
      f.unknownVariables = f.declared.filter (fun v => ¬ Occurs f.clauses v) ∧
      ∀ g : Formula Variable, Session.Edit.run g .eliminateTautologies =
        ⟨g.eliminateTautologies, .ok (.vars (g.declared.filter (fun v => ¬ Occurs g.clauses v))),
          g.unknownReport⟩ := by
  refine ⟨f.eliminateTautologies_eq_filter, ?_, ?_, f.eliminateTautologies_idem, ?_, ?_,
    f.unknownVariables_eq_filter, ?_⟩
  · intro order perm
    rw [eliminateTautologies_eq_filter, eliminateTautologies_eq_filter]
    apply List.filter_congr
    intro c _
    simp only [perm.mem_iff]
  · intro pairs covers
    have kept : pairs.Covers f.eliminateTautologies.clauses :=
      fun v hv => covers v (hv.of_sublist f.eliminateTautologies_sublist)
    refine ⟨_, evaluate_of_covers covers, ?_⟩
    rw [← evaluate_of_covers covers]
    exact evaluate_eq_of_satisfies_iff kept covers (satisfies_eliminateTautologies f _)
  · intro covers c hc v both
    have occurs : Occurs f.clauses v := by
      obtain ⟨l, hl, hv, -⟩ := both true
      exact ⟨c, f.eliminateTautologies_sublist.mem hc, l, hl, hv⟩
    obtain ⟨w, hw, same⟩ := List.contains_iff_exists_mem_beq.mp (covers v occurs)
    exact plain_eliminateTautologies hc hw (both.congr same)
  · intro options drop
    refine ⟨f.copy.reconcile, ?_, rfl, fun v => (coherent_copy_reconcile f).declares_occurs⟩
    simp only [prepare, drop, ↓reduceIte]
  · intro g
    rw [← unknownVariables_eq_filter]
    rfl

/-- A variable that is written as a number and as a truth value, with both signs; a text with both
signs beside a number; and a declared variable that occurs nowhere. -/
def twoWays : Formula Variable :=
  .ofClauses [[⟨.number 1, true⟩, ⟨.truth true, false⟩], [⟨.number 2, false⟩, ⟨.number 1, true⟩],
    [⟨.text "a", false⟩, ⟨.number 2, true⟩, ⟨.text "a", true⟩]] (some [.empty, .text "a"])

theorem twoWays_tautologies_dropped :
    (∀ v, Occurs twoWays.clauses v → twoWays.declared.contains v = true) ∧
      twoWays.eliminateTautologies.clauses = [[⟨.number 2, false⟩, ⟨.number 1, true⟩]] ∧
      (∀ c ∈ twoWays.eliminateTautologies.clauses, ∀ v, ¬ c.HasBoth v) ∧
      Assignment.Covers (twoWays.complete {} []) twoWays.clauses ∧
      (∃ b, twoWays.evaluate (twoWays.complete {} []) = .ok b ∧
        twoWays.eliminateTautologies.evaluate (twoWays.complete {} []) = .ok b) ∧
      twoWays.unknownVariables = [.empty] := by
  have covers (v : Variable) (hv : Occurs twoWays.clauses v) :
      twoWays.declared.contains v = true :=
    (coherent_build _ _ none).declares_occurs hv
  have total := twoWays.complete_covers {} []
  obtain ⟨left, -, truth, -, plain, -, unknown, -⟩ := tautologies_dropped twoWays
  exact ⟨covers, left, plain covers, total, truth _ total, unknown⟩

end Formula
end Clausal
