import Clausal.Proofs.BothSigns
import Clausal.Proofs.Evaluation

namespace Clausal

namespace Polarity

/-- The join of some polarities, one after another. -/
def joinAll (pols : List Polarity) : Polarity :=
  pols.foldl join unknown

theorem eq_of_includes {p q : Polarity}
    (same : ∀ sign, p.includes sign = true ↔ q.includes sign = true) : p = q := by
  revert same
  cases p <;> cases q <;> decide

theorem eq_unknown_iff {p : Polarity} : p = unknown ↔ ∀ sign, ¬ p.includes sign = true := by
  cases p <;> decide

theorem eq_positive_iff {p : Polarity} :
    p = positive ↔ p.includes true = true ∧ ¬ p.includes false = true := by
  cases p <;> decide

theorem eq_negative_iff {p : Polarity} :
    p = negative ↔ p.includes false = true ∧ ¬ p.includes true = true := by
  cases p <;> decide

theorem includes_foldl_join (pols : List Polarity) (p : Polarity) (sign : Bool) :
    (pols.foldl join p).includes sign = (p.includes sign || pols.any (·.includes sign)) := by
  induction pols generalizing p with
  | nil => simp
  | cons q pols ih => rw [List.foldl_cons, ih, includes_join, List.any_cons, Bool.or_assoc]

theorem includes_joinAll (pols : List Polarity) (sign : Bool) :
    (joinAll pols).includes sign = pols.any (·.includes sign) := by
  rw [joinAll, includes_foldl_join, includes_unknown, Bool.false_or]

end Polarity

variable {V : Type} [BEq V]

def OccursAs (cs : List (Clause V)) (v : V) (sign : Bool) : Prop :=
  ∃ c ∈ cs, ∃ l ∈ c, (l.var == v) = true ∧ l.sign = sign

instance (cs : List (Clause V)) (v : V) (sign : Bool) : Decidable (OccursAs cs v sign) :=
  inferInstanceAs (Decidable (∃ c ∈ cs, ∃ l ∈ c, (l.var == v) = true ∧ l.sign = sign))

theorem includes_joinAll_polarity {cs : List (Clause V)} {v : V} {sign : Bool} :
    (Polarity.joinAll (cs.map (Clause.polarity v))).includes sign = true ↔ OccursAs cs v sign := by
  rw [Polarity.includes_joinAll, List.any_map, List.any_eq_true]
  simp only [Function.comp_apply, Clause.polarity_includes_iff, OccursAs]

/-- The pass joins the looks at the clauses that it keeps. -/
theorem polarityPass_fst (v : V) (pol : Polarity) (cs : List (Clause V)) :
    (polarityPass v pol cs).1 =
      ((polarityPass v pol cs).2.map (Clause.polarity v)).foldl Polarity.join pol := by
  induction cs generalizing pol with
  | nil => rfl
  | cons c cs ih =>
    simp only [polarityPass]
    split
    · exact ih pol
    · rw [List.map_cons, List.foldl_cons]
      exact ih _

namespace Formula

/-- What the table says of a variable; one that it does not list has no sign. -/
def polarityOf (f : Formula V) (v : V) : Polarity :=
  (find? f.polarities v).getD .unknown

theorem variablePolarity_eq_filter (f : Formula V) (v : V) :
    (f.variablePolarity v).2.clauses = f.clauses.filter (fun c => ¬ c.HasBoth v) := by
  rw [variablePolarity_clauses]
  apply List.filter_congr
  intro c _
  rw [Bool.eq_iff_iff, Clause.plainIn_iff, decide_eq_true_iff]
  simp

theorem variablePolarity_fst (f : Formula V) (v : V) :
    (f.variablePolarity v).1 =
      .joinAll ((f.variablePolarity v).2.clauses.map (Clause.polarity v)) := by
  have pass : (f.variablePolarity v).1 = (polarityPass v .unknown f.clauses).1 := by
    unfold variablePolarity
    dsimp only
    split <;> rfl
  rw [pass, polarityPass_fst, polarityPass_snd, variablePolarity_clauses, Polarity.joinAll]

variable [EquivBEq V]

theorem includes_polarityOf {f : Formula V} {v : V} {sign : Bool} :
    (f.polarityOf v).includes sign = true ↔ OccursAs f.clauses v sign := by
  rw [polarityOf, find?_polarities, Clause.polarity_includes_iff]
  simp only [List.mem_flatten, OccursAs]
  constructor
  · rintro ⟨l, ⟨c, hc, hl⟩, occurs⟩
    exact ⟨c, hc, l, hl, occurs⟩
  · rintro ⟨c, hc, l, hl, occurs⟩
    exact ⟨l, ⟨c, hc, hl⟩, occurs⟩

/-- The table collects what the single clauses say. -/
theorem polarityOf_eq_joinAll (f : Formula V) (v : V) :
    f.polarityOf v = .joinAll (f.clauses.map (Clause.polarity v)) :=
  Polarity.eq_of_includes fun _ => includes_polarityOf.trans includes_joinAll_polarity.symm

theorem polarityOf_of_shuffled {f g : Formula V} (h : Shuffled f.clauses g.clauses) (v : V) :
    g.polarityOf v = f.polarityOf v := by
  apply Polarity.eq_of_includes
  intro sign
  rw [includes_polarityOf, includes_polarityOf]
  exact h.exists_iff.symm

/-- The table lists the variables in the order in which they occur first. What it says of a
variable, or `unknown` of one that is not listed, is the join of its polarities in the clauses:
`positive`, `negative` or `mixed` exactly if it occurs with one sign only or with both. No order of
clauses and literals changes that. The pass for one variable drops the clauses with both of its
literals, and gives what the table of the rest says of it. -/
theorem polarity_passes_agree (f : Formula V) (v : V) :
    f.polarities.map Prod.fst = f.freeVariables ∧
    f.polarityOf v = .joinAll (f.clauses.map (Clause.polarity v)) ∧
    ((f.polarityOf v = .positive ↔ OccursAs f.clauses v true ∧ ¬ OccursAs f.clauses v false) ∧
      (f.polarityOf v = .negative ↔ OccursAs f.clauses v false ∧ ¬ OccursAs f.clauses v true) ∧
      (f.polarityOf v = .mixed ↔ ∀ sign, OccursAs f.clauses v sign) ∧
      (f.polarityOf v = .unknown ↔ ∀ sign, ¬ OccursAs f.clauses v sign)) ∧
    (∀ g : Formula V, Shuffled f.clauses g.clauses → g.polarityOf v = f.polarityOf v) ∧
    (f.variablePolarity v).2.clauses = f.clauses.filter (fun c => ¬ c.HasBoth v) ∧
    (f.variablePolarity v).1 = (f.variablePolarity v).2.polarityOf v := by
  refine ⟨f.map_fst_polarities, f.polarityOf_eq_joinAll v, ⟨?_, ?_, ?_, ?_⟩,
    fun g shuffled => polarityOf_of_shuffled shuffled v, f.variablePolarity_eq_filter v, ?_⟩
  · rw [Polarity.eq_positive_iff, includes_polarityOf, includes_polarityOf]
  · rw [Polarity.eq_negative_iff, includes_polarityOf, includes_polarityOf]
  · simp only [Polarity.eq_mixed_iff, includes_polarityOf]
  · simp only [Polarity.eq_unknown_iff, includes_polarityOf]
  · rw [variablePolarity_fst, polarityOf_eq_joinAll]

/-- A variable in two forms, with both signs in the first clause only. -/
def bothInOne : Formula Variable where
  clauses := [[⟨.number 1, true⟩, ⟨.text "a", false⟩, ⟨.truth true, false⟩],
    [⟨.text "a", true⟩, ⟨.truth true, true⟩], [⟨.text "b", false⟩, ⟨.text "b", false⟩]]
  vars := []
  declared := []

theorem bothInOne_polarity_passes_agree :
    Shuffled bothInOne.clauses (bothInOne.clauses.map List.reverse).reverse ∧
      bothInOne.polarityOf (.number 1) = .mixed ∧
      polarityOf ⟨(bothInOne.clauses.map List.reverse).reverse, [], []⟩ (.number 1) = .mixed ∧
      (bothInOne.variablePolarity (.number 1)).1 = .positive ∧
      (bothInOne.variablePolarity (.number 1)).2.polarityOf (.number 1) = .positive := by
  obtain ⟨-, -, ⟨-, -, mixed, -⟩, reordered, -, pass⟩ := polarity_passes_agree bothInOne (.number 1)
  have shuffled := Shuffled.reverse bothInOne.clauses
  have both : bothInOne.polarityOf (.number 1) = .mixed := mixed.mpr (by decide)
  have positive : (bothInOne.variablePolarity (.number 1)).1 = .positive := by decide
  exact ⟨shuffled, both, (reordered _ shuffled).trans both, positive, pass.symm.trans positive⟩

end Formula
end Clausal
