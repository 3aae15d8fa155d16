import Mathlib.Data.Fintype.Card
import Mathlib.Tactic.Choose
import Clausal.Proofs.Answers
import Clausal.Proofs.SignedClauses

namespace Clausal.Pigeonhole

/-- Every pigeon sits in a hole, and no two pigeons sit in the same. -/
structure Seats (pigeons holes : Nat) (sits : Nat → Nat → Prop) : Prop where
  placed : ∀ p < pigeons, ∃ h < holes, sits p h
  alone : ∀ h < holes, ∀ p < pigeons, ∀ q < pigeons, sits p h → sits q h → p = q

theorem Seats.le {pigeons holes : Nat} {sits : Nat → Nat → Prop} (h : Seats pigeons holes sits) :
    pigeons ≤ holes := by
  have placed (p : Fin pigeons) : ∃ hole : Fin holes, sits p hole := by
    obtain ⟨hole, below, seated⟩ := h.placed p p.isLt
    exact ⟨⟨hole, below⟩, seated⟩
  choose seat seated using placed
  have injective : Function.Injective seat := by
    intro p q same
    have other := seated q
    rw [← same] at other
    exact Fin.ext (h.alone _ (seat p).isLt p p.isLt q q.isLt (seated p) other)
  simpa using Fintype.card_le_of_injective seat injective

theorem seats_of_le {pigeons holes : Nat} (h : pigeons ≤ holes) :
    Seats pigeons holes (fun p hole => (p == hole) = true) where
  placed p hp := ⟨p, Nat.lt_of_lt_of_le hp h, BEq.rfl⟩
  alone _ _ _ _ _ _ hp hq := (eq_of_beq hp).trans (eq_of_beq hq).symm

theorem Seats.congr {pigeons holes : Nat} {sits other : Nat → Nat → Prop}
    (same : ∀ p, ∀ h < holes, sits p h ↔ other p h) (h : Seats pigeons holes sits) :
    Seats pigeons holes other where
  placed p hp := by
    obtain ⟨hole, below, seated⟩ := h.placed p hp
    exact ⟨hole, below, (same p hole below).mp seated⟩
  alone hole below p hp q hq seated seated' :=
    h.alone hole below p hp q hq ((same p hole below).mpr seated) ((same q hole below).mpr seated')

theorem zero_not_mem_clauses (pigeons holes : Nat) : ∀ c ∈ clauses pigeons holes, 0 ∉ c := by
  intro c hc
  rcases List.mem_append.mp hc with hc | hc
  · obtain ⟨p, -, rfl⟩ := List.mem_map.mp hc
    exact zero_not_mem_row
  · obtain ⟨hole, -, hc⟩ := List.mem_flatMap.mp hc
    obtain ⟨pair, -, rfl⟩ := List.mem_map.mp hc
    exact zero_not_mem_either

theorem makes_clauses {pigeons holes : Nat} {a : Valuation Variable} :
    (∀ c ∈ clauses pigeons holes, ∃ n ∈ c, a.Makes n) ↔ Seats pigeons holes (a.Marks holes) := by
  have alone (h : Nat) : (∀ pair ∈ pairsBelow pigeons,
      ¬ (a.Marks holes pair.1 h ∧ a.Marks holes pair.2 h)) ↔
      ∀ p < pigeons, ∀ q < pigeons, a.Marks holes p h → a.Marks holes q h → p = q :=
    forall_pairsBelow (x := fun p => a.Marks holes p h)
  simp only [clauses, List.forall_mem_append, List.forall_mem_map, List.forall_mem_flatMap,
    List.mem_range, Valuation.makes_row, Valuation.makes_either, alone]
  exact ⟨fun h => ⟨h.1, h.2⟩, fun h => ⟨h.placed, h.alone⟩⟩

/-- The models of the formula are the valuations that seat the pigeons. -/
theorem formula_models (pigeons holes : Nat) :
    ∃ f, (formula pigeons holes).outcome = .ok f ∧ ∀ a : Valuation Variable,
      a.Satisfies f.clauses ↔ Seats pigeons holes (a.Marks holes) := by
  obtain ⟨f, built, models⟩ := Formula.ofSigned_models (zero_not_mem_clauses pigeons holes)
  exact ⟨f, built, fun a => (models a).trans makes_clauses⟩

/-- There is always a formula. An assignment that covers it makes it true exactly if its true
variables seat the pigeons; there is such an assignment exactly if there are holes enough; and
without a budget the formula is found unsatisfiable exactly if there are not. -/
theorem pigeons_seated (pigeons holes : Nat) :
    ∃ f, (formula pigeons holes).outcome = .ok f ∧
      (∀ pairs : Assignment Variable, pairs.Covers f.clauses →
        (f.evaluate pairs = .ok true ↔ Seats pigeons holes
          fun p h => pairs.LastIs (.number (p * holes + h + 1 : Nat)) true)) ∧
      ((∃ pairs : Assignment Variable, pairs.Covers f.clauses ∧ f.evaluate pairs = .ok true) ↔
        pigeons ≤ holes) ∧
      ∀ (clock : Nat → Float) (options : Options),
        options.maxDecisions = none → options.timeout = none →
          ∃ r, (f.solve clock options).outcome = .ok r ∧
            (r.status = .unsatisfiable ↔ holes < pigeons) := by
  obtain ⟨f, built, models⟩ := formula_models pigeons holes
  have modelled : (∃ a : Valuation Variable, a.Satisfies f.clauses) ↔ pigeons ≤ holes := by
    constructor
    · rintro ⟨a, model⟩
      exact ((models a).mp model).le
    · intro enough
      refine ⟨.ofCells holes (fun p h => p == h), (models _).mpr ?_⟩
      exact (seats_of_le enough).congr fun _ _ below => (Valuation.marks_ofCells below).symm
  refine ⟨f, built, ?_, f.exists_assignment_iff.trans modelled, ?_⟩
  · intro pairs covers
    rw [Formula.evaluate_eq_true_iff covers, models]
    simp only [← Assignment.marks_valuation]
  · intro clock options decisions time
    obtain ⟨r, outcome⟩ : ∃ r, (f.solve clock options).outcome = .ok r :=
      Formula.exists_result decisions time
    refine ⟨r, outcome, ?_⟩
    rw [← Nat.not_le, ← modelled, ← Formula.satisfiable_iff outcome]
    cases r.status <;> simp

/-- The second pigeon is first put beside the other one, and then into the hole of its own. -/
def apart : Assignment Variable :=
  [(.number 1, true), (.number 2, false), (.number 3, true), (.number 4, true), (.number 3, false)]

theorem twoHoles_pigeons_seated :
    (∃ f, (formula 2 2).outcome = .ok f ∧ apart.Covers f.clauses ∧ f.evaluate apart = .ok true) ∧
      ∃ f, (formula 3 2).outcome = .ok f ∧
        ∃ r, (f.solve callClock {}).outcome = .ok r ∧ r.status = .unsatisfiable := by
  obtain ⟨f, built, seated, -⟩ := pigeons_seated 2 2
  obtain ⟨g, built', -, -, solved⟩ := pigeons_seated 3 2
  have covers : apart.Covers f.clauses := by
    obtain rfl := Except.ok.inj built
    decide
  refine ⟨⟨f, built, covers, (seated apart covers).mpr ⟨by decide, by decide⟩⟩, g, built', ?_⟩
  obtain ⟨r, outcome, refuted⟩ := solved callClock {} rfl rfl
  exact ⟨r, outcome, refuted.mpr (by decide)⟩

end Clausal.Pigeonhole
