import Clausal.Proofs.Answers
import Clausal.Proofs.Exploration

namespace Clausal

variable {V : Type} [BEq V]

namespace Stats

/-- The calls that were made for no decision and no backtrack. -/
def balance (s : Stats) : Int :=
  s.calls - s.decisions - s.backtracks

/-- The decisions that were not taken back. -/
def standing (s : Stats) : Int :=
  s.decisions - s.backtracks

@[simp] theorem balance_enter (s : Stats) (depth : Nat) :
    (s.enter depth).balance = s.balance + 1 := by
  simp only [balance, enter]
  omega

@[simp] theorem balance_decide (s : Stats) : s.decide.balance = s.balance - 1 := by
  simp only [balance, decide]
  omega

@[simp] theorem balance_backtrack (s : Stats) : s.backtrack.balance = s.balance - 1 := by
  simp only [balance, backtrack]
  omega

@[simp] theorem standing_enter (s : Stats) (depth : Nat) :
    (s.enter depth).standing = s.standing := rfl

@[simp] theorem standing_decide (s : Stats) : s.decide.standing = s.standing + 1 := by
  simp only [standing, decide]
  omega

@[simp] theorem standing_backtrack (s : Stats) : s.backtrack.standing = s.standing - 1 := by
  simp only [standing, backtrack]
  omega

end Stats

namespace Verdict

/-- What a search from the given depth makes of the counters, by its verdict. The decisions that
stand in the end lie above each other on the way to a model. -/
def Balances (depth : Nat) (before after : Stats) : Verdict V → Prop
  | .satisfied _ => after.balance = before.balance + 1 ∧ before.standing ≤ after.standing ∧
      after.standing + depth ≤ before.standing + after.maxDepth
  | .refuted => after.balance = before.balance + 1 ∧ after.standing = before.standing
  | .failed _ => after.balance = before.balance

namespace Balances

variable {depth : Nat} {s t u : Stats} {decided : Assignment V} {verdict : Verdict V}

omit [BEq V] in
theorem settled (depth : Nat) (s : Stats) (answers : ∀ e, verdict ≠ .failed e) :
    verdict.Balances depth s (s.enter depth) := by
  cases verdict with
  | satisfied decided =>
    have deep : depth ≤ (s.enter depth).maxDepth := Nat.le_max_right s.maxDepth depth
    refine ⟨s.balance_enter depth, Int.le_refl _, ?_⟩
    rw [Stats.standing_enter]
    omega
  | refuted => exact ⟨s.balance_enter depth, rfl⟩
  | failed e => exact absurd rfl (answers e)

omit [BEq V] in
/-- A decision whose child ends the search stands. -/
theorem first (ends : verdict ≠ .refuted)
    (low : verdict.Balances (depth + 1) (s.enter depth).decide t) :
    (verdict.after decided).Balances depth s t := by
  cases verdict with
  | satisfied more =>
    simp only [Balances, after, Stats.balance_decide, Stats.balance_enter, Stats.standing_decide,
      Stats.standing_enter] at low ⊢
    omega
  | refuted => exact absurd rfl ends
  | failed e =>
    simp only [Balances, after, Stats.balance_decide, Stats.balance_enter] at low ⊢
    omega

omit [BEq V] in
theorem both (low : (refuted : Verdict V).Balances (depth + 1) (s.enter depth).decide t)
    (high : verdict.Balances (depth + 1) t.backtrack u) :
    (verdict.after decided).Balances depth s u := by
  simp only [Balances, Stats.balance_decide, Stats.balance_enter, Stats.standing_decide,
    Stats.standing_enter] at low
  cases verdict <;>
  · simp only [Balances, after, Stats.balance_backtrack, Stats.standing_backtrack] at high ⊢
    omega

end Balances
end Verdict

theorem Explores.balances [EquivBEq V] {budget : Budget} {depth : Nat} {f : Formula V}
    {stats : Stats} {found : Explored V} (h : Explores budget depth f stats found) :
    found.verdict.Balances depth stats found.stats := by
  induction h with
  | cutOff => rfl
  | settled _ node =>
    apply Verdict.Balances.settled
    rintro e rfl
    exact Formula.settled_justified node
  | first _ _ _ ends ih => exact ih.first ends
  | both _ _ _ refuted _ ihLow ihHigh =>
    rw [refuted] at ihLow
    exact ihLow.both ihHigh

namespace Formula

variable [EquivBEq V]

/-- What a run has counted when it returns, and when its budget runs out, whatever the clock
says. -/
theorem counters_balance (clock : Nat → Float) (f : Formula V) (options : Options) :
    (∀ r, (f.solve clock options).outcome = .ok r →
      r.stats.calls = r.stats.decisions + r.stats.backtracks + 1 ∧
      r.stats.backtracks ≤ r.stats.decisions ∧
      (r.status = .unsatisfiable → r.stats.backtracks = r.stats.decisions) ∧
      (r.status = .satisfiable → r.stats.decisions - r.stats.backtracks ≤ r.stats.maxDepth)) ∧
    ∀ x, (f.solve clock options).outcome = .error (.exhausted x) →
      (f.solve clock options).stats.calls =
        (f.solve clock options).stats.decisions + (f.solve clock options).stats.backtracks := by
  have law : (f.explored clock options).verdict.Balances 0 {} (f.explored clock options).stats :=
    (explores_search _ _ _ _).balances
  constructor
  · intro r h
    obtain ⟨hv, rfl⟩ | ⟨decided, hv, rfl⟩ := outcome_cases h
    · rw [hv] at law
      simp only [Verdict.Balances, Stats.balance, Stats.standing] at law
      simp only [reduceCtorEq, false_implies, and_true, true_implies]
      omega
    · rw [hv] at law
      simp only [Verdict.Balances, Stats.balance, Stats.standing] at law
      simp only [reduceCtorEq, false_implies, true_and, true_implies]
      omega
  · intro x h
    rw [outcome_error_iff.mp h] at law
    simp only [Verdict.Balances, Stats.balance] at law
    rw [stats_solve]
    omega

theorem contrary_counters_balance :
    (contrary.solve callClock { dropTautologies := false }).outcome =
        .ok ⟨.unsatisfiable, [], ⟨7, 3, 3, 2⟩⟩ ∧ 7 = 3 + 3 + 1 ∧
      (eitherOr.solve callClock {}).outcome =
        .ok ⟨.satisfiable, [(1, false), (2, true), (9, false), (3, false)], ⟨2, 1, 0, 1⟩⟩ ∧
      1 - 0 ≤ 1 ∧
      (∃ x,
        (contrary.solve callClock { dropTautologies := false, maxDecisions := some 2 }).outcome =
          .error (.exhausted x)) ∧
      (contrary.solve callClock { dropTautologies := false, maxDecisions := some 2 }).stats =
        ⟨5, 3, 2, 2⟩ ∧ 5 = 3 + 2 := by
  have no_result : (contrary.solve callClock
      { dropTautologies := false, maxDecisions := some 2 }).outcome.toOption = none := by
    decide +kernel
  have stats : (contrary.solve callClock
      { dropTautologies := false, maxDecisions := some 2 }).stats = ⟨5, 3, 2, 2⟩ := by
    decide +kernel
  obtain ⟨r, hr⟩ | ⟨x, hx⟩ := result_or_exhausted callClock contrary
    { dropTautologies := false, maxDecisions := some 2 }
  · rw [hr] at no_result
    cases no_result
  · have cut := (counters_balance _ _ _).2 x hx
    rw [stats] at cut
    exact ⟨contrary_outcome, ((counters_balance _ _ _).1 _ contrary_outcome).1, eitherOr_outcome,
      ((counters_balance _ _ _).1 _ eitherOr_outcome).2.2.2 rfl, ⟨x, hx⟩, stats, cut⟩

end Formula
end Clausal
