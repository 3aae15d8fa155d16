import Clausal.Proofs.Clocks

namespace Clausal

variable {V : Type} [BEq V]

namespace Budget

def Endless (budget : Budget) : Prop :=
  ∀ stats, budget.exhausted? stats = none

/-- Nothing but the number of decisions ends a search, and that only beyond `m`. -/
def Limits (budget : Budget) (m : Nat) : Prop :=
  ∀ stats, budget.exhausted? stats = none ↔ stats.decisions ≤ m

theorem endless_of_unlimited {budget : Budget} (decisions : budget.maxDecisions = none)
    (time : budget.timeout = none) : budget.Endless := by
  intro stats
  simp [exhausted?_of_untimed time, decisions]

theorem limits_of_limited {budget : Budget} {m : Nat} (decisions : budget.maxDecisions = some m)
    (time : budget.timeout = none) : budget.Limits m := by
  intro stats
  simp [exhausted?_of_untimed time, decisions]

end Budget

namespace Explores

variable {endless limited : Budget} {m depth : Nat} {f : Formula V} {stats : Stats}
  {found : Explored V}

theorem decisions_le {budget : Budget} (h : Explores budget depth f stats found) :
    stats.decisions ≤ found.stats.decisions := by
  induction h with
  | cutOff => exact Nat.le_refl _
  | settled => exact Nat.le_refl _
  | first _ _ _ _ ih => exact Nat.le_of_succ_le ih
  | both _ _ _ _ _ ihLow ihHigh => exact Nat.le_trans (Nat.le_of_succ_le ihLow) ihHigh

theorem within_limit (free : endless.Endless) (limits : limited.Limits m)
    (h : Explores endless depth f stats found) (few : found.stats.decisions ≤ m) :
    Explores limited depth f stats found := by
  have start := Nat.le_trans h.decisions_le few
  induction h with
  | cutOff spent =>
    rw [free] at spent
    cases spent
  | settled _ node => exact .settled ((limits _).mpr start) node
  | first _ node left ends ih =>
    exact .first ((limits _).mpr start) node (ih few (Nat.le_trans left.decisions_le few)) ends
  | both _ node left refuted right ihLow ihHigh =>
    have few' := Nat.le_trans right.decisions_le few
    exact .both ((limits _).mpr start) node (ihLow few' (Nat.le_trans left.decisions_le few'))
      refuted (ihHigh few few')

/-- The check at the node that a decision too many leads to ends the search. -/
theorem cut_at_limit (limits : limited.Limits m) (start : stats.decisions ≤ m + 1)
    (beyond : ¬ stats.decisions ≤ m) : ∃ part e, Explores limited depth f stats part ∧
      part.verdict = .failed e ∧ part.stats.decisions = m + 1 := by
  cases spent : limited.exhausted? stats with
  | none => exact absurd ((limits stats).mp spent) beyond
  | some x => exact ⟨_, _, .cutOff spent, rfl, Nat.le_antisymm start (Nat.lt_of_not_le beyond)⟩

/-- A search that would exceed the limit fails with one decision too many. -/
theorem beyond_limit (free : endless.Endless) (limits : limited.Limits m)
    (h : Explores endless depth f stats found) (start : stats.decisions ≤ m + 1)
    (many : m < found.stats.decisions) :
    ∃ part e, Explores limited depth f stats part ∧ part.verdict = .failed e ∧
      part.stats.decisions = m + 1 := by
  induction h with
  | cutOff spent =>
    rw [free] at spent
    cases spent
  | settled _ _ => exact cut_at_limit limits start (Nat.not_le.mpr many)
  | @first _ _ _ stats _ _ _ _ _ node _ ends ih =>
    by_cases within : stats.decisions ≤ m
    · obtain ⟨part, e, left, failed, count⟩ := ih (Nat.succ_le_succ within) many
      exact ⟨_, e, .first ((limits _).mpr within) node left (by simp [failed]),
        Verdict.after_eq_failed.mpr failed, count⟩
    · exact cut_at_limit limits start within
  | @both _ _ _ stats _ _ _ low _ _ node left refuted _ ihLow ihHigh =>
    by_cases within : stats.decisions ≤ m
    -- The search is cut off below the second child only if the first one kept the limit.
    · by_cases low_within : low.stats.decisions ≤ m
      · have left := left.within_limit free limits low_within
        obtain ⟨part, e, right, failed, count⟩ := ihHigh (Nat.le_succ_of_le low_within) many
        exact ⟨_, e, .both ((limits _).mpr within) node left refuted right,
          Verdict.after_eq_failed.mpr failed, count⟩
      · obtain ⟨part, e, left, failed, count⟩ :=
          ihLow (Nat.succ_le_succ within) (Nat.lt_of_not_le low_within)
        exact ⟨_, e, .first ((limits _).mpr within) node left (by simp [failed]),
          Verdict.after_eq_failed.mpr failed, count⟩
    · exact cut_at_limit limits start within

end Explores

namespace Formula

variable [EquivBEq V]

theorem solve_congr {clock clock' : Nat → Float} {f : Formula V} {options : Options}
    {limit limit' : Option Nat}
    (h : f.explored clock { options with maxDecisions := limit } =
      f.explored clock' { options with maxDecisions := limit' }) :
    f.solve clock { options with maxDecisions := limit } =
      f.solve clock' { options with maxDecisions := limit' } := by
  rw [solve_of_explored, solve_of_explored, h]
  rfl

/-- The run without a limit on decisions has a result. A limit that it keeps leaves the whole run as
it is; a limit that it exceeds ends the run after one decision more than allowed. -/
theorem solve_limited (f : Formula V) (options : Options) (time : options.timeout = none)
    (clock clock' : Nat → Float) (m : Nat) :
    ∃ r, (f.solve clock { options with maxDecisions := none }).outcome = .ok r ∧
      (r.stats.decisions ≤ m → f.solve clock' { options with maxDecisions := some m } =
        f.solve clock { options with maxDecisions := none }) ∧
      (m < r.stats.decisions →
        ∃ spent, (f.solve clock' { options with maxDecisions := some m }).outcome =
            .error (.exhausted ⟨.decisions, spent, m + 1⟩) ∧
          (f.solve clock' { options with maxDecisions := some m }).stats.decisions = m + 1) := by
  obtain ⟨r, h⟩ : ∃ r, (f.solve clock { options with maxDecisions := none }).outcome = .ok r :=
    exists_result rfl time
  have free : (({ options with maxDecisions := none } : Options).budget clock).Endless :=
    Budget.endless_of_unlimited rfl time
  have limits : (({ options with maxDecisions := some m } : Options).budget clock').Limits m :=
    Budget.limits_of_limited rfl time
  have whole : Explores _ 0 _ {} (f.explored clock { options with maxDecisions := none }) :=
    explores_search _ _ _ _
  refine ⟨r, h, ?_, ?_⟩
  · intro few
    rw [stats_of_outcome h] at few
    exact solve_congr (whole.within_limit free limits few).search_eq
  · intro many
    rw [stats_of_outcome h] at many
    obtain ⟨part, e, explores, failed, count⟩ :=
      whole.beyond_limit free limits (Nat.zero_le _) many
    have same : f.explored clock' { options with maxDecisions := some m } = part :=
      explores.search_eq
    rw [← same] at failed count
    rw [← stats_solve] at count
    obtain ⟨x, rfl, -⟩ := (explores_search _ _ _ _).exhausted failed
    have out := outcome_error_iff.mpr failed
    have timed : ({ options with maxDecisions := some m } : Options).timeout = none := time
    rw [exhausted_of_untimed timed out, count] at out
    exact ⟨_, out, count⟩

theorem contrary_solve_limited :
    ({ dropTautologies := false } : Options).timeout = none ∧
      (contrary.solve callClock { dropTautologies := false }).outcome =
        .ok ⟨.unsatisfiable, [], ⟨7, 3, 3, 2⟩⟩ ∧
      contrary.solve callClock { dropTautologies := false, maxDecisions := some 3 } =
        contrary.solve callClock { dropTautologies := false } ∧
      ∃ spent, (contrary.solve callClock
          { dropTautologies := false, maxDecisions := some 2 }).outcome =
            .error (.exhausted ⟨.decisions, spent, 3⟩) ∧
        (contrary.solve callClock
          { dropTautologies := false, maxDecisions := some 2 }).stats.decisions = 3 := by
  obtain ⟨r, h, kept, -⟩ := solve_limited contrary { dropTautologies := false } rfl callClock
    callClock 3
  obtain ⟨r', h', -, exceeded⟩ := solve_limited contrary { dropTautologies := false } rfl
    callClock callClock 2
  cases contrary_outcome.symm.trans h
  cases contrary_outcome.symm.trans h'
  exact ⟨rfl, contrary_outcome, kept (by decide), exceeded (by decide)⟩

end Formula
end Clausal
