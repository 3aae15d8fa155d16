import Clausal.Proofs.Verdicts

namespace Clausal

variable {V : Type} [BEq V]

inductive Explores (budget : Budget) : Nat → Formula V → Stats → Explored V → Prop where
  | cutOff {depth : Nat} {f : Formula V} {stats : Stats} {x : Exhausted}
      (spent : budget.exhausted? stats = some x) :
      Explores budget depth f stats ⟨.failed (.exhausted x), stats, []⟩
  | settled {depth : Nat} {f : Formula V} {stats : Stats} {events : List (Event V)}
      {verdict : Verdict V} (within : budget.exhausted? stats = none)
      (node : f.expand = (events, .settled verdict)) :
      Explores budget depth f stats ⟨verdict, stats.enter depth, events⟩
  | first {depth : Nat} {f rest : Formula V} {stats : Stats} {events : List (Event V)}
      {decided : Assignment V} {v : V} {low : Explored V}
      (within : budget.exhausted? stats = none)
      (node : f.expand = (events, .split decided rest v))
      (left : Explores budget (depth + 1) (rest.withUnit ⟨v, false⟩) (stats.enter depth).decide low)
      (ends : low.verdict ≠ .refuted) :
      Explores budget depth f stats
        ⟨low.verdict.after decided, low.stats, events ++ .trying depth v :: low.events⟩
  | both {depth : Nat} {f rest : Formula V} {stats : Stats} {events : List (Event V)}
      {decided : Assignment V} {v : V} {low high : Explored V}
      (within : budget.exhausted? stats = none)
      (node : f.expand = (events, .split decided rest v))
      (left : Explores budget (depth + 1) (rest.withUnit ⟨v, false⟩) (stats.enter depth).decide low)
      (refuted : low.verdict = .refuted)
      (right : Explores budget (depth + 1) (rest.withUnit ⟨v, true⟩) low.stats.backtrack high) :
      Explores budget depth f stats ⟨high.verdict.after decided, high.stats,
        (events ++ .trying depth v :: low.events) ++ .backtracking depth v :: high.events⟩

variable [EquivBEq V] {budget : Budget} {depth : Nat} {f : Formula V} {stats : Stats}

theorem explores_search (budget : Budget) (depth : Nat) (f : Formula V) (stats : Stats) :
    Explores budget depth f stats (search budget depth f stats) := by
  fun_induction search budget depth f stats with
  | case1 _ _ _ _ spent => exact .cutOff spent
  | case2 _ _ _ within _ _ _ node => exact .settled within node
  | case3 _ _ _ within _ _ _ _ _ node _ _ refuted _ left _ right =>
    exact .both within node left refuted right
  | case4 _ _ _ within _ _ _ _ _ node _ _ ends left => exact .first within node left ends

/-- The rules leave no choice. -/
theorem Explores.search_eq {found : Explored V} (h : Explores budget depth f stats found) :
    search budget depth f stats = found := by
  induction h with
  | cutOff spent => exact search_of_exhausted spent
  | settled within node => exact search_of_settled within node
  | first within node _ ends ih =>
    rw [search_of_split within node, ih]
    dsimp only
    split
    · rename_i refuted
      exact absurd refuted ends
    · rfl
  | both within node _ refuted _ ihLow ihHigh =>
    rw [search_of_split within node, ihLow]
    simp only [refuted, ihHigh]

omit [BEq V] [EquivBEq V] in
theorem Verdict.after_eq_failed {decided : Assignment V} {verdict : Verdict V} {e : SolveError V} :
    verdict.after decided = .failed e ↔ verdict = .failed e := by
  cases verdict <;> simp [after]

/-- Nothing is counted any more once the budget is exhausted. -/
theorem Explores.exhausted {found : Explored V} (h : Explores budget depth f stats found)
    {e : SolveError V} (failed : found.verdict = .failed e) :
    ∃ x, e = .exhausted x ∧ budget.exhausted? found.stats = some x := by
  induction h with
  | cutOff spent => exact ⟨_, (Verdict.failed.inj failed).symm, spent⟩
  | settled _ node =>
    dsimp only at failed
    subst failed
    exact (Formula.settled_justified node).elim
  | first _ _ _ _ ih => exact ih (Verdict.after_eq_failed.mp failed)
  | both _ _ _ _ _ _ ihHigh => exact ihHigh (Verdict.after_eq_failed.mp failed)

end Clausal
