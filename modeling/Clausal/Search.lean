import Clausal.Node

namespace Clausal

variable {V : Type} [BEq V]

/-- What a search found below a node, the counters as they stand then, and what it reported. -/
structure Explored (V : Type) where
  verdict : Verdict V
  stats : Stats
  events : List (Event V)

/-- The pairs decided at a node come before those of its child. -/
def Verdict.after (decided : Assignment V) : Verdict V → Verdict V
  | .satisfied more => .satisfied (decided ++ more)
  | verdict => verdict

/-- The second value is tried only when the first is refuted; a search that fails stops at once. -/
def search [EquivBEq V] (budget : Budget) (depth : Nat) (f : Formula V) (stats : Stats) :
    Explored V :=
  match budget.exhausted? stats with
  | some e => ⟨.failed (.exhausted e), stats, []⟩
  | none =>
    let stats := stats.enter depth
    match _h : f.expand with
    | (events, .settled verdict) => ⟨verdict, stats, events⟩
    | (events, .split decided rest v) =>
      let low := search budget (depth + 1) (rest.withUnit ⟨v, false⟩) stats.decide
      let events := events ++ .trying depth v :: low.events
      match low.verdict with
      | .refuted =>
        let high := search budget (depth + 1) (rest.withUnit ⟨v, true⟩) low.stats.backtrack
        ⟨high.verdict.after decided, high.stats, events ++ .backtracking depth v :: high.events⟩
      | verdict => ⟨verdict.after decided, low.stats, events⟩
termination_by f.weight
decreasing_by all_goals exact Formula.weight_split ‹_› _

section Equations

variable [EquivBEq V] {budget : Budget} {depth : Nat} {f : Formula V} {stats : Stats}

theorem search_of_exhausted {e : Exhausted} (h : budget.exhausted? stats = some e) :
    search budget depth f stats = ⟨.failed (.exhausted e), stats, []⟩ := by
  rw [search, h]

theorem search_of_settled {events : List (Event V)} {verdict : Verdict V}
    (within : budget.exhausted? stats = none) (h : f.expand = (events, .settled verdict)) :
    search budget depth f stats = ⟨verdict, stats.enter depth, events⟩ := by
  rw [search, within]
  dsimp only
  split
  · rename_i hnode
    cases h.symm.trans hnode
    rfl
  · rename_i hnode
    cases h.symm.trans hnode

theorem search_of_split {events : List (Event V)} {decided : Assignment V} {rest : Formula V}
    {v : V} (within : budget.exhausted? stats = none)
    (h : f.expand = (events, .split decided rest v)) :
    search budget depth f stats =
      let low := search budget (depth + 1) (rest.withUnit ⟨v, false⟩) (stats.enter depth).decide
      let events := events ++ .trying depth v :: low.events
      match low.verdict with
      | .refuted =>
        let high := search budget (depth + 1) (rest.withUnit ⟨v, true⟩) low.stats.backtrack
        ⟨high.verdict.after decided, high.stats, events ++ .backtracking depth v :: high.events⟩
      | verdict => ⟨verdict.after decided, low.stats, events⟩ := by
  rw [search, within]
  dsimp only
  split
  · rename_i hnode
    cases h.symm.trans hnode
  · rename_i hnode
    cases h.symm.trans hnode
    rfl

end Equations

end Clausal
