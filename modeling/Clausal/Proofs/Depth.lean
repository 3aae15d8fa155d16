import Mathlib.Algebra.Group.Nat.Defs
import Clausal.Proofs.Answers

namespace Clausal

variable {V : Type} [BEq V]

namespace Stats

/-- What a search from the given depth may add to the counters, if at most `height` splits lie one
below the other. -/
structure Within (height depth : Nat) (before after : Stats) : Prop where
  calls : after.calls + 1 ≤ before.calls + 2 ^ (height + 1)
  decisions : after.decisions + 1 ≤ before.decisions + 2 ^ height
  maxDepth : after.maxDepth ≤ max before.maxDepth (depth + height)

namespace Within

variable {h k depth : Nat} {s t u : Stats}

theorem mono (w : Within h depth s t) (hk : h ≤ k) : Within k depth s t := by
  have calls : 2 ^ (h + 1) ≤ 2 ^ (k + 1) := Nat.pow_le_pow_right (by omega) (by omega)
  have decisions : 2 ^ h ≤ 2 ^ k := Nat.pow_le_pow_right (by omega) hk
  have hc := w.calls
  have hd := w.decisions
  have hm := w.maxDepth
  exact ⟨by omega, by omega, by omega⟩

theorem refl (h depth : Nat) (s : Stats) : Within h depth s s := by
  have hp := Nat.one_le_two_pow (n := h)
  exact ⟨by rw [Nat.pow_succ]; omega, by omega, by omega⟩

theorem settled (h depth : Nat) (s : Stats) : Within h depth s (s.enter depth) := by
  have hp := Nat.one_le_two_pow (n := h)
  refine ⟨?_, ?_, ?_⟩
  · simp only [Stats.enter, Nat.pow_succ]
    omega
  · simp only [Stats.enter]
    omega
  · simp only [Stats.enter]
    omega

theorem first (below : h < k) (low : Within h (depth + 1) (s.enter depth).decide t) :
    Within k depth s t := by
  obtain ⟨m, rfl⟩ := Nat.exists_eq_add_of_lt below
  have low := low.mono (Nat.le_add_right h m)
  have hp := Nat.one_le_two_pow (n := h + m)
  have hc := low.calls
  have hd := low.decisions
  have hm := low.maxDepth
  simp only [Stats.enter, Stats.decide] at hc hd hm
  refine ⟨?_, ?_, ?_⟩
  · rw [Nat.pow_succ] at hc ⊢
    omega
  · rw [Nat.pow_succ]
    omega
  · omega

/-- The second child goes on from the counters of the first. -/
theorem both {l : Nat} (lowBelow : l < k) (highBelow : h < k)
    (low : Within l (depth + 1) (s.enter depth).decide t)
    (high : Within h (depth + 1) t.backtrack u) : Within k depth s u := by
  obtain ⟨m, rfl⟩ := Nat.exists_eq_add_of_lt highBelow
  have low := low.mono (Nat.le_of_lt_succ lowBelow)
  have high := high.mono (Nat.le_add_right h m)
  have lc := low.calls
  have ld := low.decisions
  have lm := low.maxDepth
  have hc := high.calls
  have hd := high.decisions
  have hm := high.maxDepth
  simp only [Stats.enter, Stats.decide] at lc ld lm
  simp only [Stats.backtrack] at hc hd hm
  refine ⟨?_, ?_, ?_⟩
  · rw [Nat.pow_succ]
    omega
  · rw [Nat.pow_succ]
    omega
  · omega

end Within
end Stats

namespace Formula

/-- How many splits can lie one below the other: as many as there are variables, and one less if
there is a unit clause. -/
def height (f : Formula V) : Nat :=
  (f.weight - 1) / 2

theorem height_le (f : Formula V) : f.height ≤ f.freeVariables.length := by
  unfold height weight
  split <;> omega

variable [EquivBEq V]

/-- The first formula is searched below the second. -/
def ChildOf (g f : Formula V) : Prop :=
  ∃ events decided rest v sign, f.expand = (events, .split decided rest v) ∧
    g = rest.withUnit ⟨v, sign⟩

theorem height_lt {f rest : Formula V} {decided : Assignment V} {v : V} {events : List (Event V)}
    (h : f.expand = (events, .split decided rest v)) (sign : Bool) :
    (rest.withUnit ⟨v, sign⟩).height < f.height := by
  have lighter := weight_split h sign
  have occurs : Occurs (rest.withUnit ⟨v, sign⟩).clauses v :=
    ⟨[⟨v, sign⟩], List.mem_append_right _ List.mem_cons_self, _, List.mem_cons_self, BEq.rfl⟩
  obtain ⟨w, hw, -⟩ := List.contains_iff_exists_mem_beq.mp (variablesOf_contains.mpr occurs)
  have some_variable : 0 < (rest.withUnit ⟨v, sign⟩).freeVariables.length :=
    List.length_pos_of_mem hw
  unfold height
  rw [weight_withUnit] at lighter ⊢
  omega

theorem childOf_wellFounded : WellFounded (ChildOf (V := V)) := by
  have lighter : Subrelation (ChildOf (V := V)) (measure weight).rel := by
    intro g f child
    obtain ⟨events, decided, rest, v, sign, h, rfl⟩ := child
    exact weight_split h sign
  exact lighter.wf (measure weight).wf

end Formula

/-- Also a search that its budget cuts off stays within the bounds. -/
theorem search_within [EquivBEq V] (budget : Budget) (depth : Nat) (f : Formula V)
    (stats : Stats) : stats.Within f.height depth (search budget depth f stats).stats := by
  fun_induction search budget depth f stats with
  | case1 depth f stats => exact .refl f.height depth stats
  | case2 depth f stats => exact .settled f.height depth stats
  | case3 _ _ _ _ _ _ _ _ _ h _ _ _ _ ihLow _ ihHigh =>
    exact .both (Formula.height_lt h false) (Formula.height_lt h true) ihLow ihHigh
  | case4 _ _ _ _ _ _ _ _ _ h _ _ _ ihLow => exact .first (Formula.height_lt h false) ihLow

namespace Formula

variable [EquivBEq V]

theorem freeVariables_prepare (f : Formula V) (options : Options) :
    (f.prepare options).1.freeVariables.length ≤ f.freeVariables.length :=
  length_le_of_covers (pairwise_distinct _) fun _ hw =>
    variablesOf_contains.mpr (occurs_prepare (occurs_of_mem_variablesOf hw))

theorem explored_within (clock : Nat → Float) (f : Formula V) (options : Options) :
    Stats.Within f.freeVariables.length 0 {} (f.explored clock options).stats :=
  (search_within _ _ _ _).mono (Nat.le_trans (height_le _) (f.freeVariables_prepare options))

/-- The search goes down along a relation that ends, and what a result counts is bounded by the
number of variables alone. -/
theorem resources_bounded {clock : Nat → Float} {f : Formula V} {options : Options} :
    WellFounded (ChildOf (V := V)) ∧
      ∀ r, (f.solve clock options).outcome = .ok r →
        r.stats.maxDepth ≤ f.freeVariables.length ∧
        r.stats.decisions ≤ 2 ^ f.freeVariables.length - 1 ∧
        r.stats.calls ≤ 2 ^ (f.freeVariables.length + 1) - 1 := by
  refine ⟨childOf_wellFounded, ?_⟩
  intro r h
  have within := f.explored_within clock options
  rw [← stats_of_outcome h] at within
  have hc := within.calls
  have hd := within.decisions
  have hm := within.maxDepth
  simp only [Nat.zero_add, Nat.zero_max] at hc hd hm
  exact ⟨hm, by omega, by omega⟩

theorem contrary_resources_bounded :
    (contrary.solve callClock { dropTautologies := false }).outcome =
        .ok ⟨.unsatisfiable, [], ⟨7, 3, 3, 2⟩⟩ ∧
      contrary.freeVariables.length = 2 ∧ WellFounded (ChildOf (V := Nat)) ∧
      2 ≤ contrary.freeVariables.length ∧ 3 ≤ 2 ^ contrary.freeVariables.length - 1 ∧
      7 ≤ 2 ^ (contrary.freeVariables.length + 1) - 1 := by
  have solved : (contrary.solve callClock { dropTautologies := false }).outcome =
      .ok ⟨.unsatisfiable, [], ⟨7, 3, 3, 2⟩⟩ := eq_ok_of_toOption (by decide +kernel)
  obtain ⟨depth, decisions, calls⟩ := resources_bounded.2 _ solved
  exact ⟨solved, by decide, childOf_wellFounded, depth, decisions, calls⟩

end Formula
end Clausal
