import Clausal.Proofs.Reports

namespace Clausal

variable {V : Type} [BEq V] {f g : Formula V} {decided : Assignment V} {l : Literal V}
  {later : List (Literal V)}

namespace Formula

theorem settleUnits_append {before after : List (Literal V)} {all : Assignment V}
    (taken : (settleUnits before f decided).decided = some all) :
    settleUnits (before ++ after) f decided =
      settleUnits after (settleUnits before f decided).formula all := by
  fun_induction settleUnits before f decided with
  | case1 f decided =>
    cases taken
    rfl
  | case2 l ls f decided value known same ih =>
    rw [List.cons_append, settleUnits, known]
    simp only [same, ↓reduceIte]
    exact ih taken
  | case3 => cases taken
  | case4 l ls f decided fresh g hg ih =>
    rw [List.cons_append, settleUnits, fresh]
    simp only [hg]
    exact ih taken
  | case5 => cases taken

end Formula

theorem Pending.rest [EquivBEq V] {before after : List (Literal V)} {all : Assignment V}
    (h : Pending f.clauses decided (before ++ after))
    (taken : (Formula.settleUnits before f decided).decided = some all) :
    Pending (Formula.settleUnits before f decided).formula.clauses all after := by
  fun_induction Formula.settleUnits before f decided with
  | case1 f decided =>
    cases taken
    exact h
  | case2 _ _ _ _ _ _ _ ih => exact ih h.tail taken
  | case3 => cases taken
  | case4 l ls f decided fresh g hg ih =>
    obtain ⟨rfl, consistent⟩ := Prod.ext_iff.mp hg
    exact ih (h.next fresh consistent) taken
  | case5 => cases taken

namespace Formula

/-- The round of `f` comes to the unit `l`: taking the units before it has left `g` and the decided
pairs, and the units `later` are still to come. -/
def Meets (f : Formula V) (l : Literal V) (later : List (Literal V)) (g : Formula V)
    (decided : Assignment V) : Prop :=
  ∃ before, unitsOf f.clauses = before ++ l :: later ∧
    (settleUnits before f []).decided = some decided ∧ (settleUnits before f []).formula = g

namespace Meets

theorem propagateUnits_eq (h : f.Meets l later g decided) :
    f.propagateUnits = settleUnits (l :: later) g decided := by
  obtain ⟨before, units, taken, rfl⟩ := h
  rw [propagateUnits, units, settleUnits_append taken]

variable [EquivBEq V]

theorem pending (h : f.Meets l later g decided) : Pending g.clauses decided (l :: later) := by
  obtain ⟨before, units, taken, rfl⟩ := h
  have start : Pending f.clauses [] (before ++ l :: later) := units ▸ pending_unitsOf f.clauses
  exact start.rest taken

theorem assign_of_opposite (h : f.Meets l later g decided) {k : Literal V} (hk : k ∈ later)
    (same : (l.var == k.var) = true) (opposite : k.sign ≠ l.sign) :
    decided.value? l.var = none ∧ (g.assign l.var l.sign).2 = false := by
  -- A value would be the sign of either unit, for both are pending.
  have unknown : decided.value? l.var = none := by
    rcases h.pending l List.mem_cons_self with first | ⟨fresh, -⟩
    · rcases h.pending k (List.mem_cons_of_mem _ hk) with second | ⟨fresh, -⟩
      · rw [← Assignment.value?_congr same, first] at second
        exact absurd (Option.some.inj second).symm opposite
      · rwa [Assignment.value?_congr same]
    · exact fresh
  have stands : [k] ∈ g.clauses := by
    rcases h.pending k (List.mem_cons_of_mem _ hk) with known | ⟨-, stands⟩
    · rw [← Assignment.value?_congr same, unknown] at known
      cases known
    · exact stands
  exact ⟨unknown, reduce_inconsistent.mpr (nil_mem_reduce stands same opposite.symm)⟩

/-- The first of two opposite units ends the round. -/
theorem propagateUnits_of_opposite (h : f.Meets l later g decided) {k : Literal V} (hk : k ∈ later)
    (same : (l.var == k.var) = true) (opposite : k.sign ≠ l.sign) :
    f.propagateUnits = ⟨(g.assign l.var l.sign).1, none, [.emptiedByUnit l]⟩ := by
  obtain ⟨unknown, empty⟩ := h.assign_of_opposite hk same opposite
  rw [h.propagateUnits_eq, settleUnits, unknown]
  generalize g.assign l.var l.sign = fixed at empty ⊢
  obtain ⟨rest, consistent⟩ := fixed
  cases empty
  rfl

end Meets

/-- A call of the search on `f` comes to the pure literals of `g`: no clause is empty, the signs do
not make an answer, and a round of unit propagation has decided the pairs and left `g`. -/
structure ComesToPures (f g : Formula V) (decided : Assignment V) : Prop where
  some_literals : f.copy.hasEmptyClause = false
  no_answer : f.copy.polarities.isConsistent = true →
    f.copy.evaluate f.copy.polarities.assignment = .ok false
  decides : f.copy.propagateUnits.decided = some decided
  left : f.copy.propagateUnits.formula = g

namespace ComesToPures

theorem no_empty (h : f.ComesToPures g decided) : [] ∉ f.copy.clauses := by
  intro empty
  have looked := h.some_literals
  rw [hasEmptyClause_iff.mpr empty] at looked
  cases looked

theorem examine_eq_simplify (h : f.ComesToPures g decided) :
    f.copy.examine = f.copy.simplify := by
  simp only [examine, h.some_literals]
  split
  · contradiction
  · split
    · rename_i consistent
      rw [h.no_answer consistent]
    · rfl

variable [EquivBEq V]

theorem node (h : f.ComesToPures g decided) :
    ∃ more, (g.assignPure g.polarities).decided = some more ∧ f.expand =
      (f.copyReport, (g.assignPure g.polarities).formula.branch (decided ++ more)) := by
  obtain ⟨more, pure, node⟩ := simplify_of_decides (listed_copy f) h.no_empty h.decides h.left
  refine ⟨more, pure, ?_⟩
  rw [expand, h.examine_eq_simplify, node]
  exact congrArg (·, _) (List.append_nil f.copyReport)

/-- With the last variable the last clause is gone. -/
theorem clauses_eq_nil (h : f.ComesToPures g decided)
    (none : (g.assignPure g.polarities).formula.vars = []) :
    (g.assignPure g.polarities).formula.clauses = [] := by
  obtain ⟨more, -, fixed⟩ := pures_follow_units (listed_copy f) h.no_empty h.decides h.left
  exact Formula.clauses_eq_nil (fixed.listed (listed_copy f)) (fixed.no_empty h.no_empty) none

end ComesToPures

variable [EquivBEq V]

theorem conflict_not_mem_propagateUnits (f : Formula V) (v : V) :
    .conflictingUnits v ∉ f.propagateUnits.events := by
  cases units : f.propagateUnits.decided with
  | none =>
    obtain ⟨l, -, events⟩ := f.propagateUnits_round.report units
    simp [events]
  | some all => simp [f.propagateUnits_round.quiet units]

/-- No round of unit propagation meets a unit whose variable it has given the opposite value. For if
an opposite unit is still to come, then fixing the first one, which has no value yet, leaves a
clause empty, and the round ends there; so it never reports a conflict. In every call of the search,
whatever formula it is given, the elimination of pure literals never gives up, and if it leaves no
variable it leaves no clause. The log of solving never tells of either exit. -/
theorem dead_exits (f : Formula V) :
    (∀ l later g decided, f.Meets l later g decided →
      (∀ value, decided.value? l.var = some value → value = l.sign) ∧
      ∀ k ∈ later, (l.var == k.var) = true → k.sign ≠ l.sign →
        decided.value? l.var = none ∧ (g.assign l.var l.sign).2 = false ∧
        f.propagateUnits = ⟨(g.assign l.var l.sign).1, none, [.emptiedByUnit l]⟩) ∧
    (∀ v, .conflictingUnits v ∉ f.propagateUnits.events) ∧
    (∀ g decided, f.ComesToPures g decided →
      (∃ more, (g.assignPure g.polarities).decided = some more ∧ f.expand =
        (f.copyReport, (g.assignPure g.polarities).formula.branch (decided ++ more))) ∧
      ((g.assignPure g.polarities).formula.vars = [] →
        (g.assignPure g.polarities).formula.clauses = [])) ∧
    ∀ clock options v value, .conflictingUnits v ∉ (f.solve clock options).events ∧
      .emptiedByPure v value ∉ (f.solve clock options).events := by
  refine ⟨?_, f.conflict_not_mem_propagateUnits, ?_, ?_⟩
  · intro l later g decided meets
    refine ⟨fun value known => meets.pending.sign_eq known, ?_⟩
    intro k hk same opposite
    obtain ⟨unknown, empty⟩ := meets.assign_of_opposite hk same opposite
    exact ⟨unknown, empty, meets.propagateUnits_of_opposite hk same opposite⟩
  · intro g decided comes
    exact ⟨comes.node, comes.clauses_eq_nil⟩
  · intro clock options v value
    constructor
    · intro told
      simpa [Event.ofSearch, Event.aroundSearch] using kind_of_mem_events told
    · intro told
      simpa [Event.ofSearch, Event.aroundSearch] using kind_of_mem_events told

/-- A unit whose opposite comes last, written as a truth value. Another unit is fixed before. -/
def lateOpposite : Formula Variable where
  clauses := [[⟨.text "x", true⟩], [⟨.number 1, true⟩], [⟨.text "x", false⟩, ⟨.number 2, true⟩],
    [⟨.truth true, false⟩]]
  vars := []
  declared := []

def cleared : Formula Variable where
  clauses := [[⟨.number 1, true⟩], [⟨.truth true, false⟩, ⟨.text "y", true⟩]]
  vars := []
  declared := []

theorem lateOpposite_dead_exits :
    lateOpposite.Meets ⟨.number 1, true⟩ [⟨.truth true, false⟩]
        (lateOpposite.assign (.text "x") true).1 [(.text "x", true)] ∧
      lateOpposite.propagateUnits.decided = none ∧
      lateOpposite.propagateUnits.events = [.emptiedByUnit ⟨.number 1, true⟩] ∧
      cleared.ComesToPures cleared.copy.propagateUnits.formula [(.number 1, true)] ∧
      (cleared.copy.propagateUnits.formula.assignPure
        cleared.copy.propagateUnits.formula.polarities).formula.clauses = [] ∧
      cleared.expand = ([.undeclared [.number 1, .text "y"]],
        .settled (.satisfied [(.number 1, true), (.text "y", true)])) ∧
      .emptiedByPure (.text "y") true ∉ (cleared.solve callClock {}).events := by
  have meets : lateOpposite.Meets ⟨.number 1, true⟩ [⟨.truth true, false⟩]
      (lateOpposite.assign (.text "x") true).1 [(.text "x", true)] :=
    ⟨[⟨.text "x", true⟩], rfl, rfl, rfl⟩
  have comes : cleared.ComesToPures cleared.copy.propagateUnits.formula [(.number 1, true)] :=
    ⟨rfl, fun consistent => absurd consistent (by decide), rfl, rfl⟩
  obtain ⟨round, -, -, -⟩ := dead_exits lateOpposite
  obtain ⟨-, -, nodes, log⟩ := dead_exits cleared
  obtain ⟨-, -, ends⟩ := (round _ _ _ _ meets).2 _ List.mem_cons_self rfl (by decide)
  obtain ⟨⟨more, pures, node⟩, gone⟩ := nodes _ _ comes
  obtain rfl : [(.text "y", true)] = more := Option.some.inj pures
  refine ⟨meets, ?_, ?_, comes, gone rfl, node, (log _ _ _ _).2⟩
  · rw [ends]
  · rw [ends]

end Formula
end Clausal
