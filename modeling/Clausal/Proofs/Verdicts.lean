import Clausal.Proofs.Simplification
import Clausal.Search

namespace Clausal

variable {V : Type} [BEq V]

/-- The verdict on some clauses is right, or it fails in a way that is allowed. -/
def Verdict.Justified (allowed : SolveError V → Prop) (cs : List (Clause V)) : Verdict V → Prop
  | .satisfied decided => decided.Decides cs
  | .refuted => ∀ a : Valuation V, ¬ a.Satisfies cs
  | .failed e => allowed e

/-- A node that is settled has the right verdict and never fails. A split fixes variables, loses no
model and is on a variable that is left. -/
def Node.Justified (f : Formula V) : Node V → Prop
  | .settled verdict => verdict.Justified (fun _ => False) f.clauses
  | .split decided rest v => Formula.Fixes f decided rest ∧ Occurs rest.clauses v ∧
      ∀ a : Valuation V, a.Satisfies f.clauses → a.Satisfies rest.clauses

def Budget.Fails (budget : Budget) (e : SolveError V) : Prop :=
  ∃ x stats, e = .exhausted x ∧ budget.exhausted? stats = some x

namespace Formula

omit [BEq V] in
theorem hasEmptyClause_iff {f : Formula V} : f.hasEmptyClause = true ↔ [] ∈ f.clauses := by
  simp [hasEmptyClause]

/-- Without variables every clause would be empty. -/
theorem clauses_eq_nil {f : Formula V} [EquivBEq V] (listed : f.Listed)
    (no_empty : [] ∉ f.clauses) (none : f.vars = []) : f.clauses = [] := by
  apply List.eq_nil_iff_forall_not_mem.mpr
  intro c hc
  obtain ⟨l, hl⟩ := List.exists_mem_of_ne_nil c (fun he => no_empty (he ▸ hc))
  have := (listed l.var).mpr ⟨c, hc, l, hl, BEq.rfl⟩
  rw [none] at this
  cases this

variable [EquivBEq V]

theorem Fixes.decides_of_nil {f g : Formula V} {decided : Assignment V} (h : Fixes f decided g)
    (none : g.clauses = []) : decided.Decides f.clauses := by
  have nothing : Assignment.Decides ([] : Assignment V) g.clauses :=
    ⟨.nil, fun _ hp => absurd hp List.not_mem_nil, fun _ _ c hc => by simp [none] at hc⟩
  have := h.decides nothing
  rwa [List.append_nil] at this

theorem branch_justified {f g : Formula V} {decided : Assignment V} (h : Fixes f decided g)
    (listed : g.Listed) (no_empty : [] ∉ g.clauses)
    (keeps : ∀ a : Valuation V, a.Satisfies f.clauses → a.Satisfies g.clauses) :
    (g.branch decided).Justified f := by
  unfold branch
  split
  · rename_i hlast
    exact h.decides_of_nil (clauses_eq_nil listed no_empty (List.getLast?_eq_none_iff.mp hlast))
  · rename_i v hlast
    exact ⟨h, listed.grounded v (List.mem_of_getLast? hlast), keeps⟩

/-- Where no clause is empty and unit propagation does not give up, the elimination of pure literals
does not either, and the two fix variables in turn. -/
theorem pures_follow_units {f g : Formula V} {decided : Assignment V} (listed : f.Listed)
    (no_empty : [] ∉ f.clauses) (decides : f.propagateUnits.decided = some decided)
    (left : f.propagateUnits.formula = g) :
    ∃ more, (g.assignPure g.polarities).decided = some more ∧
      Fixes f (decided ++ more) (g.assignPure g.polarities).formula := by
  have units : Fixes f decided g := left ▸ propagateUnits_fixes decides
  obtain ⟨more, pure⟩ := Option.ne_none_iff_exists'.mp
    fun none => units.no_empty no_empty (assignPure_none none)
  have pures := assignPure_fixes (units.listed listed).grounded pure
  exact ⟨more, pure, units.append pures⟩

theorem simplify_justified {f : Formula V} (listed : f.Listed) (no_empty : [] ∉ f.clauses) :
    f.simplify.2.Justified f := by
  simp only [simplify]
  split
  · rename_i gives_up
    exact propagateUnits_none gives_up
  rename_i decided decides
  obtain ⟨more, pure, fixed⟩ := pures_follow_units listed no_empty decides rfl
  rw [pure]
  exact branch_justified fixed (fixed.listed listed) (fixed.no_empty no_empty) fun a ha =>
    assignPure_satisfies (propagateUnits_satisfies decides ha)

theorem examine_eq (f : Formula V) :
    f.examine =
      if f.hasEmptyClause then ([], .settled .refuted)
      else if f.polarities.isConsistent then ([], .settled (.satisfied f.polarities.assignment))
      else f.simplify := by
  unfold examine
  dsimp only
  split
  · rfl
  rename_i some_clause
  split
  · rename_i consistent
    rw [evaluate_of_consistent consistent (mt hasEmptyClause_iff.mpr some_clause)]
  · rfl

theorem examine_justified {f : Formula V} (listed : f.Listed) : f.examine.2.Justified f := by
  rw [examine_eq]
  split
  · rename_i hempty
    exact fun a ha => ha.no_empty (hasEmptyClause_iff.mp hempty)
  rename_i hempty
  have no_empty : [] ∉ f.clauses := fun he => hempty (hasEmptyClause_iff.mpr he)
  split
  · rename_i consistent
    exact decides_of_consistent consistent no_empty
  · exact simplify_justified listed no_empty

theorem expand_justified (f : Formula V) : f.expand.2.Justified f.copy :=
  examine_justified (listed_copy f)

theorem settled_justified {f : Formula V} {events : List (Event V)} {verdict : Verdict V}
    (h : f.expand = (events, .settled verdict)) :
    verdict.Justified (fun _ => False) f.clauses := by
  have node := f.expand_justified
  rw [h] at node
  exact node

theorem split_justified {f rest : Formula V} {events : List (Event V)} {decided : Assignment V}
    {v : V} (h : f.expand = (events, .split decided rest v)) :
    Fixes f.copy decided rest ∧ Occurs rest.clauses v ∧
      ∀ a : Valuation V, a.Satisfies f.clauses → a.Satisfies rest.clauses := by
  have node := f.expand_justified
  rw [h] at node
  exact node

/-- The variable that a split is on stays in the list. -/
theorem covered_of_split {f rest : Formula V} {events : List (Event V)} {decided : Assignment V}
    {v : V} (h : f.expand = (events, .split decided rest v)) (sign : Bool) :
    (rest.withUnit ⟨v, sign⟩).Covered := by
  obtain ⟨fixed, hv, -⟩ := split_justified h
  intro w hw
  exact (fixed.listed (listed_copy f) w).mpr (occurs_withUnit hv hw)

/-- The unit clause that a split adds brings no variable back. -/
theorem decides_of_withUnit {f : Formula V} {l : Literal V} {decided : Assignment V}
    (hl : Occurs f.clauses l.var) (h : decided.Decides (f.withUnit l).clauses) :
    decided.Decides f.clauses :=
  ⟨h.once, fun p hp => occurs_withUnit hl (h.occurs p hp),
    fun a agrees => (Valuation.satisfies_append.mp (h.satisfies a agrees)).1⟩

end Formula

namespace Verdict

theorem Justified.mono {allowed more : SolveError V → Prop} {cs : List (Clause V)}
    {verdict : Verdict V} (h : verdict.Justified allowed cs) (weaker : ∀ e, allowed e → more e) :
    verdict.Justified more cs := by
  cases verdict with
  | satisfied decided => exact h
  | refuted => exact h
  | failed e => exact weaker e h

theorem Justified.after [EquivBEq V] {allowed : SolveError V → Prop} {f g : Formula V}
    {l : Literal V} {decided : Assignment V} {verdict : Verdict V}
    (h : verdict.Justified allowed (g.withUnit l).clauses) (fixed : Formula.Fixes f decided g)
    (hl : Occurs g.clauses l.var)
    (refuted : verdict = .refuted → ∀ a : Valuation V, ¬ a.Satisfies f.clauses) :
    (verdict.after decided).Justified allowed f.clauses := by
  cases verdict with
  | satisfied more => exact fixed.decides (Formula.decides_of_withUnit hl h)
  | refuted => exact refuted rfl
  | failed e => exact h

theorem refuted_of_children {allowed : SolveError V → Prop} {g : Formula V} {v : V}
    (low : Verdict.refuted.Justified allowed (g.withUnit ⟨v, false⟩).clauses)
    (high : Verdict.refuted.Justified allowed (g.withUnit ⟨v, true⟩).clauses) (a : Valuation V) :
    ¬ a.Satisfies g.clauses := by
  intro ha
  cases hv : a.value v with
  | false => exact low a (Valuation.satisfies_append.mpr ⟨ha, Valuation.satisfies_unit.mpr hv.symm⟩)
  | true => exact high a (Valuation.satisfies_append.mpr ⟨ha, Valuation.satisfies_unit.mpr hv.symm⟩)

end Verdict

/-- Whatever the budget, the verdict of a search is right unless the budget made it fail. -/
theorem search_justified [EquivBEq V] (budget : Budget) (depth : Nat) (f : Formula V)
    (stats : Stats) : (search budget depth f stats).verdict.Justified budget.Fails f.clauses := by
  fun_induction search budget depth f stats with
  | case1 _ _ stats e he => exact ⟨e, stats, rfl, he⟩
  | case2 _ f _ _ _ _ _ hnode =>
    exact (Formula.settled_justified hnode).mono fun _ => False.elim
  | case3 _ f _ _ _ _ _ _ _ hnode low _ hlow high ihLow _ ihHigh =>
    obtain ⟨fixed, hv, keeps⟩ := Formula.split_justified hnode
    -- Only here the verdict on the first child matters: it closes the way that the second leaves.
    apply ihHigh.after (f := f.copy) fixed hv
    intro hhigh a ha
    rw [show high.verdict = .refuted from hhigh] at ihHigh
    rw [show low.verdict = .refuted from hlow] at ihLow
    exact Verdict.refuted_of_children ihLow ihHigh a (keeps a ha)
  | case4 _ f _ _ _ _ _ _ _ hnode low _ hlow ihLow =>
    obtain ⟨fixed, hv, -⟩ := Formula.split_justified hnode
    exact ihLow.after (f := f.copy) fixed hv fun h => absurd h hlow

end Clausal
