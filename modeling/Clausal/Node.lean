import Clausal.Budget
import Clausal.Simplify.Pure

namespace Clausal

inductive SolveError (V : Type) where
  | exhausted (e : Exhausted)
  | unassigned (v : V)
  /-- The answer does not make the formula true. -/
  | invalid (pairs : Assignment V)

/-- The answer of a search: the pairs decided on the way to a model, no model, or no answer. -/
inductive Verdict (V : Type) where
  | satisfied (decided : Assignment V)
  | refuted
  | failed (e : SolveError V)

/-- A node of the search is settled, or it is split on a variable of its simplified formula. -/
inductive Node (V : Type) where
  | settled (verdict : Verdict V)
  | split (decided : Assignment V) (rest : Formula V) (v : V)

variable {V : Type} [BEq V]

/-- The node after both simplifications. A formula without variables has no clause left. -/
def Formula.branch (f : Formula V) (decided : Assignment V) : Node V :=
  match f.vars.getLast? with
  | none => .settled (.satisfied decided)
  | some v => .split decided f v

def Formula.simplify (f : Formula V) : List (Event V) × Node V :=
  let units := f.propagateUnits
  match units.decided with
  | none => (units.events, .settled .refuted)
  | some decided =>
    let pure := units.formula.assignPure units.formula.polarities
    match pure.decided with
    | none => (units.events ++ pure.events, .settled .refuted)
    | some more => (units.events ++ pure.events, pure.formula.branch (decided ++ more))

/-- A formula in which every variable has one sign is satisfied by these signs. -/
def Formula.examine (f : Formula V) : List (Event V) × Node V :=
  let pols := f.polarities
  if f.hasEmptyClause then ([], .settled .refuted)
  else if pols.isConsistent then
    match f.evaluate pols.assignment with
    | .ok true => ([], .settled (.satisfied pols.assignment))
    | .ok false => f.simplify
    | .error v => ([], .settled (.failed (.unassigned v)))
  else f.simplify

/-- A node works on a copy of its formula, and the making of the copy reports first. -/
def Formula.expand (f : Formula V) : List (Event V) × Node V :=
  let (events, node) := f.copy.examine
  (f.copyReport ++ events, node)

/-- Twice the number of variables, and one more while there is no unit clause. -/
def Formula.weight (f : Formula V) : Nat :=
  2 * f.freeVariables.length + if (unitsOf f.clauses).isEmpty then 1 else 0

namespace Formula

variable [EquivBEq V]

/-- A split is on a variable of its formula, whose variables are those of the parent, less the
variable of a unit clause if there was one. -/
theorem split_simplify {f rest : Formula V} {decided : Assignment V} {v : V}
    {events : List (Event V)} (grounded : f.Grounded)
    (h : f.simplify = (events, .split decided rest v)) :
    Occurs rest.clauses v ∧ (∀ w, Occurs rest.clauses w → Occurs f.clauses w) ∧
      ∀ l ls, unitsOf f.clauses = l :: ls → ∀ w, Occurs rest.clauses w → (l.var == w) = false := by
  simp only [simplify] at h
  split at h
  · simp at h
  split at h
  · simp at h
  simp only [Prod.mk.injEq, branch] at h
  replace h := h.2
  split at h
  · simp at h
  rename_i hlast
  simp only [Node.split.injEq] at h
  obtain ⟨-, rfl, rfl⟩ := h
  refine ⟨?_, ?_, ?_⟩
  · exact grounded_assignPure (grounded_propagateUnits grounded) _ (List.mem_of_getLast? hlast)
  · exact fun w hw => occurs_propagateUnits (occurs_assignPure hw)
  · exact fun l ls units w hw => first_unit_gone units (occurs_assignPure hw)

omit [EquivBEq V] in
theorem simplify_of_examine_split {f rest : Formula V} {decided : Assignment V} {v : V}
    {events : List (Event V)} (h : f.examine = (events, .split decided rest v)) :
    f.simplify = (events, .split decided rest v) := by
  simp only [examine] at h
  split at h
  · cases h
  split at h
  · split at h
    · cases h
    · exact h
    · cases h
  · exact h

omit [EquivBEq V] in
theorem examine_of_expand {f : Formula V} {events : List (Event V)} {node : Node V}
    (h : f.expand = (events, node)) :
    ∃ told, f.copy.examine = (told, node) ∧ events = f.copyReport ++ told := by
  obtain ⟨rfl, rfl⟩ := Prod.ext_iff.mp h
  exact ⟨f.copy.examine.1, rfl, rfl⟩

theorem split_expand {f rest : Formula V} {decided : Assignment V} {v : V}
    {events : List (Event V)} (h : f.expand = (events, .split decided rest v)) :
    Occurs rest.clauses v ∧ (∀ w, Occurs rest.clauses w → Occurs f.clauses w) ∧
      ∀ l ls, unitsOf f.clauses = l :: ls → ∀ w, Occurs rest.clauses w → (l.var == w) = false := by
  obtain ⟨told, split, -⟩ := examine_of_expand h
  exact split_simplify (f := f.copy) (grounded_copy f) (simplify_of_examine_split split)

theorem occurs_withUnit {f : Formula V} {l : Literal V} {w : V} (hl : Occurs f.clauses l.var)
    (h : Occurs (f.withUnit l).clauses w) : Occurs f.clauses w := by
  obtain ⟨c, hc, k, hk, hw⟩ := h
  rcases List.mem_append.mp hc with hc | hc
  · exact ⟨c, hc, k, hk, hw⟩
  · obtain ⟨d, hd, m, hm, hlm⟩ := hl
    simp only [List.mem_singleton] at hc
    subst hc
    simp only [List.mem_singleton] at hk
    subst hk
    exact ⟨d, hd, m, hm, BEq.trans hlm hw⟩

omit [EquivBEq V] in
theorem weight_withUnit (f : Formula V) (l : Literal V) :
    (f.withUnit l).weight = 2 * (f.withUnit l).freeVariables.length := by
  simp [weight, withUnit, unitsOf_append, unitsOf]

/-- Both children of a split weigh less than their parent. -/
theorem weight_split {f rest : Formula V} {decided : Assignment V} {v : V}
    {events : List (Event V)} (h : f.expand = (events, .split decided rest v)) (sign : Bool) :
    (rest.withUnit ⟨v, sign⟩).weight < f.weight := by
  obtain ⟨hv, sub, gone⟩ := split_expand h
  have covers : ∀ w ∈ (rest.withUnit ⟨v, sign⟩).freeVariables, f.freeVariables.contains w = true :=
    fun w hw => variablesOf_contains.mpr
      (sub w (occurs_withUnit hv (occurs_of_mem_variablesOf hw)))
  rw [weight_withUnit, weight]
  cases hu : unitsOf f.clauses with
  | nil =>
    -- As many variables may be left, but the child has the unit clause that its parent lacked.
    have : (rest.withUnit ⟨v, sign⟩).freeVariables.length ≤ f.freeVariables.length :=
      length_le_of_covers (pairwise_distinct _) covers
    simp only [List.isEmpty_nil, ↓reduceIte]
    omega
  | cons l ls =>
    have : (rest.withUnit ⟨v, sign⟩).freeVariables.length < f.freeVariables.length := by
      refine length_lt_of_covers (y := l.var) (pairwise_distinct _) covers
        (variablesOf_contains.mpr (occurs_of_mem_unitsOf (hu ▸ List.mem_cons_self))) ?_
      cases hc : (rest.withUnit ⟨v, sign⟩).freeVariables.contains l.var with
      | false => rfl
      | true =>
        have := gone l ls hu _ (occurs_withUnit hv (variablesOf_contains.mp hc))
        simp at this
    simp only [List.isEmpty_cons, Bool.false_eq_true, ↓reduceIte]
    omega

end Formula

end Clausal
