import Clausal.Event
import Clausal.Formula.Assign
import Clausal.Formula.Evaluate

namespace Clausal

/-- A simplified formula with the values decided on the way, or none after a conflict. -/
structure Simplified (V : Type) where
  formula : Formula V
  decided : Option (Assignment V)
  events : List (Event V)

variable {V : Type} [BEq V]

def unitsOf : List (Clause V) → List (Literal V)
  | [] => []
  | [l] :: cs => l :: unitsOf cs
  | _ :: cs => unitsOf cs

omit [BEq V] in
theorem unitsOf_append (cs ds : List (Clause V)) :
    unitsOf (cs ++ ds) = unitsOf cs ++ unitsOf ds := by
  induction cs with
  | nil => rfl
  | cons c cs ih =>
    match c with
    | [] | [_] | _ :: _ :: _ => simp [unitsOf, ih]

theorem occurs_of_mem_unitsOf [EquivBEq V] {cs : List (Clause V)} {l : Literal V}
    (h : l ∈ unitsOf cs) : Occurs cs l.var := by
  induction cs with
  | nil => simp [unitsOf] at h
  | cons c cs ih =>
    have later (h : l ∈ unitsOf cs) : Occurs (c :: cs) l.var := by
      obtain ⟨d, hd, hl⟩ := ih h
      exact ⟨d, List.mem_cons_of_mem _ hd, hl⟩
    match c, later with
    | [], later => exact later h
    | [k], later =>
      rcases List.mem_cons.mp h with rfl | h
      · exact ⟨[l], by simp, l, by simp, BEq.rfl⟩
      · exact later h
    | _ :: _ :: _, later => exact later h

namespace Formula

def settleUnits : List (Literal V) → Formula V → Assignment V → Simplified V
  | [], f, decided => ⟨f, some decided, []⟩
  | l :: ls, f, decided =>
    match decided.value? l.var with
    | some value =>
      if value == l.sign then settleUnits ls f decided else ⟨f, none, [.conflictingUnits l.var]⟩
    | none =>
      match f.assign l.var l.sign with
      | (g, true) => settleUnits ls g (decided ++ [(l.var, l.sign)])
      | (g, false) => ⟨g, none, [.emptiedByUnit l]⟩

def propagateUnits (f : Formula V) : Simplified V :=
  settleUnits (unitsOf f.clauses) f []

/-- What fixing a variable keeps, a round keeps as well, whether or not it ends in a conflict. -/
theorem settleUnits_keeps {P : Formula V → Prop}
    (step : ∀ (f : Formula V) (v : V) (value : Bool), P f → P (f.assign v value).1)
    {ls : List (Literal V)} {f : Formula V} {decided : Assignment V} (start : P f) :
    P (settleUnits ls f decided).formula := by
  fun_induction settleUnits ls f decided with
  | case1 => exact start
  | case2 _ _ _ _ _ _ _ ih => exact ih start
  | case3 => exact start
  | case4 l _ f _ _ g hg ih =>
    have next := step f l.var l.sign start
    rw [hg] at next
    exact ih next
  | case5 l _ f _ _ g hg =>
    have next := step f l.var l.sign start
    rwa [hg] at next

variable [EquivBEq V]

theorem grounded_settleUnits {ls : List (Literal V)} {f : Formula V} {decided : Assignment V}
    (h : f.Grounded) : (settleUnits ls f decided).formula.Grounded :=
  settleUnits_keeps (fun f v value _ => grounded_assign f v value) h

theorem occurs_settleUnits {ls : List (Literal V)} {f : Formula V} {decided : Assignment V} {w : V}
    (h : Occurs (settleUnits ls f decided).formula.clauses w) : Occurs f.clauses w := by
  have back : Occurs (settleUnits ls f decided).formula.clauses w → Occurs f.clauses w :=
    settleUnits_keeps (P := fun g => Occurs g.clauses w → Occurs f.clauses w)
      (fun _ _ _ before hw => before (occurs_assign hw).1) id
  exact back h

theorem grounded_propagateUnits {f : Formula V} (h : f.Grounded) :
    f.propagateUnits.formula.Grounded :=
  grounded_settleUnits h

theorem occurs_propagateUnits {f : Formula V} {w : V}
    (h : Occurs f.propagateUnits.formula.clauses w) : Occurs f.clauses w :=
  occurs_settleUnits h

theorem first_unit_gone {f : Formula V} {l : Literal V} {ls : List (Literal V)} {w : V}
    (units : unitsOf f.clauses = l :: ls) (h : Occurs f.propagateUnits.formula.clauses w) :
    (l.var == w) = false := by
  rw [propagateUnits, units, settleUnits] at h
  simp only [Assignment.value?] at h
  split at h <;> rename_i g hg
  · have hg : g = (f.assign l.var l.sign).1 := by rw [hg]
    exact (occurs_assign (hg ▸ occurs_settleUnits h)).2
  · have hg : g = (f.assign l.var l.sign).1 := by rw [hg]
    exact (occurs_assign (hg ▸ h)).2

end Formula
end Clausal
