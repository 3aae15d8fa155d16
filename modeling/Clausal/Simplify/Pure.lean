import Clausal.Polarity
import Clausal.Simplify.Unit

namespace Clausal

variable {V : Type} [BEq V]

namespace Formula

def settlePure : Polarities V → Formula V → Assignment V → Simplified V
  | [], f, decided => ⟨f, some decided, []⟩
  | (v, pol) :: pols, f, decided =>
    if pol.isPure && f.vars.contains v then
      let value : Bool := pol = .positive
      match f.assign v value with
      | (g, true) => settlePure pols g (decided ++ [(v, value)])
      | (g, false) => ⟨g, none, [.emptiedByPure v value]⟩
    else settlePure pols f decided

def assignPure (f : Formula V) (pols : Polarities V) : Simplified V :=
  settlePure pols f []

/-- What fixing a variable keeps, the elimination keeps as well, whatever polarities are given. -/
theorem settlePure_keeps {P : Formula V → Prop}
    (step : ∀ (f : Formula V) (v : V) (value : Bool), P f → P (f.assign v value).1)
    {f : Formula V} {pols : Polarities V} {decided : Assignment V} (start : P f) :
    P (settlePure pols f decided).formula := by
  fun_induction settlePure pols f decided with
  | case1 => exact start
  | case2 v _ _ f _ _ value g hg ih =>
    have next := step f v value start
    rw [hg] at next
    exact ih next
  | case3 v _ _ f _ _ value g hg =>
    have next := step f v value start
    rwa [hg] at next
  | case4 _ _ _ _ _ _ ih => exact ih start

variable [EquivBEq V]

theorem grounded_settlePure {f : Formula V} {pols : Polarities V} {decided : Assignment V}
    (h : f.Grounded) : (settlePure pols f decided).formula.Grounded :=
  settlePure_keeps (fun f v value _ => grounded_assign f v value) h

theorem occurs_settlePure {f : Formula V} {pols : Polarities V} {decided : Assignment V} {w : V}
    (h : Occurs (settlePure pols f decided).formula.clauses w) : Occurs f.clauses w := by
  have back : Occurs (settlePure pols f decided).formula.clauses w → Occurs f.clauses w :=
    settlePure_keeps (P := fun g => Occurs g.clauses w → Occurs f.clauses w)
      (fun _ _ _ before hw => before (occurs_assign hw).1) id
  exact back h

theorem grounded_assignPure {f : Formula V} {pols : Polarities V} (h : f.Grounded) :
    (f.assignPure pols).formula.Grounded :=
  grounded_settlePure h

theorem occurs_assignPure {f : Formula V} {pols : Polarities V} {w : V}
    (h : Occurs (f.assignPure pols).formula.clauses w) : Occurs f.clauses w :=
  occurs_settlePure h

end Formula
end Clausal
