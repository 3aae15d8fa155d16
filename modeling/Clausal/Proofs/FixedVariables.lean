import Clausal.Proofs.Bookkeeping
import Clausal.Proofs.Evaluation
import Clausal.Proofs.Substitution

namespace Clausal

variable {V : Type} [BEq V] [EquivBEq V]

namespace Assignment

omit [EquivBEq V] in
theorem leave_congr {xs ys : Assignment V} (same : ∀ v, xs.value? v = ys.value? v)
    (cs : List (Clause V)) : xs.leave cs = ys.leave cs := by
  have literals : Literal.trueUnder xs = Literal.trueUnder ys := by
    funext l
    rw [Literal.trueUnder, Literal.trueUnder, same]
  simp only [leave, literals, same]

variable {x y : V} {b c : Bool}

omit [EquivBEq V] in
theorem value?_single (other : (y == x) = false) : value? [(y, c)] x = none := by
  simp [value?, other]

theorem value?_swap (other : (x == y) = false) (v : V) :
    value? [(x, b), (y, c)] v = value? [(y, c), (x, b)] v := by
  have back : (y == x) = false := by rw [BEq.comm, other]
  rw [value?_cons (value?_single back), value?_cons (value?_single other)]
  cases hx : (x == v) with
  | false => simp [value?, hx]
  | true =>
    have unnamed : (y == v) = false := by rw [← BEq.congr_right hx, back]
    simp [value?, hx, unnamed]

end Assignment

theorem reduce_twice {x y : V} {b c : Bool} (other : (x == y) = false) (cs : List (Clause V)) :
    (reduce y c (reduce x b cs).1).1 = Assignment.leave [(x, b), (y, c)] cs := by
  have fresh : Assignment.value? [(y, c)] x = none :=
    Assignment.value?_single (by rw [BEq.comm, other])
  rw [Assignment.leave_cons fresh, Assignment.leave_cons rfl, Assignment.leave_nil]

theorem reduce_comm {x y : V} {b c : Bool} (other : (x == y) = false) (cs : List (Clause V)) :
    (reduce y c (reduce x b cs).1).1 = (reduce x b (reduce y c cs).1).1 := by
  rw [reduce_twice other, reduce_twice (by rw [BEq.comm, other])]
  exact Assignment.leave_congr (Assignment.value?_swap other) cs

/-- Pairs whose last value for the variable is the fixed one need not cover anything else. -/
theorem Assignment.meets_reduce {pairs : Assignment V} {x : V} {b : Bool} {cs : List (Clause V)}
    (last : pairs.LastIs x b) : pairs.Meets (reduce x b cs).1 ↔ pairs.Meets cs := by
  apply forall_exists_reduce
  intro l same
  rw [lastIs_iff, value?_congr same, lastIs_iff.mp last, Option.some.injEq, eq_comm]

namespace Formula

omit [EquivBEq V] in
theorem Leaves.eq_of_clauses {f g h : Formula V} (hg : Leaves f g) (hh : Leaves f h)
    (same : g.clauses = h.clauses) : g = h := by
  have vars : g.vars = h.vars := by rw [hg.vars, hh.vars, freeVariables, freeVariables, same]
  have declared : g.declared = h.declared := hg.declared.trans hh.declared.symm
  cases g
  cases h
  cases same
  cases vars
  cases declared
  rfl

omit [EquivBEq V] in
theorem assign_consistent {f : Formula V} {x : V} {b : Bool} :
    (f.assign x b).2 = true ↔ [] ∉ (f.assign x b).1.clauses :=
  reduce_consistent

/-- Of two variables it does not matter which one is fixed first. -/
theorem assign_comm {f : Formula V} (listed : f.Listed) {x y : V} (other : (x == y) = false)
    (b c : Bool) : (f.assign x b).1.assign y c = (f.assign y c).1.assign x b := by
  have left (v w : V) (p q : Bool) : Leaves f ((f.assign v p).1.assign w q).1 :=
    (Leaves.refl listed).trans (Leaves.then_assign listed _ w q (Leaves.assign listed v p))
  have formulas : ((f.assign x b).1.assign y c).1 = ((f.assign y c).1.assign x b).1 :=
    (left x y b c).eq_of_clauses (left y x c b) (reduce_comm other f.clauses)
  refine Prod.ext formulas ?_
  rw [Bool.eq_iff_iff, assign_consistent, assign_consistent, formulas]

theorem evaluate_assign {f : Formula V} {pairs : Assignment V} {x : V} {b t : Bool}
    (last : pairs.LastIs x b) (value : f.evaluate pairs = .ok t) :
    (f.assign x b).1.evaluate pairs = .ok t := by
  obtain ⟨covers, truth⟩ := evaluate_eq_ok_iff.mp value
  refine evaluate_eq_ok_iff.mpr ⟨fun v hv => covers v (occurs_assign hv).1, truth.trans ?_⟩
  exact (Assignment.meets_reduce last).symm

/-- A variable that is fixed occurs no more. Under every assignment that gives it the value,
whatever else that leaves open, the clauses that are left are true exactly if the clauses were, and
evaluation gives the same answer. It is told whether a clause is left empty. Where exactly the
variables that occur are listed, two different variables may be fixed in either order: the clauses,
the list of variables and what is told are the same. -/
theorem variable_fixed (f : Formula V) (x : V) (b : Bool) :
    ¬ Occurs (f.assign x b).1.clauses x ∧
    (∀ a : Valuation V, a.value x = b →
      (a.Satisfies (f.assign x b).1.clauses ↔ a.Satisfies f.clauses)) ∧
    (∀ pairs : Assignment V, pairs.LastIs x b →
      (pairs.Meets (f.assign x b).1.clauses ↔ pairs.Meets f.clauses) ∧
      ∀ t, f.evaluate pairs = .ok t → (f.assign x b).1.evaluate pairs = .ok t) ∧
    ((f.assign x b).2 = true ↔ [] ∉ (f.assign x b).1.clauses) ∧
    ∀ y c, (x == y) = false → f.reconcile = f →
      (f.assign x b).1.assign y c = (f.assign y c).1.assign x b := by
  refine ⟨?_, fun a fixed => satisfies_reduce fixed, ?_, assign_consistent, ?_⟩
  · intro occurs
    have apart := (occurs_assign occurs).2
    simp at apart
  · intro pairs last
    exact ⟨Assignment.meets_reduce last, fun t => evaluate_assign last⟩
  · intro y c other reconciled
    have listed : f.Listed := reconciled ▸ listed_reconcile f
    exact assign_comm listed other b c

/-- Variables that are not listed beforehand are listed as they occur in what the first step
leaves. -/
example :
    let f : Formula Nat :=
      ⟨[[⟨1, true⟩, ⟨3, true⟩], [⟨4, true⟩], [⟨2, true⟩, ⟨3, true⟩]], [], []⟩
    ((f.assign 1 true).1.assign 2 false).1.vars = [4, 3] ∧
      ((f.assign 2 false).1.assign 1 true).1.vars = [3, 4] := by
  decide

/-- A variable in two forms, with both signs in one clause and twice with one sign in another. -/
def doubled : Formula Variable where
  clauses := [[⟨.number 1, true⟩, ⟨.number 1, false⟩, ⟨.text "a", true⟩],
    [⟨.truth true, false⟩, ⟨.text "b", false⟩, ⟨.number 1, false⟩, ⟨.text "b", false⟩],
    [⟨.text "a", false⟩, ⟨.text "b", true⟩]]
  vars := [.text "b", .number 1, .text "a"]
  declared := [.text "b", .number 1, .text "a"]

def twoValues : Assignment Variable :=
  [(.number 1, false), (.text "b", true), (.truth true, true)]

theorem doubled_variable_fixed :
    twoValues.valuation.value (.number 1) = true ∧
      (twoValues.valuation.Satisfies (doubled.assign (.number 1) true).1.clauses ↔
        twoValues.valuation.Satisfies doubled.clauses) ∧
      twoValues.LastIs (.number 1) true ∧
      (twoValues.Meets (doubled.assign (.number 1) true).1.clauses ↔
        twoValues.Meets doubled.clauses) ∧
      doubled.evaluate ((.text "a", false) :: twoValues) = .ok false ∧
      (doubled.assign (.number 1) true).1.evaluate ((.text "a", false) :: twoValues) = .ok false ∧
      ((.number 1 : Variable) == .text "b") = false ∧ doubled.reconcile = doubled ∧
      (doubled.assign (.number 1) true).1.assign (.text "b") true =
        (doubled.assign (.text "b") true).1.assign (.number 1) true := by
  obtain ⟨-, valuations, pairs, -, order⟩ := variable_fixed doubled (.number 1) true
  have value : twoValues.valuation.value (.number 1) = true := by decide
  have last : twoValues.LastIs (.number 1) true := by decide
  have more : Assignment.LastIs ((.text "a", false) :: twoValues) (.number 1) true := by decide
  have truth : doubled.evaluate ((.text "a", false) :: twoValues) = .ok false := rfl
  have reconciled : doubled.reconcile = doubled := rfl
  exact ⟨value, valuations _ value, last, (pairs _ last).1, truth, (pairs _ more).2 false truth,
    rfl, reconciled, order _ true rfl reconciled⟩

end Formula
end Clausal
