import Clausal.Formula

namespace Clausal

variable {V : Type} [BEq V]

/-- What is left of the clauses, and whether none of them was left empty. -/
def reduce (v : V) (value : Bool) : List (Clause V) → List (Clause V) × Bool
  | [] => ([], true)
  | c :: cs =>
    let (rest, consistent) := reduce v value cs
    if c.contains ⟨v, value⟩ then (rest, consistent)
    else
      let stripped := c.filter (fun l => !l.var == v)
      (stripped :: rest, !stripped.isEmpty && consistent)

theorem mem_reduce {v : V} {value : Bool} {clauses : List (Clause V)} {c : Clause V}
    (h : c ∈ (reduce v value clauses).1) :
    ∃ d ∈ clauses, d.contains ⟨v, value⟩ = false ∧ c = d.filter (fun l => !l.var == v) := by
  induction clauses with
  | nil => simp [reduce] at h
  | cons d ds ih =>
    simp only [reduce] at h
    split at h
    · obtain ⟨e, he, hk⟩ := ih h
      exact ⟨e, List.mem_cons_of_mem _ he, hk⟩
    · rename_i hd
      rcases List.mem_cons.mp h with rfl | h
      · exact ⟨d, List.mem_cons_self, by simpa using hd, rfl⟩
      · obtain ⟨e, he, hk⟩ := ih h
        exact ⟨e, List.mem_cons_of_mem _ he, hk⟩

theorem occurs_reduce [EquivBEq V] {v w : V} {value : Bool} {clauses : List (Clause V)}
    (h : Occurs (reduce v value clauses).1 w) : Occurs clauses w ∧ (v == w) = false := by
  obtain ⟨c, hc, l, hl, hw⟩ := h
  obtain ⟨d, hd, -, rfl⟩ := mem_reduce hc
  obtain ⟨hl, hv⟩ := List.mem_filter.mp hl
  refine ⟨⟨d, hd, l, hl, hw⟩, ?_⟩
  cases hvw : (v == w) with
  | false => rfl
  | true =>
    rw [BEq.trans hw (BEq.symm hvw)] at hv
    exact absurd hv (by decide)

namespace Formula

/-- The formula after the variable is fixed, and whether no clause was left empty. -/
def assign (f : Formula V) (v : V) (value : Bool) : Formula V × Bool :=
  let (clauses, consistent) := reduce v value f.clauses
  (reconcile { f with clauses := clauses }, consistent)

theorem grounded_assign [EquivBEq V] (f : Formula V) (v : V) (value : Bool) :
    (f.assign v value).1.Grounded :=
  grounded_reconcile _

theorem occurs_assign [EquivBEq V] {f : Formula V} {v w : V} {value : Bool}
    (h : Occurs (f.assign v value).1.clauses w) : Occurs f.clauses w ∧ (v == w) = false :=
  occurs_reduce h

end Formula
end Clausal
