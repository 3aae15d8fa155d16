import Clausal.Polarity
import Clausal.Proofs.Valuation

namespace Clausal

namespace Polarity

/-- Whether a variable of this polarity occurs with the sign. -/
def includes : Polarity → Bool → Bool
  | unknown, _ => false
  | positive, sign => sign
  | negative, sign => !sign
  | mixed, _ => true

@[simp] theorem includes_unknown (sign : Bool) : unknown.includes sign = false := rfl

@[simp] theorem includes_ofSign (s sign : Bool) : (ofSign s).includes sign = (s == sign) := by
  cases s <;> cases sign <;> rfl

@[simp] theorem includes_join (p q : Polarity) (sign : Bool) :
    (p.join q).includes sign = (p.includes sign || q.includes sign) := by
  cases p <;> cases q <;> cases sign <;> rfl

/-- A pure polarity includes one sign, the value that it stands for. -/
theorem isPure_iff {p : Polarity} :
    p.isPure = true ↔ ∀ sign, p.includes sign = true ↔ sign = (p = positive : Bool) := by
  cases p <;> decide

theorem eq_mixed_iff {p : Polarity} : p = mixed ↔ ∀ sign, p.includes sign = true := by
  cases p <;> decide

end Polarity

variable {V : Type} [BEq V]

theorem Clause.polarity_includes (v : V) (c : Clause V) (sign : Bool) :
    (c.polarity v).includes sign = c.any (fun l => l.var == v && l.sign == sign) := by
  have joined (p : Polarity) :
      (c.foldl (fun pol l => if l.var == v then pol.join (.ofSign l.sign) else pol) p).includes
        sign = (p.includes sign || c.any (fun l => l.var == v && l.sign == sign)) := by
    induction c generalizing p with
    | nil => simp
    | cons l ls ih =>
      rw [List.foldl_cons, ih, List.any_cons]
      cases l.var == v
      · simp
      · simp [Bool.or_assoc]
  exact joined .unknown

theorem Clause.polarity_includes_iff {v : V} {c : Clause V} {sign : Bool} :
    (c.polarity v).includes sign = true ↔ ∃ l ∈ c, (l.var == v) = true ∧ l.sign = sign := by
  simp [polarity_includes]

theorem Formula.polarities_eq (f : Formula V) :
    f.polarities = f.clauses.flatten.foldl Polarities.record [] :=
  List.foldl_flatten.symm

namespace Polarities

omit [BEq V] in
theorem map_fst_assignment (pols : Polarities V) :
    pols.assignment.map Prod.fst = pols.map Prod.fst := by
  simp [assignment]

variable [EquivBEq V]

theorem find?_record (pols : Polarities V) (l : Literal V) (v : V) :
    (find? (pols.record l) v).getD .unknown =
      if l.var == v then ((find? pols v).getD .unknown).join (.ofSign l.sign)
      else (find? pols v).getD .unknown := by
  rw [record, find?_put]
  cases hv : (l.var == v) with
  | false => rfl
  | true => simp [find?_congr hv]

theorem find?_foldl_record (ls : List (Literal V)) (pols : Polarities V) (v : V) :
    (find? (ls.foldl record pols) v).getD .unknown =
      ls.foldl (fun pol l => if l.var == v then pol.join (.ofSign l.sign) else pol)
        ((find? pols v).getD .unknown) := by
  induction ls generalizing pols with
  | nil => rfl
  | cons l ls ih => rw [List.foldl_cons, List.foldl_cons, ih, find?_record]

/-- New variables are listed behind the old ones, in order of first occurrence. -/
theorem map_fst_foldl_record (ls : List (Literal V)) (pols : Polarities V) :
    (ls.foldl record pols).map Prod.fst = pols.map Prod.fst ++
      (distinct (ls.map Literal.var)).filter (fun v => !(pols.map Prod.fst).contains v) := by
  induction ls generalizing pols with
  | nil => simp [distinct]
  | cons l ls ih =>
    rw [List.foldl_cons, ih, record, map_fst_put]
    simp only [List.map_cons, distinct, List.filter_cons]
    cases hl : (pols.map Prod.fst).contains l.var with
    | true =>
      simp only [↓reduceIte, Bool.not_true, Bool.false_eq_true, List.filter_filter]
      congr 1
      apply List.filter_congr
      intro v _
      cases hv : (l.var == v) with
      | false => simp
      | true => rw [← contains_congr hv, hl]; rfl
    | false =>
      simp only [Bool.false_eq_true, ↓reduceIte, Bool.not_false, List.append_assoc,
        List.cons_append, List.nil_append, List.filter_filter]
      congr 2
      apply List.filter_congr
      intro v _
      rw [List.contains_append, Bool.not_or]
      simp [BEq.comm (a := v)]

end Polarities

namespace Formula

variable [EquivBEq V]

theorem map_fst_polarities (f : Formula V) : f.polarities.map Prod.fst = f.freeVariables := by
  rw [polarities_eq, Polarities.map_fst_foldl_record]
  simp [freeVariables, variablesOf]

theorem once_polarities (f : Formula V) : NoRepeat (f.polarities.map Prod.fst) := by
  rw [map_fst_polarities]
  exact pairwise_distinct _

/-- A variable has the polarity that it has over all literals in one clause. -/
theorem find?_polarities (f : Formula V) (v : V) :
    (find? f.polarities v).getD .unknown = Clause.polarity v f.clauses.flatten := by
  rw [polarities_eq, Polarities.find?_foldl_record]
  rfl

theorem eq_polarity_of_mem {f : Formula V} {v : V} {pol : Polarity}
    (h : (v, pol) ∈ f.polarities) : pol = Clause.polarity v f.clauses.flatten := by
  rw [← find?_polarities, find?_of_mem f.once_polarities h]
  rfl

theorem sign_of_pure {f : Formula V} {v : V} {pol : Polarity} (h : (v, pol) ∈ f.polarities)
    (hpure : pol.isPure = true) {c : Clause V} (hc : c ∈ f.clauses) {l : Literal V} (hl : l ∈ c)
    (hv : (l.var == v) = true) : l.sign = (pol = .positive : Bool) := by
  have := Clause.polarity_includes_iff.mpr
    ⟨l, List.mem_flatten.mpr ⟨c, hc, hl⟩, hv, rfl⟩
  rw [← eq_polarity_of_mem h] at this
  exact (Polarity.isPure_iff.mp hpure l.sign).mp this

theorem exists_polarity_of_occurs {f : Formula V} {v : V} (h : Occurs f.clauses v) :
    ∃ w pol, (w, pol) ∈ f.polarities ∧ (v == w) = true := by
  have hc : (f.polarities.map Prod.fst).contains v = true := by
    rw [map_fst_polarities]
    exact variablesOf_contains.mpr h
  obtain ⟨w, hw, hvw⟩ := List.contains_iff_exists_mem_beq.mp hc
  obtain ⟨⟨w, pol⟩, hm, rfl⟩ := List.mem_map.mp hw
  exact ⟨w, pol, hm, hvw⟩

/-- A valuation that takes consistent signs as its values makes every literal true. -/
theorem sign_of_consistent {f : Formula V} (consistent : f.polarities.isConsistent = true)
    {a : Valuation V} (agrees : a.Agrees f.polarities.assignment) {c : Clause V}
    (hc : c ∈ f.clauses) {l : Literal V} (hl : l ∈ c) : l.sign = a.value l.var := by
  obtain ⟨w, pol, hm, hw⟩ := exists_polarity_of_occurs ⟨c, hc, l, hl, BEq.rfl⟩
  have hpure : pol.isPure = true := List.all_eq_true.mp consistent _ hm
  have hvalue := agrees (w, (pol = .positive : Bool)) (List.mem_map.mpr ⟨_, hm, rfl⟩)
  rw [a.congr hw, hvalue]
  exact sign_of_pure hm hpure hc hl hw

theorem once_assignment (f : Formula V) : NoRepeat (f.polarities.assignment.map Prod.fst) := by
  rw [Polarities.map_fst_assignment]
  exact f.once_polarities

theorem covers_assignment (f : Formula V) : f.polarities.assignment.Covers f.clauses := by
  intro v hv
  rw [Assignment.value?_isSome, Polarities.map_fst_assignment, map_fst_polarities]
  exact variablesOf_contains.mpr hv

/-- Consistent signs settle a formula without empty clauses. -/
theorem decides_of_consistent {f : Formula V} (consistent : f.polarities.isConsistent = true)
    (no_empty : [] ∉ f.clauses) : f.polarities.assignment.Decides f.clauses where
  once := f.once_assignment
  occurs p hp := by
    have hm : p.1 ∈ f.polarities.map Prod.fst := by
      rw [← Polarities.map_fst_assignment]
      exact List.mem_map.mpr ⟨p, hp, rfl⟩
    rw [map_fst_polarities] at hm
    exact occurs_of_mem_variablesOf hm
  satisfies a agrees c hc := by
    obtain ⟨l, hl⟩ := List.exists_mem_of_ne_nil c (fun he => no_empty (he ▸ hc))
    exact ⟨l, hl, sign_of_consistent consistent agrees hc hl⟩

theorem evaluate_of_consistent {f : Formula V} (consistent : f.polarities.isConsistent = true)
    (no_empty : [] ∉ f.clauses) : f.evaluate f.polarities.assignment = .ok true :=
  (evaluate_eq_true_iff f.covers_assignment).mpr
    ((decides_of_consistent consistent no_empty).satisfies _
      (Assignment.agrees_valuation f.once_assignment))

end Formula
end Clausal
