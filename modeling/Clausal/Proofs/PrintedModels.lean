import Mathlib.Data.Set.List
import Clausal.Proofs.Completion
import Clausal.Proofs.Equivariance
import Clausal.Proofs.Printing
import Clausal.Proofs.Readers

namespace Clausal

open Text Dimacs

section Numbers

/-- The variables of the clauses are positive numbers. -/
def Numbered (cs : List (Clause Variable)) : Prop :=
  ∀ c ∈ cs, ∀ l ∈ c, ∃ n : Int, 0 < n ∧ l.var = .number n

theorem number_of_ofInt {z : Int} {l : Literal Variable} (h : Item.ofInt z = .ok l) :
    ∃ n : Int, 0 < n ∧ l.var = .number n := by
  rw [Item.ofInt, Literal.ofInt?] at h
  by_cases zero : z = 0
  · rw [if_pos zero] at h
    cases h
  · rw [if_neg zero] at h
    cases h
    exact ⟨z.natAbs, by omega, rfl⟩

theorem number_of_parseClause {line : List Char} {c : Clause Variable}
    (h : parseClause line = .ok c) {l : Literal Variable} (hl : l ∈ c) :
    ∃ n : Int, 0 < n ∧ l.var = .number n := by
  rw [parseClause] at h
  split at h
  · cases h
  · rename_i values _
    cases hns : literalNumbers values with
    | error fault =>
      rw [hns] at h
      cases h
    | ok ns =>
      rw [hns] at h
      cases made : ns.mapM Item.ofInt with
      | error e =>
        rw [Except.bind, made] at h
        cases h
      | ok c' =>
        rw [Except.bind, made] at h
        cases h
        obtain ⟨z, -, hz⟩ := exists_of_forall₂ (mapM_eq_ok_iff.mp made) hl
        exact number_of_ofInt hz

theorem Dimacs.ReadAs.numbered {ls : List (List Char)} {clauses : List (Clause Variable)}
    (h : ReadAs ls clauses) : Numbered clauses := by
  intro c hc l hl
  obtain ⟨line, -, parsed⟩ := h.line_of_mem hc
  exact number_of_parseClause parsed hl

theorem Numbered.renamed {cs : List (Clause Variable)} (h : Numbered cs) :
    ∃ ds : List (Clause Int), cs = numbers.clauses ds ∧ ∀ d ∈ ds, ∀ l ∈ d, 0 < l.var := by
  obtain ⟨ds, rfl⟩ := exists_clauses_of_numbers fun c hc l hl =>
    (h c hc l hl).imp fun _ named => named.2
  refine ⟨ds, rfl, ?_⟩
  intro d hd l hl
  obtain ⟨n, positive, named⟩ := h _ (List.mem_map_of_mem hd) _ (List.mem_map_of_mem hl)
  cases named
  exact positive

theorem outcome_numbers {clock : Nat → Float} {ds : List (Clause Int)} {options : Options}
    {result : Result Variable}
    (h : ((Formula.ofClauses (numbers.clauses ds) none).solve clock options).outcome = .ok result) :
    ∃ a, ((Formula.ofClauses ds none).solve clock options).outcome = .ok a ∧
      result = numbers.result a := by
  have renamed : Formula.ofClauses (numbers.clauses ds) none =
      numbers.formula (Formula.ofClauses ds none) := numbers.ofClauses_clauses ds none
  rw [renamed, numbers.solve_formula] at h
  simp only [Renaming.run] at h
  cases ha : ((Formula.ofClauses ds none).solve clock options).outcome with
  | error e =>
    rw [ha] at h
    cases h
  | ok a =>
    rw [ha] at h
    cases h
    exact ⟨a, rfl, rfl⟩

theorem contains_complete_ofClauses {ds : List (Clause Int)} {decided : Assignment Int}
    (options : Options) (occurs : ∀ p ∈ decided, Occurs (Formula.ofClauses ds none).clauses p.1)
    (n : Int) :
    (((Formula.ofClauses ds none).complete options decided).map Prod.fst).contains n = true ↔
      Occurs ds n := by
  have declared : (Formula.ofClauses ds none).declared = variablesOf (ds.map distinct) := rfl
  have clauses : (Formula.ofClauses ds none).clauses = ds.map distinct := rfl
  rw [Formula.contains_complete options occurs, declared, clauses, variablesOf_contains, or_self,
    occurs_map_distinct]

theorem assigned_ofClauses {clock : Nat → Float} {ds : List (Clause Int)} {options : Options}
    {a : Result Int} (h : ((Formula.ofClauses ds none).solve clock options).outcome = .ok a)
    (sat : a.status = .satisfiable) :
    (a.assignment.map Prod.fst).Nodup ∧ ∀ n ∈ a.assignment.map Prod.fst, Occurs ds n := by
  obtain ⟨decided, -, right, filled⟩ := Formula.decides_of_satisfiable h sat
  have nodup {ns : List Int} (once : NoRepeat ns) : ns.Nodup := by
    refine once.imp ?_
    intro m n differ same
    rw [same, beq_self_eq_true] at differ
    cases differ
  rw [filled]
  split
  · refine ⟨nodup (Formula.once_complete options right.once), ?_⟩
    intro n hn
    rw [← List.contains_iff_mem, contains_complete_ofClauses options right.occurs] at hn
    exact hn
  · refine ⟨nodup right.once, ?_⟩
    intro n hn
    obtain ⟨p, hp, rfl⟩ := List.mem_map.mp hn
    exact occurs_map_distinct.mp (right.occurs p hp)

/-- A model of a formula assigns each number that occurs once, and no other, and makes a literal of
each clause true. -/
theorem assignment_ofClauses {clock : Nat → Float} {ds : List (Clause Int)} {options : Options}
    {a : Result Int} (fill : options.fillUnconstrained = true)
    (h : ((Formula.ofClauses ds none).solve clock options).outcome = .ok a)
    (sat : a.status = .satisfiable) :
    (a.assignment.map Prod.fst).Nodup ∧
      (∀ n, n ∈ a.assignment.map Prod.fst ↔ Occurs ds n) ∧
      ∀ d ∈ ds, ∃ l ∈ d, (l.var, l.sign) ∈ a.assignment := by
  refine ⟨(assigned_ofClauses h sat).1, ?_⟩
  obtain ⟨decided, -, right, filled⟩ := Formula.decides_of_satisfiable h sat
  rw [fill, if_pos rfl] at filled
  rw [filled]
  refine ⟨?_, ?_⟩
  · intro n
    rw [← List.contains_iff_mem, contains_complete_ofClauses options right.occurs]
  · have covers := (Formula.ofClauses ds none).complete_covers options decided
    have models :=
      (Formula.evaluate_eq_true_iff covers).mp (Formula.evaluate_complete options right)
    intro d hd
    obtain ⟨l, hl, sign⟩ := Valuation.satisfies_map_distinct.mp models d hd
    have known := covers l.var (occurs_map_distinct.mpr ⟨d, hd, l, hl, BEq.rfl⟩)
    obtain ⟨b, hb⟩ := Option.isSome_iff_exists.mp known
    obtain ⟨n, hn, same⟩ := Assignment.exists_mem_of_value? hb
    rw [Assignment.valuation_value hb] at sign
    rw [eq_of_beq same, ← sign] at hn
    exact ⟨l, hl, hn⟩

end Numbers

section Literals

/-- Signed numbers in ascending order of their variables: exactly one for each variable that occurs,
and one of every clause. -/
structure IsModel (literals : List Int) (clauses : List (Clause Variable)) : Prop where
  ascending : literals.Pairwise (fun m n => m.natAbs < n.natAbs)
  nonzero : 0 ∉ literals
  assigns : ∀ v, Occurs clauses v ↔ ∃ z ∈ literals, (Variable.number z.natAbs == v) = true
  satisfies : ∀ c ∈ clauses, ∃ z ∈ literals, ∃ l ∈ c, Literal.ofInt? z = some l

theorem natAbs_signed (pair : Int × Bool) : (Result.signed pair).natAbs = pair.1.natAbs := by
  obtain ⟨n, value⟩ := pair
  cases value with
  | true => rfl
  | false => exact Int.natAbs_neg n

theorem ofInt?_signed {l : Literal Int} (positive : 0 < l.var) :
    Literal.ofInt? (Result.signed (l.var, l.sign)) = some (numbers.literal l) := by
  obtain ⟨n, sign⟩ := l
  have size : ((n.natAbs : Nat) : Int) = n := Int.natAbs_of_nonneg (Int.le_of_lt positive)
  cases sign with
  | true =>
    have sign : decide (0 < n) = true := decide_eq_true positive
    show Literal.ofInt? n = some ⟨.number n, true⟩
    rw [Literal.ofInt?, if_neg (Int.ne_of_gt positive), size, sign]
  | false =>
    have sign : decide (0 < -n) = false := decide_eq_false (by have : 0 < n := positive; omega)
    show Literal.ofInt? (-n) = some ⟨.number n, false⟩
    rw [Literal.ofInt?, if_neg (by have : 0 < n := positive; omega), Int.natAbs_neg, size, sign]

variable {ds : List (Clause Int)} {pairs : Assignment Int}

/-- What is printed for pairs that assign exactly what occurs and make every clause true. -/
theorem isModel_literalsOf (positive : ∀ d ∈ ds, ∀ l ∈ d, 0 < l.var)
    (once : (pairs.map Prod.fst).Nodup) (occurs : ∀ n, n ∈ pairs.map Prod.fst ↔ Occurs ds n)
    (satisfies : ∀ d ∈ ds, ∃ l ∈ d, (l.var, l.sign) ∈ pairs) :
    IsModel (Result.literalsOf pairs) (numbers.clauses ds) := by
  have arranged {p : Int × Bool} : p ∈ Result.arrange pairs ↔ p ∈ pairs :=
    (Result.arrange_perm once).mem_iff
  have above {p : Int × Bool} (hp : p ∈ pairs) : 0 < p.1 := by
    obtain ⟨d, hd, l, hl, same⟩ := (occurs p.1).mp (List.mem_map_of_mem hp)
    rw [← eq_of_beq same]
    exact positive d hd l hl
  have printed {z : Int} : z ∈ Result.literalsOf pairs ↔ ∃ p ∈ pairs, Result.signed p = z := by
    simp only [Result.literalsOf, List.mem_map, arranged]
  refine ⟨?_, ?_, ?_, ?_⟩
  · refine List.pairwise_map.mpr ((Result.ascending_arrange once).imp_of_mem ?_)
    intro p q hp hq before
    have := above (arranged.mp hp)
    have := above (arranged.mp hq)
    have : p.1 < q.1 := before
    rw [natAbs_signed, natAbs_signed]
    omega
  · intro zero
    obtain ⟨p, hp, same⟩ := printed.mp zero
    have size := natAbs_signed p
    have := above hp
    rw [same] at size
    omega
  · intro v
    rw [Renaming.occurs_clauses]
    constructor
    · rintro ⟨n, hn, same⟩
      obtain ⟨p, hp, rfl⟩ := List.mem_map.mp ((occurs n).mpr hn)
      refine ⟨Result.signed p, printed.mpr ⟨p, hp, rfl⟩, ?_⟩
      rw [natAbs_signed, Int.natAbs_of_nonneg (Int.le_of_lt (above hp))]
      exact same
    · rintro ⟨z, hz, same⟩
      obtain ⟨p, hp, rfl⟩ := printed.mp hz
      refine ⟨p.1, (occurs p.1).mp (List.mem_map_of_mem hp), ?_⟩
      rw [natAbs_signed, Int.natAbs_of_nonneg (Int.le_of_lt (above hp))] at same
      exact same
  · intro c hc
    obtain ⟨d, hd, rfl⟩ := List.mem_map.mp hc
    obtain ⟨l, hl, assigned⟩ := satisfies d hd
    exact ⟨_, printed.mpr ⟨_, assigned, rfl⟩, numbers.literal l, List.mem_map.mpr ⟨l, hl, rfl⟩,
      ofInt?_signed (positive d hd l hl)⟩

theorem dimacsText?_ofClauses {clock : Nat → Float} {clauses : List (Clause Variable)}
    {options : Options} {result : Result Variable} (numbered : Numbered clauses)
    (fill : options.fillUnconstrained = true)
    (h : ((Formula.ofClauses clauses none).solve clock options).outcome = .ok result)
    (sat : result.status = .satisfiable) :
    ∃ literals, IsModel literals clauses ∧
      result.dimacsText? = some ("s SATISFIABLE\n" ++ Result.modelLine literals) := by
  obtain ⟨ds, rfl, positive⟩ := numbered.renamed
  obtain ⟨a, solved, rfl⟩ := outcome_numbers h
  obtain ⟨once, occurs, satisfies⟩ := assignment_ofClauses fill solved sat
  exact ⟨_, isModel_literalsOf positive once occurs satisfies,
    Result.dimacsText?_table sat rfl once⟩

end Literals

end Clausal
