import Mathlib.Logic.Basic
import Clausal.Instance.Coloring
import Clausal.Proofs.Steps
import Clausal.Proofs.Valuation

namespace Clausal

/-- The literal of a number that is not zero. -/
def Literal.signed (n : Int) : Literal Variable :=
  ⟨.number n.natAbs, 0 < n⟩

theorem Literal.ofInt?_eq_signed {n : Int} (h : n ≠ 0) : ofInt? n = some (signed n) := by
  rw [ofInt?, if_neg h]
  rfl

theorem mapM_ofInt {ns : List Int} (nonzero : 0 ∉ ns) :
    ns.mapM Item.ofInt = .ok (ns.map Literal.signed) := by
  apply mapM_ok
  intro n hn
  rw [Item.ofInt, Literal.ofInt?_eq_signed fun zero => nonzero (zero ▸ hn)]

theorem exists_mapM_ofInt_iff {ns : List Int} :
    (∃ ls, ns.mapM Item.ofInt = .ok ls) ↔ 0 ∉ ns := by
  constructor
  · rintro h zero
    obtain ⟨l, hl⟩ := exists_mapM_ok_iff.mp h 0 zero
    cases hl
  · exact fun nonzero => ⟨_, mapM_ofInt nonzero⟩

theorem Pigeonhole.number_ne_zero (columns row column : Nat) :
    number columns row column ≠ 0 := by
  simp only [number]
  omega

namespace Valuation

variable {a : Valuation Variable}

/-- A positive number is true if its variable is, a negative one if the variable of its size is
not. -/
def Makes (a : Valuation Variable) (n : Int) : Prop :=
  (Literal.signed n).sign = a.value (Literal.signed n).var

def Marks (a : Valuation Variable) (columns row column : Nat) : Prop :=
  a.value (.number (row * columns + column + 1 : Nat)) = true

theorem makes_number {columns row column : Nat} :
    a.Makes (Pigeonhole.number columns row column) ↔ a.Marks columns row column := by
  have positive : decide (0 < Pigeonhole.number columns row column) = true :=
    decide_eq_true (by simp only [Pigeonhole.number]; omega)
  rw [Makes, Literal.signed, positive]
  exact eq_comm

theorem makes_neg {n : Int} (nonzero : n ≠ 0) : a.Makes (-n) ↔ ¬ a.Makes n := by
  have opposite : decide (0 < -n) = !decide (0 < n) := by
    rw [← decide_not]
    exact decide_eq_decide.mpr (by omega)
  simp only [Makes, Literal.signed, Int.natAbs_neg, opposite]
  rw [Bool.not_eq_eq_eq_not, Bool.eq_not]

theorem makes_neg_number {columns row column : Nat} :
    a.Makes (-Pigeonhole.number columns row column) ↔ ¬ a.Marks columns row column := by
  rw [makes_neg (Pigeonhole.number_ne_zero columns row column), makes_number]

theorem makes_row {columns row : Nat} :
    (∃ n ∈ (List.range columns).map (Pigeonhole.number columns row), a.Makes n) ↔
      ∃ column < columns, a.Marks columns row column := by
  simp only [List.mem_map, List.mem_range, exists_exists_and_eq_and, makes_number]

theorem makes_either {columns i j k l : Nat} :
    (∃ n ∈ [-Pigeonhole.number columns i j, -Pigeonhole.number columns k l], a.Makes n) ↔
      ¬ (a.Marks columns i j ∧ a.Marks columns k l) := by
  simp only [List.mem_cons, List.not_mem_nil, or_false, exists_eq_or_imp, exists_eq_left,
    makes_neg_number, not_and_or]

end Valuation

namespace Pigeonhole

theorem zero_not_mem_row {columns row : Nat} :
    0 ∉ (List.range columns).map (number columns row) := by
  intro zero
  obtain ⟨column, -, none⟩ := List.mem_map.mp zero
  exact number_ne_zero _ _ _ none

theorem zero_not_mem_either {columns i j k l : Nat} :
    0 ∉ [-number columns i j, -number columns k l] := by
  simp [number_ne_zero, eq_comm (a := (0 : Int))]

theorem mem_pairsBelow {n i j : Nat} : (i, j) ∈ pairsBelow n ↔ i < j ∧ j < n := by
  have later (k : Nat) : k ∈ (List.range n).drop (i + 1) ↔ i < k ∧ k < n := by
    rw [List.range_eq_range', List.drop_range', List.mem_range'_1]
    omega
  simp only [pairsBelow, List.mem_flatMap, List.mem_map, List.mem_range, Prod.mk.injEq]
  constructor
  · rintro ⟨_, -, k, hk, rfl, rfl⟩
    exact (later k).mp hk
  · intro below
    exact ⟨i, by omega, j, (later j).mpr below, rfl, rfl⟩

/-- That no pair below `n` holds twice says that it holds at most once. -/
theorem forall_pairsBelow {n : Nat} {x : Nat → Prop} :
    (∀ p ∈ pairsBelow n, ¬ (x p.1 ∧ x p.2)) ↔ ∀ i < n, ∀ j < n, x i → x j → i = j := by
  constructor
  · intro never i hi j hj xi xj
    rcases Nat.lt_trichotomy i j with before | same | after
    · exact absurd ⟨xi, xj⟩ (never (i, j) (mem_pairsBelow.mpr ⟨before, hj⟩))
    · exact same
    · exact absurd ⟨xj, xi⟩ (never (j, i) (mem_pairsBelow.mpr ⟨after, hi⟩))
  · rintro once ⟨i, j⟩ hp ⟨xi, xj⟩
    obtain ⟨before, hj⟩ := mem_pairsBelow.mp hp
    exact absurd (once i (Nat.lt_trans before hj) j hj xi xj) (Nat.ne_of_lt before)

end Pigeonhole

namespace Formula

theorem ofSigned_outcome {clauses : List (List Int)} (nonzero : ∀ c ∈ clauses, 0 ∉ c) :
    (ofSigned clauses none).outcome =
      .ok (.ofClauses (clauses.map (fun c => c.map Literal.signed)) none) := by
  rw [ofSigned, mapM_ok fun c hc => mapM_ofInt (nonzero c hc)]
  rfl

/-- There is a formula exactly if there is no zero. -/
theorem exists_ofSigned_iff {clauses : List (List Int)} :
    (∃ f, (ofSigned clauses none).outcome = .ok f) ↔ ∀ c ∈ clauses, 0 ∉ c := by
  constructor
  · rintro ⟨f, built⟩ c hc
    rw [ofSigned] at built
    split at built
    · cases built
    · rename_i read
      exact exists_mapM_ofInt_iff.mp (exists_mapM_ok_iff.mp ⟨_, read⟩ c hc)
  · exact fun nonzero => ⟨_, ofSigned_outcome nonzero⟩

/-- Signed numbers without a zero make a formula, and its models are the valuations that make one
number of each clause true. -/
theorem ofSigned_models {clauses : List (List Int)} (nonzero : ∀ c ∈ clauses, 0 ∉ c) :
    ∃ f, (ofSigned clauses none).outcome = .ok f ∧ ∀ a : Valuation Variable,
      a.Satisfies f.clauses ↔ ∀ c ∈ clauses, ∃ n ∈ c, a.Makes n := by
  refine ⟨_, ofSigned_outcome nonzero, ?_⟩
  intro a
  show a.Satisfies (List.map distinct _) ↔ _
  rw [Valuation.satisfies_map_distinct]
  simp [Valuation.Satisfies, Valuation.Makes]

end Formula

theorem Variable.number?_congr {v w : Variable} (h : (v == w) = true) : v.number? = w.number? := by
  have same : Variable.same v w = true := h
  cases v <;> cases w <;> simp_all [Variable.same, Variable.number?]

/-- The cells that a relation holds of are true. -/
def Valuation.ofCells (columns : Nat) (marked : Nat → Nat → Bool) : Valuation Variable where
  value v := v.number?.any fun n => marked ((n.toNat - 1) / columns) ((n.toNat - 1) % columns)
  congr h := by rw [Variable.number?_congr h]

theorem Valuation.marks_ofCells {columns row column : Nat} {marked : Nat → Nat → Bool}
    (h : column < columns) :
    (ofCells columns marked).Marks columns row column ↔ marked row column = true := by
  have positive : 0 < columns := Nat.zero_lt_of_lt h
  have quotient : (row * columns + column) / columns = row := by
    rw [Nat.mul_comm, Nat.mul_add_div positive, Nat.div_eq_of_lt h, Nat.add_zero]
  have remainder : (row * columns + column) % columns = column := by
    rw [Nat.mul_comm, Nat.mul_add_mod, Nat.mod_eq_of_lt h]
  simp only [Marks, ofCells, Variable.number?, Option.any_some, Int.toNat_natCast,
    Nat.add_sub_cancel, quotient, remainder]

theorem Assignment.marks_valuation {pairs : Assignment Variable} {columns row column : Nat} :
    pairs.valuation.Marks columns row column ↔
      pairs.LastIs (.number (row * columns + column + 1 : Nat)) true := by
  rw [lastIs_iff, Valuation.Marks, valuation, Option.getD_eq_iff]
  simp

end Clausal
