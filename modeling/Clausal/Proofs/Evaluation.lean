import Mathlib.Data.List.Perm.Basic
import Clausal.Proofs.Valuation

namespace Clausal

variable {V : Type}

/-- The clauses in another order, each with its literals in another order. -/
def Shuffled (cs ds : List (Clause V)) : Prop :=
  ∃ es, List.Forall₂ List.Perm cs es ∧ es.Perm ds

namespace Shuffled

variable {cs ds : List (Clause V)} {P : Literal V → Prop}

theorem exists_iff (h : Shuffled cs ds) :
    (∃ c ∈ cs, ∃ l ∈ c, P l) ↔ ∃ d ∈ ds, ∃ l ∈ d, P l := by
  obtain ⟨es, literals, clauses⟩ := h
  simp only [← clauses.mem_iff]
  clear clauses
  induction literals with
  | nil => exact Iff.rfl
  | cons perm _ ih => simp only [List.mem_cons, exists_eq_or_imp, ih, perm.mem_iff]

theorem forall_exists_iff (h : Shuffled cs ds) :
    (∀ c ∈ cs, ∃ l ∈ c, P l) ↔ ∀ d ∈ ds, ∃ l ∈ d, P l := by
  obtain ⟨es, literals, clauses⟩ := h
  simp only [← clauses.mem_iff]
  clear clauses
  induction literals with
  | nil => exact Iff.rfl
  | cons perm _ ih => simp only [List.forall_mem_cons, ih, perm.mem_iff]

theorem reverse (cs : List (Clause V)) : Shuffled cs (cs.map List.reverse).reverse := by
  refine ⟨cs.map List.reverse, ?_, (List.reverse_perm _).symm⟩
  exact List.forall₂_map_right_iff.mpr (List.forall₂_same.mpr fun c _ => c.reverse_perm.symm)

end Shuffled

variable [BEq V]

namespace Assignment

def Lacks (pairs : Assignment V) (v : V) : Prop :=
  ∀ p ∈ pairs, (p.1 == v) = false

instance (pairs : Assignment V) (v : V) : Decidable (pairs.Lacks v) :=
  inferInstanceAs (Decidable (∀ p ∈ pairs, (p.1 == v) = false))

/-- The variable is missing from the pairs, and none is that occurs before it. -/
def LacksFirst (pairs : Assignment V) (cs : List (Clause V)) (v : V) : Prop :=
  ∃ earlier l later, cs.flatten = earlier ++ l :: later ∧ l.var = v ∧ pairs.Lacks v ∧
    ∀ k ∈ earlier, ¬ pairs.Lacks k.var

/-- Every clause has a literal whose sign is the last value of its variable. -/
def Meets (pairs : Assignment V) (cs : List (Clause V)) : Prop :=
  ∀ c ∈ cs, ∃ l ∈ c, pairs.LastIs l.var l.sign

variable {pairs : Assignment V} {cs : List (Clause V)}

theorem lacks_iff {v : V} : pairs.Lacks v ↔ pairs.value? v = none :=
  value?_eq_none_iff_ne.symm

theorem covers_iff_lacks : pairs.Covers cs ↔ ∀ v, Occurs cs v → ¬ pairs.Lacks v := by
  simp only [Covers, lacks_iff, Option.isSome_iff_ne_none, ne_eq]

theorem trueUnder_iff_lastIs {l : Literal V} :
    l.trueUnder pairs = true ↔ pairs.LastIs l.var l.sign := by
  rw [lastIs_iff, Literal.trueUnder]
  cases pairs.value? l.var with
  | none => simp
  | some value =>
    show (l.sign == value) = true ↔ some value = some l.sign
    rw [beq_iff_eq, Option.some.injEq, eq_comm]

theorem meets_iff : pairs.Meets cs ↔ cs.all (fun c => c.any (Literal.trueUnder pairs)) = true := by
  simp only [Meets, List.all_eq_true, List.any_eq_true, trueUnder_iff_lastIs]

instance (pairs : Assignment V) (cs : List (Clause V)) : Decidable (pairs.Meets cs) :=
  decidable_of_iff _ meets_iff.symm

theorem meets_of_shuffled {ds : List (Clause V)} (h : Shuffled cs ds) :
    pairs.Meets cs ↔ pairs.Meets ds :=
  h.forall_exists_iff

variable [EquivBEq V]

theorem meets_map_distinct : pairs.Meets (cs.map distinct) ↔ pairs.Meets cs := by
  apply forall_exists_map_distinct
  intro k l var sign last
  rw [lastIs_iff] at last ⊢
  rw [← value?_congr var, ← sign, last]

end Assignment

namespace Formula

variable [EquivBEq V] {f : Formula V} {pairs : Assignment V}

theorem find?_freeVariables (f : Formula V) (pairs : Assignment V) :
    f.freeVariables.find? (fun v => (pairs.value? v).isNone) =
      (f.clauses.flatten.find? (fun l => (pairs.value? l.var).isNone)).map Literal.var := by
  have same {v w : V} (h : (v == w) = true) :
      (pairs.value? v).isNone = (pairs.value? w).isNone := by
    rw [Assignment.value?_congr h]
  rw [freeVariables, variablesOf, find?_distinct same, List.find?_map]
  rfl

theorem evaluate_eq_error_iff {v : V} :
    f.evaluate pairs = .error v ↔ pairs.LacksFirst f.clauses v := by
  have first : f.evaluate pairs = .error v ↔
      f.freeVariables.find? (fun v => (pairs.value? v).isNone) = some v := by
    unfold evaluate
    cases f.freeVariables.find? (fun v => (pairs.value? v).isNone) <;> simp
  rw [first, find?_freeVariables, Option.map_eq_some_iff]
  simp only [List.find?_eq_some_iff_append, Option.isNone_iff_eq_none, Bool.not_eq_true',
    Option.isNone_eq_false_iff, Assignment.LacksFirst, Assignment.lacks_iff,
    Option.isSome_iff_ne_none]
  constructor
  · rintro ⟨l, ⟨lacking, earlier, later, split, known⟩, rfl⟩
    exact ⟨earlier, l, later, split, rfl, lacking, known⟩
  · rintro ⟨earlier, l, later, split, rfl, lacking, known⟩
    exact ⟨l, ⟨lacking, earlier, later, split, known⟩, rfl⟩

/-- A value is reported missing as soon as one is, whatever the truth of the clauses. -/
theorem exists_evaluate_error_iff :
    (∃ v, f.evaluate pairs = .error v) ↔ ¬ pairs.Covers f.clauses := by
  constructor
  · rintro ⟨v, error⟩ covers
    rw [evaluate_of_covers covers] at error
    cases error
  · intro uncovered
    cases missing : f.freeVariables.find? (fun v => (pairs.value? v).isNone) with
    | some v => exact ⟨v, by rw [evaluate, missing]⟩
    | none =>
      rw [find?_freeVariables, Option.map_eq_none_iff, List.find?_eq_none] at missing
      refine absurd (Assignment.covers_iff.mpr fun c hc l hl => ?_) uncovered
      simpa [Option.isSome_iff_ne_none] using missing l (List.mem_flatten.mpr ⟨c, hc, hl⟩)

theorem evaluate_eq_ok_iff {b : Bool} :
    f.evaluate pairs = .ok b ↔ pairs.Covers f.clauses ∧ (b = true ↔ pairs.Meets f.clauses) := by
  constructor
  · intro value
    have covers : pairs.Covers f.clauses := by
      refine Classical.not_not.mp fun uncovered => ?_
      obtain ⟨v, error⟩ := exists_evaluate_error_iff.mpr uncovered
      cases value.symm.trans error
    rw [evaluate_of_covers covers, Except.ok.injEq] at value
    exact ⟨covers, by rw [Assignment.meets_iff, value]⟩
  · rintro ⟨covers, truth⟩
    rw [evaluate_of_covers covers, Except.ok.injEq, Bool.eq_iff_iff, truth, Assignment.meets_iff]

theorem evaluate_eq_ok_iff_of_shuffled {g : Formula V} (h : Shuffled f.clauses g.clauses)
    {b : Bool} :
    g.evaluate pairs = .ok b ↔ f.evaluate pairs = .ok b := by
  have occurs (v : V) : Occurs g.clauses v ↔ Occurs f.clauses v := h.exists_iff.symm
  rw [evaluate_eq_ok_iff, evaluate_eq_ok_iff, Assignment.meets_of_shuffled h]
  simp only [Assignment.Covers, occurs]

/-- Repeated literals do not even change which missing variable is reported. -/
theorem evaluate_ofClauses (f : Formula V) (vars : Option (List V)) (pairs : Assignment V) :
    (ofClauses f.clauses vars).evaluate pairs = f.evaluate pairs := by
  have occurring : (ofClauses f.clauses vars).freeVariables = f.freeVariables :=
    variablesOf_map_distinct f.clauses
  have truth : (ofClauses f.clauses vars).clauses.all (fun c => c.any (Literal.trueUnder pairs)) =
      f.clauses.all (fun c => c.any (Literal.trueUnder pairs)) := by
    rw [Bool.eq_iff_iff, ← Assignment.meets_iff, ← Assignment.meets_iff]
    exact Assignment.meets_map_distinct
  rw [evaluate, evaluate, occurring, truth]

/-- Evaluation fails exactly if a variable that occurs is no key of the pairs, and reports the first
one of these. Otherwise it says whether every clause has a literal whose sign is the value of the
last pair for its variable. Any other order of the clauses and of their literals gives the same
answer, and so does the formula that is built from the clauses without repeated literals. -/
theorem evaluate_exact (f : Formula V) (pairs : Assignment V) :
    ((∃ v, f.evaluate pairs = .error v) ↔ ∃ v, Occurs f.clauses v ∧ pairs.Lacks v) ∧
    (∀ v, f.evaluate pairs = .error v ↔ pairs.LacksFirst f.clauses v) ∧
    ((∀ v, Occurs f.clauses v → ¬ pairs.Lacks v) → ∃ b, f.evaluate pairs = .ok b ∧
      (b = true ↔ ∀ c ∈ f.clauses, ∃ l ∈ c, pairs.LastIs l.var l.sign)) ∧
    (∀ g : Formula V, Shuffled f.clauses g.clauses →
      ∀ b, g.evaluate pairs = .ok b ↔ f.evaluate pairs = .ok b) ∧
    ∀ vars, (ofClauses f.clauses vars).evaluate pairs = f.evaluate pairs := by
  refine ⟨?_, fun v => evaluate_eq_error_iff, ?_,
    fun g shuffled b => evaluate_eq_ok_iff_of_shuffled shuffled,
    fun vars => f.evaluate_ofClauses vars pairs⟩
  · rw [exists_evaluate_error_iff, Assignment.covers_iff_lacks]
    simp only [not_forall, Classical.not_not, exists_prop]
  · intro known
    refine ⟨decide (pairs.Meets f.clauses), ?_, decide_eq_true_iff⟩
    exact evaluate_eq_ok_iff.mpr ⟨Assignment.covers_iff_lacks.mpr known, decide_eq_true_iff⟩

/-- A variable in two forms, the literal of the first one written twice. -/
def twoForms : Formula Variable where
  clauses := [[⟨.number 1, false⟩, ⟨.number 1, false⟩],
    [⟨.text "a", true⟩, ⟨.text "b", false⟩, ⟨.truth true, true⟩]]
  vars := []
  declared := []

def onePairShort : Assignment Variable :=
  [(.truth true, false), (.number 1, true), (.empty, false), (.text "a", true)]

/-- Pairs for every variable, of which the first one is overridden. -/
def onePairTooMany : Assignment Variable :=
  [(.number 1, true), (.truth true, false), (.text "b", false), (.text "a", false)]

theorem twoForms_evaluate_exact :
    twoForms.evaluate onePairShort = .error (.text "b") ∧
      (∀ v, Occurs twoForms.clauses v → ¬ onePairTooMany.Lacks v) ∧
      twoForms.evaluate onePairTooMany = .ok true ∧
      Shuffled twoForms.clauses (twoForms.clauses.map List.reverse).reverse ∧
      Formula.evaluate ⟨(twoForms.clauses.map List.reverse).reverse, [], []⟩ onePairTooMany =
        .ok true := by
  have known : ∀ v, Occurs twoForms.clauses v → ¬ onePairTooMany.Lacks v :=
    Assignment.covers_iff_lacks.mp (by decide)
  have shuffled := Shuffled.reverse twoForms.clauses
  obtain ⟨-, reported, -⟩ := evaluate_exact twoForms onePairShort
  obtain ⟨-, -, answered, reordered, -⟩ := evaluate_exact twoForms onePairTooMany
  obtain ⟨b, value, truth⟩ := answered known
  rw [truth.mpr (by decide)] at value
  refine ⟨(reported _).mpr ?_, known, value, shuffled, (reordered _ shuffled true).mpr value⟩
  exact ⟨[⟨.number 1, false⟩, ⟨.number 1, false⟩, ⟨.text "a", true⟩], ⟨.text "b", false⟩,
    [⟨.truth true, true⟩], rfl, rfl, by decide, by decide⟩

end Formula
end Clausal
