import Clausal.Formula.Assign
import Clausal.Proofs.Valuation

namespace Clausal

variable {V : Type} [BEq V]

theorem contains_literal [EquivBEq V] {c : Clause V} {v : V} {value : Bool} :
    c.contains ⟨v, value⟩ = true ↔ ∃ l ∈ c, (l.var == v) = true ∧ l.sign = value := by
  rw [List.contains_iff_exists_mem_beq]
  simp only [Literal.beq_eq, Bool.and_eq_true, beq_iff_eq, BEq.comm (a := v), eq_comm (a := value)]

/-- A clause that the value does not satisfy stays, without its literals of the variable. -/
theorem mem_reduce_of_mem {v : V} {value : Bool} {cs : List (Clause V)} {c : Clause V}
    (h : c ∈ cs) (unmet : c.contains ⟨v, value⟩ = false) :
    c.filter (fun l => !l.var == v) ∈ (reduce v value cs).1 := by
  induction cs with
  | nil => simp at h
  | cons d ds ih =>
    simp only [reduce]
    rcases List.mem_cons.mp h with rfl | h
    · simp [unmet]
    · split
      · exact ih h
      · exact List.mem_cons_of_mem _ (ih h)

theorem reduce_consistent {v : V} {value : Bool} {cs : List (Clause V)} :
    (reduce v value cs).2 = true ↔ [] ∉ (reduce v value cs).1 := by
  induction cs with
  | nil => simp [reduce]
  | cons d ds ih =>
    simp only [reduce]
    split
    · exact ih
    · simp only [Bool.and_eq_true, ih, List.mem_cons, not_or, Bool.not_eq_true',
        List.isEmpty_eq_false_iff, ne_comm (a := ([] : Clause V)), ne_eq]

theorem reduce_inconsistent {v : V} {value : Bool} {cs : List (Clause V)} :
    (reduce v value cs).2 = false ↔ [] ∈ (reduce v value cs).1 := by
  rw [← Bool.not_eq_true, reduce_consistent, Classical.not_not]

/-- If the literals of the variable are right with the fixed sign and with no other, what is left
has a right literal in every clause exactly if the clauses have. -/
theorem forall_exists_reduce [EquivBEq V] {P : Literal V → Prop} {v : V} {value : Bool}
    {cs : List (Clause V)} (fixed : ∀ l, (l.var == v) = true → (P l ↔ l.sign = value)) :
    (∀ c ∈ (reduce v value cs).1, ∃ l ∈ c, P l) ↔ ∀ c ∈ cs, ∃ l ∈ c, P l := by
  constructor
  · intro h c hc
    cases hs : c.contains ⟨v, value⟩ with
    | true =>
      obtain ⟨l, hl, hv, hsign⟩ := contains_literal.mp hs
      exact ⟨l, hl, (fixed l hv).mpr hsign⟩
    | false =>
      obtain ⟨l, hl, right⟩ := h _ (mem_reduce_of_mem hc hs)
      exact ⟨l, (List.mem_filter.mp hl).1, right⟩
  · intro h c hc
    obtain ⟨d, hd, hs, rfl⟩ := mem_reduce hc
    obtain ⟨l, hl, right⟩ := h d hd
    refine ⟨l, List.mem_filter.mpr ⟨hl, ?_⟩, right⟩
    cases hv : (l.var == v) with
    | false => rfl
    | true =>
      have := contains_literal.mpr ⟨l, hl, hv, (fixed l hv).mp right⟩
      rw [hs] at this
      exact absurd this (by decide)

theorem satisfies_reduce [EquivBEq V] {a : Valuation V} {v : V} {value : Bool}
    {cs : List (Clause V)} (fixed : a.value v = value) :
    a.Satisfies (reduce v value cs).1 ↔ a.Satisfies cs :=
  forall_exists_reduce fun l hv => by rw [a.congr hv, fixed]

namespace Formula

/-- The listed variables are exactly the variables that occur. -/
def Listed (f : Formula V) : Prop :=
  ∀ v, f.vars.contains v = true ↔ Occurs f.clauses v

section Listed

variable [EquivBEq V]

theorem listed_reconcile (f : Formula V) : f.reconcile.Listed := by
  intro v
  show (f.vars.filter f.freeVariables.contains ++ f.freeVariables.filter
    (fun w => !(f.vars.filter f.freeVariables.contains).contains w)).contains v = true ↔ _
  rw [List.contains_append, contains_filter_not_contains, contains_filter_contains,
    ← variablesOf_contains]
  show _ ↔ f.freeVariables.contains v = true
  cases f.freeVariables.contains v <;> simp

theorem listed_copy (f : Formula V) : f.copy.Listed :=
  listed_reconcile _

theorem listed_assign (f : Formula V) (v : V) (value : Bool) : (f.assign v value).1.Listed :=
  listed_reconcile _

theorem Listed.grounded {f : Formula V} (h : f.Listed) : f.Grounded :=
  fun v hv => (h v).mp (contains_of_mem hv)

end Listed

def Covered (f : Formula V) : Prop :=
  ∀ v, Occurs f.clauses v → f.vars.contains v = true

theorem Listed.covered {f : Formula V} (h : f.Listed) : f.Covered :=
  fun v => (h v).mpr

theorem buildReport_eq_nil [EquivBEq V] {cs : List (Clause V)} {vs : List V} :
    buildReport cs (some vs) = [] ↔ ∀ v, Occurs cs v → vs.contains v = true := by
  have none_told : buildReport cs (some vs) = [] ↔ undeclared cs (some vs) = [] := by
    unfold buildReport
    cases undeclared cs (some vs) <;> simp [Event.listing]
  rw [none_told, undeclared, List.filter_eq_nil_iff]
  constructor
  · intro each v hv
    obtain ⟨w, hw, same⟩ :=
      List.contains_iff_exists_mem_beq.mp (variablesOf_contains.mpr hv)
    rw [contains_congr same]
    simpa using each w hw
  · intro covers w hw
    simpa using covers w (occurs_of_mem_variablesOf hw)

/-- A copy reports nothing exactly if the formula lists what occurs in it. -/
theorem copyReport_eq_nil [EquivBEq V] {f : Formula V} : f.copyReport = [] ↔ f.Covered :=
  buildReport_eq_nil

/-- The second formula is what is left of the first when the pairs are fixed in turn. A variable
that is fixed occurs until then, and no clause is left empty. -/
inductive Fixes : Formula V → Assignment V → Formula V → Prop where
  | done (f : Formula V) : Fixes f [] f
  | fix {f g : Formula V} {v : V} {value : Bool} {more : Assignment V}
      (occurs : Occurs f.clauses v) (consistent : (f.assign v value).2 = true)
      (later : Fixes (f.assign v value).1 more g) : Fixes f ((v, value) :: more) g

namespace Fixes

variable {f g e : Formula V} {xs ys : Assignment V}

theorem append (h : Fixes f xs g) (k : Fixes g ys e) : Fixes f (xs ++ ys) e := by
  induction h with
  | done => exact k
  | fix occurs consistent _ ih => exact .fix occurs consistent (ih k)

/-- What every single step keeps holds of what is left in the end. -/
theorem keeps {P : Formula V → Prop} (h : Fixes f xs g)
    (step : ∀ f v value, P f → (f.assign v value).2 = true → P (f.assign v value).1)
    (start : P f) : P g := by
  induction h with
  | done => exact start
  | fix _ consistent _ ih => exact ih (step _ _ _ start consistent)

theorem no_empty (h : Fixes f xs g) (start : [] ∉ f.clauses) : [] ∉ g.clauses :=
  h.keeps (P := fun f => [] ∉ f.clauses) (fun _ _ _ _ consistent => reduce_consistent.mp consistent)
    start

variable [EquivBEq V]

theorem listed (h : Fixes f xs g) (start : f.Listed) : g.Listed :=
  h.keeps (fun f v value _ _ => listed_assign f v value) start

theorem occurs_left {w : V} (h : Fixes f xs g) (hw : Occurs g.clauses w) : Occurs f.clauses w := by
  induction h with
  | done => exact hw
  | fix _ _ _ ih => exact (occurs_assign (ih hw)).1

theorem gone {p : V × Bool} (h : Fixes f xs g) (hp : p ∈ xs) : ¬ Occurs g.clauses p.1 := by
  induction h with
  | done => simp at hp
  | fix _ _ later ih =>
    rcases List.mem_cons.mp hp with rfl | hp
    · intro ho
      have := (occurs_assign (later.occurs_left ho)).2
      simp at this
    · exact ih hp

theorem occurs {p : V × Bool} (h : Fixes f xs g) (hp : p ∈ xs) : Occurs f.clauses p.1 := by
  induction h with
  | done => simp at hp
  | fix occurs _ _ ih =>
    rcases List.mem_cons.mp hp with rfl | hp
    · exact occurs
    · exact (occurs_assign (ih hp)).1

theorem once (h : Fixes f xs g) : NoRepeat (xs.map Prod.fst) := by
  induction h with
  | done => exact .nil
  | fix _ _ later ih =>
    refine List.pairwise_cons.mpr ⟨?_, ih⟩
    intro w hw
    obtain ⟨p, hp, rfl⟩ := List.mem_map.mp hw
    exact (occurs_assign (later.occurs hp)).2

theorem satisfies {a : Valuation V} (h : Fixes f xs g) (agrees : a.Agrees xs) :
    a.Satisfies g.clauses ↔ a.Satisfies f.clauses := by
  induction h with
  | done => exact Iff.rfl
  | fix _ _ _ ih =>
    obtain ⟨fixed, agrees⟩ := Valuation.agrees_cons.mp agrees
    exact (ih agrees).trans (satisfies_reduce fixed)

end Fixes

/-- Pairs that settle what is left, put behind the fixed ones, settle the formula. -/
theorem Fixes.decides [EquivBEq V] {f g : Formula V} {xs ys : Assignment V} (h : Fixes f xs g)
    (k : ys.Decides g.clauses) : (xs ++ ys : Assignment V).Decides f.clauses where
  once := by
    rw [List.map_append]
    refine List.pairwise_append.mpr ⟨h.once, k.once, ?_⟩
    intro v hv w hw
    obtain ⟨p, hp, rfl⟩ := List.mem_map.mp hv
    obtain ⟨q, hq, rfl⟩ := List.mem_map.mp hw
    cases he : (p.1 == q.1) with
    | false => rfl
    | true =>
      obtain ⟨c, hc, l, hl, hlq⟩ := k.occurs q hq
      exact absurd ⟨c, hc, l, hl, BEq.trans hlq (BEq.symm he)⟩ (h.gone hp)
  occurs p hp := by
    rcases List.mem_append.mp hp with hp | hp
    · exact h.occurs hp
    · exact h.occurs_left (k.occurs p hp)
  satisfies a agrees := by
    obtain ⟨hx, hy⟩ := Valuation.agrees_append.mp agrees
    exact (h.satisfies hx).mp (k.satisfies a hy)

end Formula
end Clausal
