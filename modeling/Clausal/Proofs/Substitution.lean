import Clausal.Proofs.Simplification

namespace Clausal

variable {V : Type} [BEq V]

/-- The values that make literals true. Of the literals of one variable the first counts. -/
def firstSigns : List (Literal V) → Assignment V
  | [] => []
  | l :: ls => (l.var, l.sign) :: (firstSigns ls).filter (fun p => !l.var == p.1)

/-- What values leave of clauses: those without a true literal, each without the literals whose
variables have a value. -/
def Assignment.leave (values : Assignment V) (cs : List (Clause V)) : List (Clause V) :=
  (cs.filter (fun c => !c.any (Literal.trueUnder values))).map
    (fun c => c.filter (fun l => (values.value? l.var).isNone))

theorem map_fst_firstSigns (ls : List (Literal V)) :
    (firstSigns ls).map Prod.fst = distinct (ls.map Literal.var) := by
  induction ls with
  | nil => rfl
  | cons l ls ih =>
    rw [firstSigns, List.map_cons, List.map_cons, distinct, ← ih, List.filter_map]
    rfl

variable [EquivBEq V]

namespace Assignment

theorem value?_cons {values : Assignment V} {v : V} (fresh : values.value? v = none) (b : Bool)
    (w : V) : Assignment.value? ((v, b) :: values) w =
      if v == w then some b else values.value? w := by
  rw [Assignment.value?]
  cases hw : v == w with
  | true => rw [← value?_congr hw, fresh]
  | false => cases values.value? w <;> rfl

omit [EquivBEq V] in
theorem leave_nil (cs : List (Clause V)) : Assignment.leave [] cs = cs := by
  have clauses : cs.filter (fun c => !c.any (Literal.trueUnder ([] : Assignment V))) = cs := by
    apply List.filter_eq_self.mpr
    intro c _
    simp [Literal.trueUnder, value?]
  have literals (c : Clause V) :
      c.filter (fun l => (value? ([] : Assignment V) l.var).isNone) = c :=
    List.filter_eq_self.mpr fun _ _ => rfl
  rw [leave, clauses, List.map_congr_left fun c _ => literals c, List.map_id']

section Cons

variable {values : Assignment V} {v : V} {b : Bool} {c : Clause V} {cs : List (Clause V)}

omit [EquivBEq V] in
theorem leave_of_true (met : c.any (Literal.trueUnder values) = true) :
    values.leave (c :: cs) = values.leave cs := by
  simp [leave, met]

omit [EquivBEq V] in
theorem leave_of_false (unmet : c.any (Literal.trueUnder values) = false) :
    values.leave (c :: cs) =
      c.filter (fun l => (values.value? l.var).isNone) :: values.leave cs := by
  simp only [leave, List.filter_cons, unmet, Bool.not_false, ↓reduceIte, List.map_cons]

theorem trueUnder_cons (fresh : values.value? v = none) (l : Literal V) :
    l.trueUnder ((v, b) :: values) = if v == l.var then b == l.sign else l.trueUnder values := by
  rw [Literal.trueUnder, value?_cons fresh]
  cases v == l.var with
  | true => exact BEq.comm
  | false => rfl

theorem any_trueUnder_cons (fresh : values.value? v = none) (c : Clause V) :
    c.any (Literal.trueUnder ((v, b) :: values)) =
      (c.contains ⟨v, b⟩ || (c.filter (fun l => !l.var == v)).any (Literal.trueUnder values)) := by
  induction c with
  | nil => rfl
  | cons l c ih =>
    rw [List.any_cons, ih, List.contains_cons, List.filter_cons, trueUnder_cons fresh,
      Literal.beq_eq, BEq.comm (a := l.var)]
    cases v == l.var with
    | true => simp [Bool.or_assoc]
    | false => simp [Bool.or_left_comm]

theorem filter_isNone_cons (fresh : values.value? v = none) (c : Clause V) :
    c.filter (fun l => (value? ((v, b) :: values) l.var).isNone) =
      (c.filter (fun l => !l.var == v)).filter (fun l => (values.value? l.var).isNone) := by
  rw [List.filter_filter]
  apply List.filter_congr
  intro l _
  rw [value?_cons fresh, BEq.comm (a := l.var)]
  cases v == l.var <;> simp

/-- Fixing a variable and putting in the other values then is putting in all of them. -/
theorem leave_cons (fresh : values.value? v = none) (cs : List (Clause V)) :
    Assignment.leave ((v, b) :: values) cs = values.leave (reduce v b cs).1 := by
  induction cs with
  | nil => rfl
  | cons c cs ih =>
    have met := any_trueUnder_cons (b := b) fresh c
    simp only [reduce]
    cases hs : c.contains ⟨v, b⟩ with
    | true =>
      rw [hs, Bool.true_or] at met
      rw [leave_of_true met, ih]
      rfl
    | false =>
      rw [hs, Bool.false_or] at met
      cases stripped : (c.filter (fun l => !l.var == v)).any (Literal.trueUnder values) with
      | true =>
        rw [stripped] at met
        rw [leave_of_true met, ih]
        exact (leave_of_true stripped).symm
      | false =>
        rw [stripped] at met
        rw [leave_of_false met, ih, filter_isNone_cons fresh]
        exact (leave_of_false stripped).symm

end Cons

omit [EquivBEq V] in
theorem value?_filter {keep : V × Bool → Bool} {w : V} (pairs : Assignment V)
    (h : ∀ p, (p.1 == w) = true → keep p = true) :
    Assignment.value? (pairs.filter keep) w = Assignment.value? pairs w := by
  induction pairs with
  | nil => rfl
  | cons p pairs ih =>
    rw [List.filter_cons]
    split
    · rw [Assignment.value?, Assignment.value?, ih]
    · rename_i dropped
      have other : (p.1 == w) = false := by
        apply Bool.eq_false_iff.mpr
        exact fun same => dropped (h p same)
      rw [ih, Assignment.value?, other]
      cases Assignment.value? pairs w <;> rfl

omit [EquivBEq V] in
/-- A clause that the values make false is left empty. -/
theorem nil_mem_leave_iff {values : Assignment V} {cs : List (Clause V)} :
    [] ∈ values.leave cs ↔ ∃ c ∈ cs, (∀ l ∈ c, (values.value? l.var).isSome = true) ∧
      ∀ l ∈ c, l.trueUnder values = false := by
  simp only [leave, List.mem_map, List.mem_filter, List.filter_eq_nil_iff, Bool.not_eq_true',
    List.any_eq_false]
  constructor
  · rintro ⟨c, ⟨hc, unmet⟩, settled⟩
    refine ⟨c, hc, ?_, ?_⟩
    · intro l hl
      simpa [Option.isSome_iff_ne_none] using settled l hl
    · intro l hl
      simpa using unmet l hl
  · rintro ⟨c, hc, settled, unmet⟩
    refine ⟨c, ⟨hc, ?_⟩, ?_⟩
    · intro l hl
      simp [unmet l hl]
    · intro l hl
      simpa [Option.isSome_iff_ne_none] using settled l hl

omit [EquivBEq V] in
theorem nil_mem_leave {values : Assignment V} {cs : List (Clause V)} (h : [] ∈ cs) :
    [] ∈ values.leave cs :=
  nil_mem_leave_iff.mpr ⟨[], h, by simp, by simp⟩

end Assignment

section Signs

def newSigns (decided : Assignment V) (ls : List (Literal V)) : Assignment V :=
  (firstSigns ls).filter (fun p => (decided.value? p.1).isNone)

omit [EquivBEq V] in
theorem newSigns_nil (ls : List (Literal V)) : newSigns [] ls = firstSigns ls :=
  List.filter_eq_self.mpr fun _ _ => rfl

variable {decided : Assignment V} {l : Literal V} {ls : List (Literal V)}

theorem newSigns_of_known {b : Bool} (known : decided.value? l.var = some b) :
    newSigns decided (l :: ls) = newSigns decided ls := by
  rw [newSigns, firstSigns, List.filter_cons, known, List.filter_filter]
  apply List.filter_congr
  intro p _
  cases same : l.var == p.1 with
  | true => rw [← Assignment.value?_congr same, known]; rfl
  | false => simp

omit [EquivBEq V] in
theorem newSigns_of_fresh (fresh : decided.value? l.var = none) :
    newSigns decided (l :: ls) =
      (l.var, l.sign) :: newSigns (decided ++ [(l.var, l.sign)]) ls := by
  rw [newSigns, firstSigns, List.filter_cons, fresh, List.filter_filter]
  apply congrArg ((l.var, l.sign) :: ·)
  apply List.filter_congr
  intro p _
  rw [Assignment.value?_append]
  cases same : l.var == p.1 with
  | true => simp [Assignment.value?, same]
  | false => simp [Assignment.value?, same]

theorem value?_newSigns (decided : Assignment V) (l : Literal V) (ls : List (Literal V)) :
    (newSigns (decided ++ [(l.var, l.sign)]) ls).value? l.var = none := by
  apply Assignment.value?_eq_none_of_ne
  intro v hv
  obtain ⟨p, hp, rfl⟩ := List.mem_map.mp hv
  have unknown := (List.mem_filter.mp hp).2
  rw [Assignment.value?_append] at unknown
  apply Bool.eq_false_iff.mpr
  intro same
  simp [Assignment.value?, same] at unknown

/-- A variable has the sign of its first literal as value. -/
theorem value?_firstSigns (ls : List (Literal V)) (v : V) :
    (firstSigns ls).value? v = (ls.find? (fun l => l.var == v)).map Literal.sign := by
  induction ls with
  | nil => rfl
  | cons l ls ih =>
    rw [← newSigns_nil, newSigns_of_fresh rfl, Assignment.value?_cons (value?_newSigns [] l ls),
      List.find?_cons]
    cases hv : l.var == v with
    | true => rfl
    | false =>
      rw [← ih]
      apply Assignment.value?_filter
      intro p same
      have other : (l.var == p.1) = false := by rw [BEq.congr_right same, hv]
      simp [Assignment.value?, other]

end Signs

namespace Round

variable {f : Formula V} {decided all : Assignment V} {ls : List (Literal V)} {r : Simplified V}

theorem decided_eq (h : Round ls f decided r) (decides : r.decided = some all) :
    all = decided ++ newSigns decided ls := by
  induction h with
  | done f decided => simpa [newSigns, firstSigns] using decides.symm
  | known value _ ih =>
    rw [newSigns_of_known value]
    exact ih decides
  | fixed fresh _ _ _ ih =>
    rw [newSigns_of_fresh fresh, ih decides, List.append_assoc]
    rfl
  | emptied => cases decides

/-- A round that gives up has met a clause that the values make false. -/
theorem nil_mem_leave (h : Round ls f decided r) (gives_up : r.decided = none) :
    [] ∈ (newSigns decided ls).leave f.clauses := by
  induction h with
  | done => cases gives_up
  | known value _ ih =>
    rw [newSigns_of_known value]
    exact ih gives_up
  | fixed fresh _ _ _ ih =>
    rw [newSigns_of_fresh fresh, Assignment.leave_cons (value?_newSigns _ _ _)]
    exact ih gives_up
  | emptied fresh _ inconsistent =>
    rw [newSigns_of_fresh fresh, Assignment.leave_cons (value?_newSigns _ _ _)]
    exact Assignment.nil_mem_leave (reduce_inconsistent.mp inconsistent)

end Round

namespace Formula

/-- What is left after fixing variables in turn is what their values leave at once. -/
theorem Fixes.clauses_eq {f g : Formula V} {xs : Assignment V} (h : Fixes f xs g) :
    g.clauses = xs.leave f.clauses := by
  induction h with
  | done f => exact (Assignment.leave_nil f.clauses).symm
  | @fix f g v value more occurs consistent later ih =>
    obtain ⟨others, -⟩ := List.pairwise_cons.mp (Fixes.fix occurs consistent later).once
    rw [ih, Assignment.leave_cons (Assignment.value?_eq_none_of_ne others)]
    rfl

omit [EquivBEq V] in
theorem Fixes.no_empty_of_ne_nil {f g : Formula V} {xs : Assignment V} (h : Fixes f xs g)
    (some : xs ≠ []) : [] ∉ g.clauses := by
  cases h with
  | done => exact absurd rfl some
  | fix _ consistent later => exact later.no_empty (reduce_consistent.mp consistent)

section Units

variable {f : Formula V} {all : Assignment V}

theorem propagateUnits_some (h : f.propagateUnits.decided = some all) :
    all = firstSigns (unitsOf f.clauses) ∧
      f.propagateUnits.formula.clauses = all.leave f.clauses ∧
      (unitsOf f.clauses ≠ [] → [] ∉ all.leave f.clauses) := by
  have values : all = firstSigns (unitsOf f.clauses) := by
    rw [f.propagateUnits_round.decided_eq h, newSigns_nil, List.nil_append]
  have fixes := propagateUnits_fixes h
  refine ⟨values, fixes.clauses_eq, ?_⟩
  intro units
  rw [← fixes.clauses_eq]
  apply fixes.no_empty_of_ne_nil
  rw [values]
  cases hu : unitsOf f.clauses with
  | nil => exact absurd hu units
  | cons l ls => simp [firstSigns]

theorem propagateUnits_models (h : f.propagateUnits.decided = some all) (a : Valuation V) :
    a.Satisfies f.clauses ↔ a.Agrees all ∧ a.Satisfies f.propagateUnits.formula.clauses := by
  obtain ⟨new, rfl, fixes, forced⟩ := f.propagateUnits_round.fixes h
  constructor
  · intro model
    exact ⟨forced a model, (fixes.satisfies (forced a model)).mpr model⟩
  · rintro ⟨agrees, model⟩
    exact (fixes.satisfies agrees).mp model

theorem propagateUnits_eq_none_iff : f.propagateUnits.decided = none ↔
    unitsOf f.clauses ≠ [] ∧ [] ∈ (firstSigns (unitsOf f.clauses)).leave f.clauses := by
  constructor
  · intro h
    constructor
    · intro units
      rw [propagateUnits, units] at h
      cases h
    · have empty := f.propagateUnits_round.nil_mem_leave h
      rwa [newSigns_nil] at empty
  · rintro ⟨units, empty⟩
    cases h : f.propagateUnits.decided with
    | none => rfl
    | some all =>
      obtain ⟨rfl, -, no_empty⟩ := propagateUnits_some h
      exact absurd empty (no_empty units)

end Units

/-- With the values that the first unit clause of each variable gives: a round of unit propagation
gives up if there are units and a clause in which every literal is false under these values, and
then the formula has no model. Otherwise it decides these values in the order of the units and
leaves what they leave of the clauses; the models of the formula are the models of the rest with
these values. -/
theorem propagateUnits_at_once (f : Formula V) :
    let units := unitsOf f.clauses
    let values := firstSigns units
    (values.map Prod.fst = distinct (units.map Literal.var) ∧
      ∀ v, values.value? v = (units.find? (fun l => l.var == v)).map Literal.sign) ∧
    (f.propagateUnits.decided = none ↔ units ≠ [] ∧ ∃ c ∈ f.clauses,
      (∀ l ∈ c, (values.value? l.var).isSome = true) ∧ ∀ l ∈ c, l.trueUnder values = false) ∧
    (f.propagateUnits.decided = none → ∀ a : Valuation V, ¬ a.Satisfies f.clauses) ∧
    (f.propagateUnits.decided ≠ none →
      f.propagateUnits.decided = some values ∧
      f.propagateUnits.formula.clauses = values.leave f.clauses ∧
      ∀ a : Valuation V, a.Satisfies f.clauses ↔
        a.Agrees values ∧ a.Satisfies f.propagateUnits.formula.clauses) := by
  intro units values
  refine ⟨⟨map_fst_firstSigns units, value?_firstSigns units⟩, ?_, propagateUnits_none, ?_⟩
  · rw [propagateUnits_eq_none_iff, Assignment.nil_mem_leave_iff]
  · intro decides
    obtain ⟨all, h⟩ := Option.ne_none_iff_exists'.mp decides
    have models := propagateUnits_models h
    obtain ⟨rfl, clauses, -⟩ := propagateUnits_some h
    exact ⟨h, clauses, models⟩

/-- One unit, which stands twice and strips two clauses; one of these is then a unit itself. -/
def chainedUnits : Formula Variable where
  clauses := [[⟨.number 1, true⟩, ⟨.number 2, false⟩], [⟨.number 2, true⟩],
    [⟨.number 2, false⟩, ⟨.number 3, true⟩, ⟨.text "x", true⟩], [⟨.number 2, true⟩]]
  vars := []
  declared := []

/-- A unit beside its opposite, whose variable is written as a truth value, and a clause that the
units strip of all its literals. -/
def contradictedUnits : Formula Variable where
  clauses := [[⟨.number 1, true⟩], [⟨.truth true, false⟩], [⟨.text "x", false⟩],
    [⟨.text "x", true⟩, ⟨.number 1, false⟩]]
  vars := []
  declared := []

theorem chainedUnits_at_once :
    (chainedUnits.propagateUnits.decided = some [(.number 2, true)] ∧
      chainedUnits.propagateUnits.formula.clauses =
        [[⟨.number 1, true⟩], [⟨.number 3, true⟩, ⟨.text "x", true⟩]]) ∧
    contradictedUnits.propagateUnits.decided = none ∧
      ∀ a : Valuation Variable, ¬ a.Satisfies contradictedUnits.clauses := by
  obtain ⟨-, -, -, decides⟩ := propagateUnits_at_once chainedUnits
  obtain ⟨-, refutes, noModel, -⟩ := propagateUnits_at_once contradictedUnits
  have decided : chainedUnits.propagateUnits.decided ≠ none := by
    rw [← Option.isSome_iff_ne_none]
    decide +kernel
  obtain ⟨values, left, -⟩ := decides decided
  have refuted : contradictedUnits.propagateUnits.decided = none := by
    apply refutes.mpr
    refine ⟨List.cons_ne_nil _ _, [⟨.truth true, false⟩], by simp [contradictedUnits], ?_, ?_⟩
    · intro l hl
      rw [List.mem_singleton.mp hl]
      rfl
    · intro l hl
      rw [List.mem_singleton.mp hl]
      rfl
  exact ⟨⟨values, left⟩, refuted, noModel refuted⟩

end Formula
end Clausal
