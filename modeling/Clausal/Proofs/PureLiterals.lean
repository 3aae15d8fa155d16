import Clausal.Proofs.Simplification

namespace Clausal

variable {V : Type} [BEq V]

/-- The variable occurs, and only in literals that the value makes true. -/
def PureIn (cs : List (Clause V)) (v : V) (value : Bool) : Prop :=
  Occurs cs v ∧ ∀ c ∈ cs, ∀ l ∈ c, (l.var == v) = true → l.sign = value

instance (cs : List (Clause V)) (v : V) (value : Bool) : Decidable (PureIn cs v value) :=
  inferInstanceAs (Decidable (Occurs cs v ∧ _))

def Polarities.pures (pols : Polarities V) : Assignment V :=
  Polarities.assignment (pols.filter (fun entry => entry.2.isPure))

def Clause.avoids (vs : List V) (c : Clause V) : Bool :=
  !c.any (fun l => vs.contains l.var)

theorem Clause.avoids_cons (v : V) (vs : List V) (c : Clause V) :
    c.avoids (v :: vs) = (c.avoids vs && !c.any (fun l => l.var == v)) := by
  rw [avoids, avoids, ← Bool.not_or]
  congr 1
  induction c with
  | nil => rfl
  | cons l c ih =>
    rw [List.any_cons, List.any_cons, List.any_cons, ih, List.contains_cons]
    cases l.var == v <;> simp [Bool.or_assoc]

/-- The values of the pairs, where they give one, and else those of the valuation. -/
def Valuation.override [EquivBEq V] (a : Valuation V) (pairs : Assignment V) : Valuation V where
  value v := (pairs.value? v).getD (a.value v)
  congr h := by rw [Assignment.value?_congr h, a.congr h]

theorem Polarity.isPure_of_includes {p : Polarity} (value : Bool)
    (h : ∀ sign, p.includes sign = true ↔ sign = value) : p.isPure = true := by
  cases p with
  | unknown => exact absurd ((h value).mpr rfl) (by simp)
  | positive => rfl
  | negative => rfl
  | mixed => exact absurd ((h (!value)).mp rfl) (by simp)

namespace Polarities

omit [BEq V] in
theorem pures_of_pure {v : V} {pol : Polarity} {pols : Polarities V} (h : pol.isPure = true) :
    Polarities.pures ((v, pol) :: pols) = (v, (pol = .positive : Bool)) :: pols.pures := by
  simp [pures, assignment, h]

omit [BEq V] in
theorem pures_of_not_pure {v : V} {pol : Polarity} {pols : Polarities V} (h : pol.isPure = false) :
    Polarities.pures ((v, pol) :: pols) = pols.pures := by
  simp [pures, h]

omit [BEq V] in
theorem mem_pures {pols : Polarities V} {p : V × Bool} :
    p ∈ pols.pures ↔
      ∃ pol, (p.1, pol) ∈ pols ∧ pol.isPure = true ∧ p.2 = (pol = .positive : Bool) := by
  obtain ⟨v, value⟩ := p
  simp only [pures, assignment, List.mem_map, List.mem_filter]
  constructor
  · rintro ⟨⟨w, pol⟩, ⟨hm, hpure⟩, same⟩
    cases same
    exact ⟨pol, hm, hpure, rfl⟩
  · rintro ⟨pol, hm, hpure, rfl⟩
    exact ⟨(v, pol), ⟨hm, hpure⟩, rfl⟩

end Polarities

variable [EquivBEq V]

namespace Valuation

theorem agrees_override (a : Valuation V) {pairs : Assignment V}
    (once : NoRepeat (pairs.map Prod.fst)) : (a.override pairs).Agrees pairs := by
  intro p hp
  simp [override, Assignment.value?_of_mem once hp]

/-- Clauses in which none of the variables occurs do not see their values. -/
theorem Satisfies.override {a : Valuation V} {pairs : Assignment V} {cs : List (Clause V)}
    (h : a.Satisfies cs) (gone : ∀ p ∈ pairs, ¬ Occurs cs p.1) :
    (a.override pairs).Satisfies cs := by
  apply h.congr
  intro v hv
  have unknown : pairs.value? v = none := by
    apply Assignment.value?_eq_none_of_ne
    intro w hw
    obtain ⟨p, hp, rfl⟩ := List.mem_map.mp hw
    obtain ⟨c, hc, l, hl, hlv⟩ := hv
    apply Bool.eq_false_iff.mpr
    intro same
    exact gone p hp ⟨c, hc, l, hl, BEq.trans hlv same⟩
  simp [Valuation.override, unknown]

end Valuation

namespace Formula

section Table

variable {f : Formula V} {v : V} {value : Bool}

theorem pureIn_of_mem_pures {p : V × Bool} (h : p ∈ f.polarities.pures) :
    PureIn f.clauses p.1 p.2 := by
  obtain ⟨pol, hm, hpure, value⟩ := Polarities.mem_pures.mp h
  rw [value]
  constructor
  · apply occurs_of_mem_variablesOf
    have listed : p.1 ∈ f.polarities.map Prod.fst := List.mem_map.mpr ⟨_, hm, rfl⟩
    rwa [map_fst_polarities] at listed
  · intro c hc l hl same
    exact sign_of_pure hm hpure hc hl same

theorem contains_pures_of_pureIn (h : PureIn f.clauses v value) :
    (f.polarities.pures.map Prod.fst).contains v = true := by
  obtain ⟨w, pol, hm, same⟩ := exists_polarity_of_occurs h.1
  have hpure : pol.isPure = true := by
    apply Polarity.isPure_of_includes value
    intro sign
    rw [eq_polarity_of_mem hm, Clause.polarity_includes_iff]
    constructor
    · rintro ⟨l, hl, hlw, rfl⟩
      obtain ⟨c, hc, hl⟩ := List.mem_flatten.mp hl
      exact h.2 c hc l hl (BEq.trans hlw (BEq.symm same))
    · rintro rfl
      obtain ⟨c, hc, l, hl, hlv⟩ := h.1
      exact ⟨l, List.mem_flatten.mpr ⟨c, hc, hl⟩, BEq.trans hlv same, h.2 c hc l hl hlv⟩
  have mem : (w, (pol = .positive : Bool)) ∈ f.polarities.pures :=
    Polarities.mem_pures.mpr ⟨pol, hm, hpure, rfl⟩
  exact List.contains_iff_exists_mem_beq.mpr ⟨w, List.mem_map.mpr ⟨_, mem, rfl⟩, same⟩

theorem contains_pures_iff :
    (f.polarities.pures.map Prod.fst).contains v = true ↔ ∃ value, PureIn f.clauses v value := by
  constructor
  · intro held
    obtain ⟨w, hw, same⟩ := List.contains_iff_exists_mem_beq.mp held
    obtain ⟨p, hp, rfl⟩ := List.mem_map.mp hw
    obtain ⟨⟨c, hc, l, hl, hlp⟩, signs⟩ := pureIn_of_mem_pures hp
    refine ⟨p.2, ⟨c, hc, l, hl, BEq.trans hlp (BEq.symm same)⟩, ?_⟩
    intro d hd k hk hkv
    exact signs d hd k hk (BEq.trans hkv same)
  · rintro ⟨value, h⟩
    exact contains_pures_of_pureIn h

end Table

section Run

variable {f : Formula V} {pols : Polarities V} {decided all : Assignment V}

omit [EquivBEq V] in
/-- What is decided comes from the table, in the order of the table. -/
theorem settlePure_decided (h : (settlePure pols f decided).decided = some all) :
    ∃ new, all = decided ++ new ∧ new.Sublist pols.pures := by
  fun_induction settlePure pols f decided with
  | case1 f decided =>
    simp only [Option.some.injEq] at h
    exact ⟨[], by simp [h], List.nil_sublist _⟩
  | case2 v pol pols f decided hv value g hg ih =>
    obtain ⟨new, rfl, sub⟩ := ih h
    refine ⟨(v, value) :: new, by simp, ?_⟩
    rw [Polarities.pures_of_pure (Bool.and_eq_true_iff.mp hv).1]
    exact sub.cons_cons _
  | case3 => cases h
  | case4 v pol pols f decided hv ih =>
    obtain ⟨new, rfl, sub⟩ := ih h
    refine ⟨new, rfl, ?_⟩
    cases hpure : pol.isPure with
    | true =>
      rw [Polarities.pures_of_pure hpure]
      exact sub.cons _
    | false => rwa [Polarities.pures_of_not_pure hpure]

omit [EquivBEq V] in
theorem assignPure_decided (h : (f.assignPure pols).decided = some all) :
    all.Sublist pols.pures := by
  obtain ⟨new, rfl, sub⟩ := settlePure_decided h
  exact sub

/-- The clauses in which one of the pure variables occurs are dropped. A variable that is passed
over occurs no more, so that no clause is left for it. -/
theorem settlePure_clauses (listed : f.Listed) (holds : PuresHold pols f.clauses)
    (noEmpty : [] ∉ f.clauses) :
    (settlePure pols f decided).formula.clauses =
      f.clauses.filter (Clause.avoids (pols.pures.map Prod.fst)) := by
  fun_induction settlePure pols f decided with
  | case1 f =>
    symm
    apply List.filter_eq_self.mpr
    intro c _
    simp [Clause.avoids, Polarities.pures, Polarities.assignment]
  | case2 v pol pols f decided hv value g hg ih =>
    obtain ⟨rfl, consistent⟩ := Prod.ext_iff.mp hg
    have hpure := (Bool.and_eq_true_iff.mp hv).1
    have signs := holds v pol List.mem_cons_self hpure
    have dropped : (f.assign v value).1.clauses =
        f.clauses.filter (fun c => !c.any (fun l => l.var == v)) := reduce_of_sign signs
    rw [ih (listed_assign f v value) (holds.sublist (sublist_of_sign signs)).tail
      (reduce_consistent.mp consistent), dropped, List.filter_filter,
      Polarities.pures_of_pure hpure]
    apply List.filter_congr
    intro c _
    exact (Clause.avoids_cons v _ c).symm
  | case3 v pol pols f decided hv value g hg =>
    obtain ⟨rfl, inconsistent⟩ := Prod.ext_iff.mp hg
    have signs := holds v pol List.mem_cons_self (Bool.and_eq_true_iff.mp hv).1
    exact absurd ((sublist_of_sign signs).mem (reduce_inconsistent.mp inconsistent)) noEmpty
  | case4 v pol pols f decided hv ih =>
    -- What is passed over is not pure, or went with the clauses of a variable before it.
    rw [ih listed holds.tail noEmpty]
    cases hpure : pol.isPure with
    | true =>
      have vanished : ¬ Occurs f.clauses v := by
        intro occurs
        exact hv (by rw [hpure, (listed v).mpr occurs]; rfl)
      rw [Polarities.pures_of_pure hpure]
      apply List.filter_congr
      intro c hc
      have other : c.any (fun l => l.var == v) = false := by
        apply Bool.eq_false_iff.mpr
        intro some
        obtain ⟨l, hl, same⟩ := List.any_eq_true.mp some
        exact vanished ⟨c, hc, l, hl, same⟩
      rw [List.map_cons, Clause.avoids_cons, other, Bool.not_false, Bool.and_true]
    | false => rw [Polarities.pures_of_not_pure hpure]

end Run

/-- If the listed variables are those that occur and no clause is empty, the elimination of pure
literals never gives up. What it leaves are the clauses without a variable that is pure in the
formula, as they were. What it decides are pure variables with their values, each once, and these
make a model of the rest a model of the formula; so the one has a model exactly if the other
does. -/
theorem assignPure_at_once {f : Formula V} (listed : f.Listed) (noEmpty : [] ∉ f.clauses) :
    (f.assignPure f.polarities).formula.clauses =
      f.clauses.filter (fun c => ∀ l ∈ c, ∀ value, ¬ PureIn f.clauses l.var value) ∧
    ∃ pairs, (f.assignPure f.polarities).decided = some pairs ∧
      NoRepeat (pairs.map Prod.fst) ∧ (∀ p ∈ pairs, PureIn f.clauses p.1 p.2) ∧
      (∀ a : Valuation V, a.Satisfies (f.assignPure f.polarities).formula.clauses →
        a.Agrees pairs → a.Satisfies f.clauses) ∧
      ((∃ a : Valuation V, a.Satisfies f.clauses) ↔
        ∃ a : Valuation V, a.Satisfies (f.assignPure f.polarities).formula.clauses) := by
  constructor
  · rw [assignPure, settlePure_clauses listed (puresHold_polarities f) noEmpty]
    apply List.filter_congr
    intro c _
    rw [Bool.eq_iff_iff, decide_eq_true_iff, Clause.avoids, Bool.not_eq_true', List.any_eq_false]
    refine forall₂_congr fun l _ => ?_
    rw [contains_pures_iff, not_exists]
  · obtain ⟨pairs, decided⟩ := Option.ne_none_iff_exists'.mp
      fun h => noEmpty (assignPure_none (f := f) h)
    have fixes := assignPure_fixes listed.grounded decided
    have models (a : Valuation V)
        (left : a.Satisfies (f.assignPure f.polarities).formula.clauses)
        (agrees : a.Agrees pairs) : a.Satisfies f.clauses :=
      (fixes.satisfies agrees).mp left
    refine ⟨pairs, decided, fixes.once, ?_, models, ?_, ?_⟩
    · intro p hp
      exact pureIn_of_mem_pures ((assignPure_decided decided).mem hp)
    · rintro ⟨a, model⟩
      exact ⟨a, assignPure_satisfies model⟩
    · rintro ⟨a, left⟩
      refine ⟨a.override pairs, models _ ?_ (a.agrees_override fixes.once)⟩
      exact left.override fun p => fixes.gone

/-- The second variable is pure and has vanished when its turn comes; the third occurs with both
signs and goes with the clauses of the others. -/
def vanishing : Formula Variable :=
  .ofClauses [[⟨.number 1, false⟩, ⟨.number 2, true⟩], [⟨.number 1, false⟩, ⟨.number 3, false⟩],
    [⟨.text "a", true⟩, ⟨.text "b", false⟩], [⟨.number 3, true⟩, ⟨.number 4, true⟩],
    [⟨.number 3, false⟩, ⟨.number 4, true⟩], [⟨.text "b", true⟩, ⟨.text "a", false⟩]] none

theorem vanishing_at_once :
    vanishing.Listed ∧ [] ∉ vanishing.clauses ∧
      (vanishing.assignPure vanishing.polarities).formula.clauses =
        [[⟨.text "a", true⟩, ⟨.text "b", false⟩], [⟨.text "b", true⟩, ⟨.text "a", false⟩]] ∧
      ∃ pairs, (vanishing.assignPure vanishing.polarities).decided = some pairs ∧
        NoRepeat (pairs.map Prod.fst) ∧ ∀ p ∈ pairs, PureIn vanishing.clauses p.1 p.2 := by
  have listed : vanishing.Listed := listed_reconcile _
  have noEmpty : [] ∉ vanishing.clauses := by
    show [] ∉ List.map distinct _
    simp [distinct]
  obtain ⟨left, pairs, decided, once, pure, -⟩ := assignPure_at_once listed noEmpty
  exact ⟨listed, noEmpty, left, pairs, decided, once, pure⟩

end Formula
end Clausal
