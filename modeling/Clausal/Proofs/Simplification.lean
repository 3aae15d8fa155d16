import Clausal.Proofs.Fixing
import Clausal.Proofs.Polarities
import Clausal.Simplify.Pure

namespace Clausal

variable {V : Type} [BEq V]

omit [BEq V] in
theorem mem_of_mem_unitsOf {cs : List (Clause V)} {l : Literal V} (h : l ∈ unitsOf cs) :
    [l] ∈ cs := by
  induction cs with
  | nil => simp [unitsOf] at h
  | cons c cs ih =>
    obtain - | ⟨k, - | ⟨_, _⟩⟩ := c
    · exact List.mem_cons_of_mem _ (ih h)
    · rcases List.mem_cons.mp h with rfl | h
      · exact List.mem_cons_self
      · exact List.mem_cons_of_mem _ (ih h)
    · exact List.mem_cons_of_mem _ (ih h)

theorem nil_mem_reduce [EquivBEq V] {cs : List (Clause V)} {k l : Literal V} (unit : [k] ∈ cs)
    (same : (l.var == k.var) = true) (opposite : l.sign ≠ k.sign) :
    [] ∈ (reduce l.var l.sign cs).1 := by
  have unmet : [k].contains (⟨l.var, l.sign⟩ : Literal V) = false := by
    simp [Literal.beq_eq, opposite]
  have stripped : [k].filter (fun m => !m.var == l.var) = [] := by
    simp [BEq.comm (a := k.var), same]
  have left := mem_reduce_of_mem unit unmet
  rwa [stripped] at left

/-- The units still to come in a round: each has its sign as value already, or its clause still
stands. -/
def Pending (cs : List (Clause V)) (decided : Assignment V) (ls : List (Literal V)) : Prop :=
  ∀ l ∈ ls, decided.value? l.var = some l.sign ∨ (decided.value? l.var = none ∧ [l] ∈ cs)

namespace Pending

variable {cs : List (Clause V)} {decided : Assignment V} {l : Literal V} {ls : List (Literal V)}

theorem tail (h : Pending cs decided (l :: ls)) : Pending cs decided ls :=
  fun k hk => h k (List.mem_cons_of_mem _ hk)

theorem unit_mem (h : Pending cs decided (l :: ls)) (fresh : decided.value? l.var = none) :
    [l] ∈ cs := by
  rcases h l List.mem_cons_self with hs | ⟨-, hm⟩
  · rw [fresh] at hs
    cases hs
  · exact hm

theorem sign_eq (h : Pending cs decided (l :: ls)) {value : Bool}
    (known : decided.value? l.var = some value) : value = l.sign := by
  rcases h l List.mem_cons_self with hs | ⟨hn, -⟩
  · rw [known] at hs
    exact Option.some.inj hs
  · rw [known] at hn
    cases hn

/-- Fixing the first unit leaves the others pending. An opposite unit would be left empty. -/
theorem next [EquivBEq V] {f : Formula V} (h : Pending f.clauses decided (l :: ls))
    (fresh : decided.value? l.var = none) (consistent : (f.assign l.var l.sign).2 = true) :
    Pending (f.assign l.var l.sign).1.clauses (decided ++ [(l.var, l.sign)]) ls := by
  intro k hk
  have same (hv : (l.var == k.var) = true) : decided.value? k.var = none := by
    rw [← Assignment.value?_congr hv, fresh]
  rw [Assignment.value?_append]
  rcases h k (List.mem_cons_of_mem _ hk) with hs | ⟨hn, hm⟩
  · left
    cases hv : (l.var == k.var) with
    | true =>
      rw [same hv] at hs
      cases hs
    | false => simp [Assignment.value?, hv, hs]
  · cases hv : (l.var == k.var) with
    | true =>
      left
      cases hs : (l.sign == k.sign) with
      | true => simp [Assignment.value?, hv, eq_of_beq hs]
      | false =>
        -- The opposite unit would lose its literal, which the step does not allow.
        have empty := nil_mem_reduce hm hv (by simpa using hs)
        exact absurd empty (reduce_consistent.mp consistent)
    | false =>
      right
      have unmet : [k].contains (⟨l.var, l.sign⟩ : Literal V) = false := by
        simp [Literal.beq_eq, hv]
      have kept := mem_reduce_of_mem hm unmet
      simp only [List.filter_cons, BEq.comm (a := k.var), hv, Bool.not_false, ↓reduceIte,
        List.filter_nil] at kept
      exact ⟨by simp [Assignment.value?, hv, hn], kept⟩

end Pending

/-- A round of unit propagation over pending units, by what it does at the next one. Its unit stands
alone when it is fixed, and no rule ends the round in a conflict. -/
inductive Round : List (Literal V) → Formula V → Assignment V → Simplified V → Prop where
  | done (f : Formula V) (decided : Assignment V) : Round [] f decided ⟨f, some decided, []⟩
  | known {l : Literal V} {ls : List (Literal V)} {f : Formula V} {decided : Assignment V}
      {r : Simplified V} (value : decided.value? l.var = some l.sign)
      (later : Round ls f decided r) : Round (l :: ls) f decided r
  | fixed {l : Literal V} {ls : List (Literal V)} {f : Formula V} {decided : Assignment V}
      {r : Simplified V} (fresh : decided.value? l.var = none) (unit : [l] ∈ f.clauses)
      (consistent : (f.assign l.var l.sign).2 = true)
      (later : Round ls (f.assign l.var l.sign).1 (decided ++ [(l.var, l.sign)]) r) :
      Round (l :: ls) f decided r
  | emptied {l : Literal V} {ls : List (Literal V)} {f : Formula V} {decided : Assignment V}
      (fresh : decided.value? l.var = none) (unit : [l] ∈ f.clauses)
      (inconsistent : (f.assign l.var l.sign).2 = false) :
      Round (l :: ls) f decided ⟨(f.assign l.var l.sign).1, none, [.emptiedByUnit l]⟩

theorem Pending.round [EquivBEq V] {f : Formula V} {decided : Assignment V} {ls : List (Literal V)}
    (h : Pending f.clauses decided ls) :
    Round ls f decided (Formula.settleUnits ls f decided) := by
  fun_induction Formula.settleUnits ls f decided with
  | case1 f decided => exact .done f decided
  | case2 l ls f decided value known same ih =>
    rw [eq_of_beq same] at known
    exact .known known (ih h.tail)
  | case3 l _ _ _ value known differs => exact absurd (by simp [h.sign_eq known]) differs
  | case4 l ls f decided fresh g hg ih =>
    obtain ⟨rfl, consistent⟩ := Prod.ext_iff.mp hg
    exact .fixed fresh (h.unit_mem fresh) consistent (ih (h.next fresh consistent))
  | case5 l ls f decided fresh g hg =>
    obtain ⟨rfl, inconsistent⟩ := Prod.ext_iff.mp hg
    exact .emptied fresh (h.unit_mem fresh) inconsistent

namespace Round

variable [EquivBEq V] {f : Formula V} {decided all : Assignment V} {ls : List (Literal V)}
  {r : Simplified V}

theorem fixes (h : Round ls f decided r) (decides : r.decided = some all) :
    ∃ new, all = decided ++ new ∧ Formula.Fixes f new r.formula ∧
      ∀ a : Valuation V, a.Satisfies f.clauses → a.Agrees new := by
  induction h with
  | done f decided =>
    cases decides
    exact ⟨[], by simp, .done f, fun _ _ _ hp => absurd hp List.not_mem_nil⟩
  | known _ _ ih => exact ih decides
  | @fixed l ls f decided r fresh unit consistent _ ih =>
    obtain ⟨new, rfl, hfix, forced⟩ := ih decides
    refine ⟨(l.var, l.sign) :: new, by simp, .fix ⟨[l], unit, l, by simp, BEq.rfl⟩ consistent hfix,
      ?_⟩
    intro a ha
    have value := ha.value_of_unit unit
    exact Valuation.agrees_cons.mpr ⟨value, forced a ((satisfies_reduce value).mpr ha)⟩
  | emptied => cases decides

/-- A round that gives up does so on a formula without a model. -/
theorem not_satisfies (h : Round ls f decided r) (gives_up : r.decided = none) (a : Valuation V) :
    ¬ a.Satisfies f.clauses := by
  intro ha
  induction h with
  | done => cases gives_up
  | known _ _ ih => exact ih gives_up ha
  | fixed _ unit _ _ ih =>
    exact ih gives_up ((satisfies_reduce (ha.value_of_unit unit)).mpr ha)
  | emptied _ unit inconsistent =>
    have left := (satisfies_reduce (ha.value_of_unit unit)).mpr ha
    exact left.no_empty (reduce_inconsistent.mp inconsistent)

end Round

namespace Formula

section Units

variable [EquivBEq V] {f : Formula V} {all : Assignment V}

omit [EquivBEq V] in
theorem pending_unitsOf (cs : List (Clause V)) : Pending cs [] (unitsOf cs) :=
  fun _ hl => .inr ⟨rfl, mem_of_mem_unitsOf hl⟩

theorem propagateUnits_round (f : Formula V) : Round (unitsOf f.clauses) f [] f.propagateUnits :=
  (pending_unitsOf f.clauses).round

theorem propagateUnits_fixes (h : f.propagateUnits.decided = some all) :
    Fixes f all f.propagateUnits.formula := by
  obtain ⟨new, rfl, hfix, -⟩ := f.propagateUnits_round.fixes h
  exact hfix

theorem propagateUnits_satisfies (h : f.propagateUnits.decided = some all) {a : Valuation V}
    (ha : a.Satisfies f.clauses) : a.Satisfies f.propagateUnits.formula.clauses := by
  obtain ⟨new, -, hfix, forced⟩ := f.propagateUnits_round.fixes h
  exact (hfix.satisfies (forced a ha)).mpr ha

theorem propagateUnits_none (h : f.propagateUnits.decided = none) (a : Valuation V) :
    ¬ a.Satisfies f.clauses :=
  f.propagateUnits_round.not_satisfies h a

end Units

/-- The polarities that are pure still tell the sign of every literal in the clauses. -/
def PuresHold (pols : Polarities V) (cs : List (Clause V)) : Prop :=
  ∀ v pol, (v, pol) ∈ pols → pol.isPure = true →
    ∀ c ∈ cs, ∀ l ∈ c, (l.var == v) = true → l.sign = (pol = .positive : Bool)

theorem PuresHold.tail {v : V} {pol : Polarity} {pols : Polarities V} {cs : List (Clause V)}
    (h : PuresHold ((v, pol) :: pols) cs) : PuresHold pols cs :=
  fun w p hm => h w p (List.mem_cons_of_mem _ hm)

theorem PuresHold.sublist {pols : Polarities V} {cs ds : List (Clause V)}
    (h : PuresHold pols cs) (sub : ds.Sublist cs) : PuresHold pols ds :=
  fun v pol hm hpure c hc => h v pol hm hpure c (sub.mem hc)

section Pure

variable [EquivBEq V] {f : Formula V} {pols : Polarities V} {decided all : Assignment V}

theorem puresHold_polarities (f : Formula V) : PuresHold f.polarities f.clauses :=
  fun _ _ hm hpure _ hc _ hl hv => sign_of_pure hm hpure hc hl hv

/-- Where all literals of a variable have the fixed sign, its clauses go and no literal is
stripped. -/
theorem reduce_of_sign {v : V} {value : Bool} {cs : List (Clause V)}
    (h : ∀ c ∈ cs, ∀ l ∈ c, (l.var == v) = true → l.sign = value) :
    (reduce v value cs).1 = cs.filter (fun c => !c.any (fun l => l.var == v)) := by
  induction cs with
  | nil => rfl
  | cons c cs ih =>
    obtain ⟨hc, hcs⟩ := List.forall_mem_cons.mp h
    simp only [reduce, List.filter_cons, ← ih hcs]
    cases hm : c.any (fun l => l.var == v) with
    | true =>
      obtain ⟨l, hl, hv⟩ := List.any_eq_true.mp hm
      rw [contains_literal.mpr ⟨l, hl, hv, hc l hl hv⟩]
      simp
    | false =>
      have other : ∀ l ∈ c, (!l.var == v) = true := by simpa using hm
      have unmet : c.contains ⟨v, value⟩ = false := by
        apply Bool.eq_false_iff.mpr
        intro hs
        obtain ⟨l, hl, hv, -⟩ := contains_literal.mp hs
        have := other l hl
        simp [hv] at this
      simp only [unmet, Bool.false_eq_true, ↓reduceIte, Bool.not_false]
      rw [List.filter_eq_self.mpr other]

theorem sublist_of_sign {v : V} {value : Bool}
    (h : ∀ c ∈ f.clauses, ∀ l ∈ c, (l.var == v) = true → l.sign = value) :
    (f.assign v value).1.clauses.Sublist f.clauses := by
  show (reduce v value f.clauses).1.Sublist f.clauses
  rw [reduce_of_sign h]
  exact List.filter_sublist

theorem settlePure_fixes (grounded : f.Grounded)
    (h : (settlePure pols f decided).decided = some all) :
    ∃ new, all = decided ++ new ∧ Fixes f new (settlePure pols f decided).formula := by
  fun_induction settlePure pols f decided with
  | case1 f decided =>
    simp only [Option.some.injEq] at h
    exact ⟨[], by simp [h], .done f⟩
  | case2 v _ _ f decided hv value g hg ih =>
    obtain ⟨rfl, consistent⟩ := Prod.ext_iff.mp hg
    obtain ⟨w, hw, hvw⟩ := List.contains_iff_exists_mem_beq.mp (Bool.and_eq_true_iff.mp hv).2
    obtain ⟨c, hc, l, hl, hlw⟩ := grounded w hw
    obtain ⟨new, rfl, hfix⟩ := ih (grounded_assign f v value) h
    exact ⟨(v, value) :: new, by simp,
      .fix ⟨c, hc, l, hl, BEq.trans hlw (BEq.symm hvw)⟩ consistent hfix⟩
  | case3 => simp at h
  | case4 _ _ _ _ _ _ ih => exact ih grounded h

/-- Under polarities that hold, clauses are dropped and none is changed. -/
theorem settlePure_sublist (holds : PuresHold pols f.clauses) :
    (settlePure pols f decided).formula.clauses.Sublist f.clauses := by
  fun_induction settlePure pols f decided with
  | case1 => exact .refl _
  | case2 v pol _ f _ hv value g hg ih =>
    obtain ⟨rfl, -⟩ := Prod.ext_iff.mp hg
    have sub : (f.assign v value).1.clauses.Sublist f.clauses :=
      sublist_of_sign (holds v pol List.mem_cons_self (Bool.and_eq_true_iff.mp hv).1)
    exact (ih (holds.sublist sub).tail).trans sub
  | case3 v pol _ f _ hv value g hg =>
    obtain ⟨rfl, -⟩ := Prod.ext_iff.mp hg
    exact sublist_of_sign (holds v pol List.mem_cons_self (Bool.and_eq_true_iff.mp hv).1)
  | case4 _ _ _ _ _ _ ih => exact ih holds.tail

/-- Under polarities that hold, only an empty clause that was there before makes it give up. -/
theorem settlePure_none (holds : PuresHold pols f.clauses)
    (h : (settlePure pols f decided).decided = none) : [] ∈ f.clauses := by
  fun_induction settlePure pols f decided with
  | case1 => simp at h
  | case2 v pol _ f _ hv value g hg ih =>
    obtain ⟨rfl, -⟩ := Prod.ext_iff.mp hg
    have sub : (f.assign v value).1.clauses.Sublist f.clauses :=
      sublist_of_sign (holds v pol List.mem_cons_self (Bool.and_eq_true_iff.mp hv).1)
    exact sub.mem (ih (holds.sublist sub).tail h)
  | case3 v pol _ f _ hv value g hg =>
    obtain ⟨-, inconsistent⟩ := Prod.ext_iff.mp hg
    have sub := sublist_of_sign (holds v pol List.mem_cons_self (Bool.and_eq_true_iff.mp hv).1)
    exact sub.mem (reduce_inconsistent.mp inconsistent)
  | case4 _ _ _ _ _ _ ih => exact ih holds.tail h

theorem assignPure_fixes (grounded : f.Grounded) (h : (f.assignPure pols).decided = some all) :
    Fixes f all (f.assignPure pols).formula := by
  obtain ⟨new, rfl, hfix⟩ := settlePure_fixes grounded h
  exact hfix

theorem assignPure_satisfies {a : Valuation V} (ha : a.Satisfies f.clauses) :
    a.Satisfies (f.assignPure f.polarities).formula.clauses :=
  ha.of_subset fun _ hc => (settlePure_sublist (puresHold_polarities f)).mem hc

theorem assignPure_none (h : (f.assignPure f.polarities).decided = none) : [] ∈ f.clauses :=
  settlePure_none (puresHold_polarities f) h

end Pure

end Formula
end Clausal
