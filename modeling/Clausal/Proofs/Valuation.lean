import Clausal.Formula.Evaluate

namespace Clausal

/-- A truth value for every variable; variables that are the same have the same value. -/
structure Valuation (V : Type) [BEq V] where
  value : V → Bool
  congr : ∀ {v w : V}, (v == w) = true → value v = value w

variable {V : Type} [BEq V]

theorem forall_exists_map_distinct [EquivBEq V] {P : Literal V → Prop} {cs : List (Clause V)}
    (congr : ∀ {k l : Literal V}, (k.var == l.var) = true → k.sign = l.sign → P k → P l) :
    (∀ c ∈ cs.map distinct, ∃ l ∈ c, P l) ↔ ∀ c ∈ cs, ∃ l ∈ c, P l := by
  rw [List.forall_mem_map]
  refine forall₂_congr fun c _ => ?_
  constructor
  · rintro ⟨l, hl, right⟩
    exact ⟨l, (distinct_sublist c).mem hl, right⟩
  · rintro ⟨l, hl, right⟩
    obtain ⟨k, hk, same⟩ := exists_mem_distinct hl
    rw [Literal.beq_eq, Bool.and_eq_true] at same
    exact ⟨k, hk, congr same.1 (eq_of_beq same.2) right⟩

namespace Valuation

/-- Every clause has a literal whose sign is the value of its variable. -/
def Satisfies (a : Valuation V) (cs : List (Clause V)) : Prop :=
  ∀ c ∈ cs, ∃ l ∈ c, l.sign = a.value l.var

def Agrees (a : Valuation V) (pairs : Assignment V) : Prop :=
  ∀ p ∈ pairs, a.value p.1 = p.2

theorem satisfies_append {a : Valuation V} {cs ds : List (Clause V)} :
    a.Satisfies (cs ++ ds) ↔ a.Satisfies cs ∧ a.Satisfies ds :=
  List.forall_mem_append

theorem satisfies_unit {a : Valuation V} {l : Literal V} :
    a.Satisfies [[l]] ↔ l.sign = a.value l.var := by
  simp [Satisfies]

/-- A unit clause leaves its variable one value. -/
theorem Satisfies.value_of_unit {a : Valuation V} {cs : List (Clause V)} (h : a.Satisfies cs)
    {l : Literal V} (unit : [l] ∈ cs) : a.value l.var = l.sign := by
  obtain ⟨k, hk, hs⟩ := h [l] unit
  rw [List.mem_singleton.mp hk] at hs
  exact hs.symm

theorem Satisfies.of_subset {a : Valuation V} {cs ds : List (Clause V)} (h : a.Satisfies cs)
    (sub : ∀ d ∈ ds, d ∈ cs) : a.Satisfies ds :=
  fun d hd => h d (sub d hd)

theorem Satisfies.no_empty {a : Valuation V} {cs : List (Clause V)} (h : a.Satisfies cs) :
    [] ∉ cs := by
  intro hm
  obtain ⟨l, hl, -⟩ := h [] hm
  exact absurd hl List.not_mem_nil

theorem Satisfies.congr {a b : Valuation V} [EquivBEq V] {cs : List (Clause V)}
    (same : ∀ v, Occurs cs v → a.value v = b.value v) (h : a.Satisfies cs) : b.Satisfies cs := by
  intro c hc
  obtain ⟨l, hl, hs⟩ := h c hc
  exact ⟨l, hl, hs.trans (same l.var ⟨c, hc, l, hl, BEq.rfl⟩)⟩

theorem satisfies_map_distinct [EquivBEq V] {a : Valuation V} {cs : List (Clause V)} :
    a.Satisfies (cs.map distinct) ↔ a.Satisfies cs :=
  forall_exists_map_distinct fun var sign right => by rw [← sign, right, a.congr var]

theorem agrees_append {a : Valuation V} {xs ys : Assignment V} :
    a.Agrees (xs ++ ys) ↔ a.Agrees xs ∧ a.Agrees ys :=
  List.forall_mem_append

theorem agrees_cons {a : Valuation V} {p : V × Bool} {ps : Assignment V} :
    a.Agrees (p :: ps) ↔ a.value p.1 = p.2 ∧ a.Agrees ps :=
  List.forall_mem_cons

end Valuation

namespace Assignment

/-- Every variable that occurs has a value. -/
def Covers (pairs : Assignment V) (cs : List (Clause V)) : Prop :=
  ∀ v, Occurs cs v → (pairs.value? v).isSome = true

/-- What the smaller assignment says of a variable, the larger one says as well. -/
def Extends (larger smaller : Assignment V) : Prop :=
  ∀ v b, smaller.value? v = some b → larger.value? v = some b

/-- The last pair for the variable gives it the value. -/
def LastIs (pairs : Assignment V) (v : V) (b : Bool) : Prop :=
  ∃ (earlier : Assignment V) (w : V) (later : Assignment V), pairs = earlier ++ (w, b) :: later ∧
    (w == v) = true ∧ ∀ p ∈ later, (p.1 == v) = false

/-- A clause has no literal but false ones, by the last values of their variables. -/
def Falsifies (pairs : Assignment V) (cs : List (Clause V)) : Prop :=
  ∃ c ∈ cs, ∀ l ∈ c, pairs.LastIs l.var (!l.sign)

/-- The pairs settle the clauses: each variable once, only variables that occur, and every valuation
that agrees with them satisfies the clauses. -/
structure Decides (decided : Assignment V) (cs : List (Clause V)) : Prop where
  once : NoRepeat (decided.map Prod.fst)
  occurs : ∀ p ∈ decided, Occurs cs p.1
  satisfies : ∀ a : Valuation V, a.Agrees decided → a.Satisfies cs

theorem value?_append (xs ys : Assignment V) (v : V) :
    value? (xs ++ ys) v = (value? ys v).or (value? xs v) := by
  induction xs with
  | nil => simp [value?]
  | cons p xs ih =>
    simp only [List.cons_append, value?, ih]
    cases value? ys v <;> rfl

theorem exists_mem_of_value? {pairs : Assignment V} {v : V} {b : Bool}
    (h : pairs.value? v = some b) : ∃ w, (w, b) ∈ pairs ∧ (w == v) = true := by
  induction pairs with
  | nil => simp [value?] at h
  | cons p pairs ih =>
    obtain ⟨w, value⟩ := p
    simp only [value?] at h
    cases hl : value? pairs v with
    | some later =>
      obtain ⟨u, hm, hu⟩ := ih (by simpa [hl] using h)
      exact ⟨u, List.mem_cons_of_mem _ hm, hu⟩
    | none =>
      cases hw : (w == v) with
      | false => simp [hl, hw] at h
      | true =>
        simp only [hl, hw, ↓reduceIte, Option.some.injEq] at h
        exact ⟨w, h ▸ List.mem_cons_self, hw⟩

theorem value?_eq_none_iff_ne {pairs : Assignment V} {v : V} :
    pairs.value? v = none ↔ ∀ p ∈ pairs, (p.1 == v) = false := by
  induction pairs with
  | nil => simp [value?]
  | cons p pairs ih =>
    rw [List.forall_mem_cons, ← ih, value?]
    cases value? pairs v <;> cases p.1 == v <;> simp

/-- Of the pairs for a variable the last one counts. -/
theorem lastIs_iff {pairs : Assignment V} {v : V} {b : Bool} :
    pairs.LastIs v b ↔ pairs.value? v = some b := by
  constructor
  · rintro ⟨earlier, w, later, rfl, same, last⟩
    rw [value?_append, value?, value?_eq_none_iff_ne.mpr last, same]
    rfl
  · intro h
    induction pairs with
    | nil => cases h
    | cons p pairs ih =>
      obtain ⟨w, value⟩ := p
      rw [value?] at h
      cases hl : value? pairs v with
      | some other =>
        rw [hl] at h
        obtain ⟨earlier, u, later, rfl, found⟩ := ih (hl.trans h)
        exact ⟨(w, value) :: earlier, u, later, rfl, found⟩
      | none =>
        cases hw : (w == v) with
        | false => simp [hl, hw] at h
        | true =>
          simp only [hl, hw, ↓reduceIte, Option.some.injEq] at h
          exact ⟨[], w, pairs, by rw [h]; rfl, hw, value?_eq_none_iff_ne.mp hl⟩

instance (pairs : Assignment V) (v : V) (b : Bool) : Decidable (pairs.LastIs v b) :=
  decidable_of_iff _ lastIs_iff.symm

instance (pairs : Assignment V) (cs : List (Clause V)) : Decidable (pairs.Falsifies cs) :=
  inferInstanceAs (Decidable (∃ c ∈ cs, ∀ l ∈ c, pairs.LastIs l.var (!l.sign)))

variable [EquivBEq V]

theorem value?_congr {v w : V} (h : (v == w) = true) (pairs : Assignment V) :
    pairs.value? v = pairs.value? w := by
  induction pairs with
  | nil => rfl
  | cons p pairs ih => simp only [value?, ih, BEq.congr_right h]

theorem covers_iff {pairs : Assignment V} {cs : List (Clause V)} :
    pairs.Covers cs ↔ ∀ c ∈ cs, ∀ l ∈ c, (pairs.value? l.var).isSome = true := by
  constructor
  · intro covers c hc l hl
    exact covers l.var ⟨c, hc, l, hl, BEq.rfl⟩
  · rintro known v ⟨c, hc, l, hl, same⟩
    rw [← value?_congr same]
    exact known c hc l hl

instance (pairs : Assignment V) (cs : List (Clause V)) : Decidable (pairs.Covers cs) :=
  decidable_of_iff _ covers_iff.symm

theorem value?_isSome (pairs : Assignment V) (v : V) :
    (pairs.value? v).isSome = (pairs.map Prod.fst).contains v := by
  induction pairs with
  | nil => rfl
  | cons p pairs ih =>
    simp only [value?, List.map_cons, List.contains_cons, ← ih, BEq.comm (a := v)]
    cases value? pairs v with
    | some b => simp
    | none => cases (p.1 == v) <;> rfl

theorem value?_eq_none {pairs : Assignment V} {v : V} :
    pairs.value? v = none ↔ (pairs.map Prod.fst).contains v = false := by
  rw [← value?_isSome, Option.isSome_eq_false_iff, Option.isNone_iff_eq_none]

theorem value?_eq_none_of_ne {pairs : Assignment V} {v : V}
    (h : ∀ w ∈ pairs.map Prod.fst, (v == w) = false) : pairs.value? v = none := by
  apply value?_eq_none.mpr
  apply Bool.eq_false_iff.mpr
  intro held
  obtain ⟨w, hw, same⟩ := List.contains_iff_exists_mem_beq.mp held
  rw [h w hw] at same
  cases same

theorem value?_of_mem {pairs : Assignment V} (once : NoRepeat (pairs.map Prod.fst)) {v : V}
    {b : Bool} (h : (v, b) ∈ pairs) : pairs.value? v = some b := by
  induction pairs with
  | nil => simp at h
  | cons p pairs ih =>
    obtain ⟨hp, hps⟩ := List.pairwise_cons.mp once
    rcases List.mem_cons.mp h with rfl | hm
    · have hlater : value? pairs v = none := value?_eq_none_of_ne hp
      simp [value?, hlater]
    · simp [value?, ih hps hm]

/-- The last values of the pairs; a variable without a value is false. -/
def valuation (pairs : Assignment V) : Valuation V where
  value v := (pairs.value? v).getD false
  congr h := by rw [value?_congr h]

theorem valuation_value {pairs : Assignment V} {v : V} {b : Bool} (h : pairs.value? v = some b) :
    pairs.valuation.value v = b := by
  simp [valuation, h]

theorem agrees_valuation {pairs : Assignment V} (once : NoRepeat (pairs.map Prod.fst)) :
    pairs.valuation.Agrees pairs :=
  fun _ hp => valuation_value (value?_of_mem once hp)

/-- An extension keeps every pair of an assignment that repeats no variable. -/
theorem Extends.agrees {larger smaller : Assignment V} (h : larger.Extends smaller)
    (once : NoRepeat (smaller.map Prod.fst)) : larger.valuation.Agrees smaller :=
  fun p hp => valuation_value (h p.1 p.2 (value?_of_mem once hp))

theorem trueUnder_iff {pairs : Assignment V} {l : Literal V}
    (h : (pairs.value? l.var).isSome = true) :
    l.trueUnder pairs = true ↔ l.sign = pairs.valuation.value l.var := by
  obtain ⟨b, hb⟩ := Option.isSome_iff_exists.mp h
  simp [Literal.trueUnder, hb, Literal.holds, valuation_value hb]

theorem Covers.literal_of_not_falsifies {pairs : Assignment V} {cs : List (Clause V)}
    (covers : pairs.Covers cs) (sound : ¬ pairs.Falsifies cs) :
    ∀ c ∈ cs, ∃ l ∈ c, pairs.LastIs l.var l.sign := by
  intro c hc
  obtain ⟨l, hl, other⟩ : ∃ l ∈ c, ¬ pairs.LastIs l.var (!l.sign) := by
    simpa [Falsifies] using fun all => sound ⟨c, hc, all⟩
  obtain ⟨b, hb⟩ := Option.isSome_iff_exists.mp (covers_iff.mp covers c hc l hl)
  refine ⟨l, hl, lastIs_iff.mpr ?_⟩
  rw [lastIs_iff, hb, Option.some.injEq, Bool.not_eq_not] at other
  rw [hb, other]

end Assignment

namespace Valuation

variable {a : Valuation V} {pairs : Assignment V}

def row (a : Valuation V) (vs : List V) : Assignment V :=
  vs.map (fun v => (v, a.value v))

theorem Agrees.value_eq (agrees : a.Agrees pairs) {v : V} {b : Bool}
    (h : pairs.value? v = some b) : a.value v = b := by
  obtain ⟨w, hw, hv⟩ := Assignment.exists_mem_of_value? h
  rw [← a.congr hv]
  exact agrees (w, b) hw

/-- On a formula that the pairs cover, no valuation that agrees with them differs from them. -/
theorem Agrees.satisfies [EquivBEq V] {cs : List (Clause V)} (agrees : a.Agrees pairs)
    (covers : pairs.Covers cs) (h : a.Satisfies cs) : pairs.valuation.Satisfies cs := by
  apply h.congr
  intro v hv
  obtain ⟨b, hb⟩ := Option.isSome_iff_exists.mp (covers v hv)
  rw [agrees.value_eq hb, Assignment.valuation_value hb]

theorem map_fst_row (a : Valuation V) (vs : List V) : (a.row vs).map Prod.fst = vs := by
  simp [row, Function.comp_def]

theorem agrees_row (a : Valuation V) (vs : List V) : a.Agrees (a.row vs) := by
  intro p hp
  obtain ⟨v, -, rfl⟩ := List.mem_map.mp hp
  rfl

end Valuation

namespace Formula

variable [EquivBEq V]

theorem evaluate_of_covers {f : Formula V} {pairs : Assignment V} (h : pairs.Covers f.clauses) :
    f.evaluate pairs = .ok (f.clauses.all (fun c => c.any (Literal.trueUnder pairs))) := by
  have : f.freeVariables.find? (fun v => (pairs.value? v).isNone) = none := by
    apply List.find?_eq_none.mpr
    intro v hv
    have hs := h v (occurs_of_mem_variablesOf hv)
    simpa [Option.isSome_iff_ne_none] using hs
  simp [evaluate, this]

theorem evaluate_eq_true_iff {f : Formula V} {pairs : Assignment V} (h : pairs.Covers f.clauses) :
    f.evaluate pairs = .ok true ↔ pairs.valuation.Satisfies f.clauses := by
  simp only [evaluate_of_covers h, Except.ok.injEq, List.all_eq_true, List.any_eq_true]
  have literal (c : Clause V) (hc : c ∈ f.clauses) (l : Literal V) (hl : l ∈ c) :=
    Assignment.trueUnder_iff (h l.var ⟨c, hc, l, hl, BEq.rfl⟩)
  constructor
  · intro ht c hc
    obtain ⟨l, hl, hs⟩ := ht c hc
    exact ⟨l, hl, (literal c hc l hl).mp hs⟩
  · intro ht c hc
    obtain ⟨l, hl, hs⟩ := ht c hc
    exact ⟨l, hl, (literal c hc l hl).mpr hs⟩

theorem evaluate_eq_false_iff {f : Formula V} {pairs : Assignment V} (h : pairs.Covers f.clauses) :
    f.evaluate pairs = .ok false ↔ pairs.Falsifies f.clauses := by
  rw [evaluate_of_covers h, Except.ok.injEq, List.all_eq_false]
  refine exists_congr fun c => and_congr_right fun hc => ?_
  rw [Bool.not_eq_true, List.any_eq_false]
  refine forall₂_congr fun l hl => ?_
  obtain ⟨b, hb⟩ := Option.isSome_iff_exists.mp (h l.var ⟨c, hc, l, hl, BEq.rfl⟩)
  simp only [Assignment.lastIs_iff, Literal.trueUnder, hb, Literal.holds]
  cases l.sign <;> cases b <;> decide

theorem evaluate_of_not_falsifies {f : Formula V} {pairs : Assignment V}
    (h : pairs.Covers f.clauses) (sound : ¬ pairs.Falsifies f.clauses) :
    f.evaluate pairs = .ok true := by
  rw [← evaluate_eq_false_iff h, evaluate_of_covers h, Except.ok.injEq, Bool.not_eq_false] at sound
  rw [evaluate_of_covers h, sound]

/-- Two formulas with the same models are equally true where both are covered. -/
theorem evaluate_eq_of_satisfies_iff {f g : Formula V} {pairs : Assignment V}
    (hf : pairs.Covers f.clauses) (hg : pairs.Covers g.clauses)
    (same : pairs.valuation.Satisfies f.clauses ↔ pairs.valuation.Satisfies g.clauses) :
    f.evaluate pairs = g.evaluate pairs := by
  have truth : f.evaluate pairs = .ok true ↔ g.evaluate pairs = .ok true := by
    rw [evaluate_eq_true_iff hf, evaluate_eq_true_iff hg, same]
  rw [evaluate_of_covers hf, evaluate_of_covers hg] at truth ⊢
  rw [Except.ok.injEq, Except.ok.injEq, ← Bool.eq_iff_iff] at truth
  rw [truth]

/-- A formula has a model exactly if some assignment covers it and makes it true. -/
theorem exists_assignment_iff (f : Formula V) :
    (∃ pairs : Assignment V, pairs.Covers f.clauses ∧ f.evaluate pairs = .ok true) ↔
      ∃ a : Valuation V, a.Satisfies f.clauses := by
  constructor
  · rintro ⟨pairs, covers, value⟩
    exact ⟨pairs.valuation, (evaluate_eq_true_iff covers).mp value⟩
  · rintro ⟨a, model⟩
    have covers : (a.row f.freeVariables).Covers f.clauses := by
      intro v hv
      rw [Assignment.value?_isSome, Valuation.map_fst_row]
      exact variablesOf_contains.mpr hv
    exact ⟨_, covers, (evaluate_eq_true_iff covers).mpr ((a.agrees_row _).satisfies covers model)⟩

end Formula
end Clausal
