import Mathlib.Data.List.Pairwise
import Clausal.Proofs.BothSigns
import Clausal.Proofs.Bookkeeping
import Clausal.Proofs.Draws
import Clausal.Proofs.Printing
import Clausal.Proofs.SignedClauses

namespace Clausal

namespace RandomClauses

def placed (place : Nat) : Variable :=
  .number (place + 1 : Nat)

/-- The variables of a formula in ascending order, whether or not they occur. -/
def ascending (vars : Nat) : List Variable :=
  (List.range vars).map placed

theorem noRepeat_placed {places : List Nat} (once : places.Nodup) :
    NoRepeat (places.map placed) := by
  refine List.pairwise_map.mpr (once.imp ?_)
  intro p q differ
  have : (numbers.name (p + 1 : Nat) == numbers.name (q + 1 : Nat)) = false := by
    rw [numbers.same, beq_eq_false_iff_ne]
    omega
  exact this

namespace Draw

variable {vars k : Nat} {d : Draw}

def literals (d : Draw) : Clause Variable :=
  (d.places.zip d.signs).map (fun item => ⟨placed item.1, item.2 = 1⟩)

theorem Fits.map_var (h : d.Fits vars k) : d.literals.map Literal.var = d.places.map placed := by
  have long : d.places.length ≤ d.signs.length := by rw [h.places.length, h.signs]
  rw [literals, List.map_map]
  conv => rhs; rw [← List.map_fst_zip long, List.map_map]
  rfl

theorem Fits.once (h : d.Fits vars k) : NoRepeat (d.literals.map Literal.var) := by
  rw [h.map_var]
  exact noRepeat_placed h.places.once

theorem Fits.length (h : d.Fits vars k) : d.literals.length = k := by
  have := congrArg List.length h.map_var
  rwa [List.length_map, List.length_map, h.places.length] at this

def number (item : Nat × Nat) : Int :=
  ((item.1 + 1 : Nat) : Int) * (2 * item.2 - 1)

theorem clause_eq (d : Draw) : d.clause = (d.places.zip d.signs).map number :=
  List.map_uncurry_zip_eq_zipWith.symm

theorem signed_number {item : Nat × Nat} (bit : item.2 = 0 ∨ item.2 = 1) :
    number item ≠ 0 ∧ Literal.signed (number item) = ⟨placed item.1, item.2 = 1⟩ := by
  obtain ⟨place, sign⟩ := item
  rcases bit with rfl | rfl
  · have negative : number (place, 0) = -((place + 1 : Nat) : Int) := by simp [number]
    rw [negative]
    refine ⟨by omega, ?_⟩
    rw [Literal.signed, Int.natAbs_neg]
    exact congrArg (Literal.mk (placed place)) (decide_eq_false (by omega))
  · have positive : number (place, 1) = ((place + 1 : Nat) : Int) := by simp [number]
    rw [positive]
    refine ⟨by omega, ?_⟩
    exact congrArg (Literal.mk (placed place)) (decide_eq_true (by omega))

theorem Fits.signed_clause (h : d.Fits vars k) :
    0 ∉ d.clause ∧ d.clause.map Literal.signed = d.literals := by
  have item (q : Nat × Nat) (hq : q ∈ d.places.zip d.signs) :=
    signed_number (h.bits q.2 (List.of_mem_zip hq).2)
  rw [clause_eq]
  constructor
  · intro zero
    obtain ⟨q, hq, same⟩ := List.mem_map.mp zero
    exact (item q hq).1 same
  · rw [List.map_map]
    exact List.map_congr_left fun q hq => (item q hq).2

theorem Fits.distinct_literals (h : d.Fits vars k) : distinct d.literals = d.literals := by
  apply distinct_eq_self
  refine (List.pairwise_map.mp h.once).imp ?_
  intro l m differ
  rw [Literal.beq_eq, differ, Bool.false_and]

theorem Fits.mem_ascending (h : d.Fits vars k) {l : Literal Variable} (hl : l ∈ d.literals) :
    l.var ∈ ascending vars := by
  have hv : l.var ∈ d.places.map placed := h.map_var ▸ List.mem_map_of_mem hl
  obtain ⟨p, hp, same⟩ := List.mem_map.mp hv
  exact same ▸ List.mem_map_of_mem (List.mem_range.mpr (h.places.below p hp))

end Draw

theorem not_hasBoth_of_once {c : Clause Variable} (once : NoRepeat (c.map Literal.var))
    (v : Variable) : ¬ c.HasBoth v := by
  intro both
  obtain ⟨l, hl, sameL, positive⟩ := both true
  obtain ⟨m, hm, sameM, negative⟩ := both false
  have differ : l ≠ m := by
    rintro rfl
    cases positive.symm.trans negative
  have symmetric : Std.Symm fun a b : Literal Variable => (a.var == b.var) = false :=
    ⟨fun a b h => by rwa [BEq.comm]⟩
  have apart : (l.var == m.var) = false := (List.pairwise_map.mp once).forall hl hm differ
  rw [BEq.trans sameL (BEq.symm sameM)] at apart
  cases apart

/-- Clauses of one width over the variables from one upwards, which are all declared. -/
structure Shaped (vars k : Nat) (f : Formula Variable) : Prop where
  width : ∀ c ∈ f.clauses, c.length = k
  once : ∀ c ∈ f.clauses, NoRepeat (c.map Literal.var)
  range : ∀ c ∈ f.clauses, ∀ l ∈ c, l.var ∈ ascending vars
  given : [] ∉ f.clauses
  plain : ∀ c ∈ f.clauses, ∀ v, ¬ c.HasBoth v
  declared : f.declared = ascending vars
  listed : f.vars = (ascending vars).filter (fun v => Occurs f.clauses v)

/-- The drawn clauses as they are, without any loss. -/
def drawn (vars : Nat) (draws : List Draw) : Formula Variable where
  clauses := draws.map Draw.literals
  vars := (ascending vars).filter (fun v => Occurs (draws.map Draw.literals) v)
  declared := ascending vars

section Shape

variable {vars k : Nat} {draws : List Draw}

theorem mapM_clauses (fits : ∀ d ∈ draws, d.Fits vars k) :
    (draws.map Draw.clause).mapM (fun c => c.mapM Item.ofInt) = .ok (draws.map Draw.literals) := by
  have literals : (draws.map Draw.clause).map (fun c => c.map Literal.signed) =
      draws.map Draw.literals := by
    rw [List.map_map]
    exact List.map_congr_left fun d hd => (fits d hd).signed_clause.2
  rw [← literals]
  apply mapM_ok
  intro c hc
  obtain ⟨d, hd, rfl⟩ := List.mem_map.mp hc
  exact mapM_ofInt (fits d hd).signed_clause.1

theorem distinct_literals (fits : ∀ d ∈ draws, d.Fits vars k) :
    (draws.map Draw.literals).map distinct = draws.map Draw.literals := by
  rw [List.map_map]
  exact List.map_congr_left fun d hd => (fits d hd).distinct_literals

theorem ascending_covers (fits : ∀ d ∈ draws, d.Fits vars k) {v : Variable}
    (h : Occurs (draws.map Draw.literals) v) : (ascending vars).contains v = true := by
  obtain ⟨c, hc, l, hl, same⟩ := h
  obtain ⟨d, hd, rfl⟩ := List.mem_map.mp hc
  rw [← contains_congr same]
  exact contains_of_mem ((fits d hd).mem_ascending hl)

/-- Draws that fit make a formula, and nothing is reported. -/
theorem ofDraws_eq (fits : ∀ d ∈ draws, d.Fits vars k) :
    ofDraws vars draws = ⟨.ok (drawn vars draws), []⟩ := by
  have covers (v : Variable) (hv : Occurs (draws.map Draw.literals) v) :=
    ascending_covers fits hv
  have missing : Formula.buildReport (draws.map Draw.literals) (some (ascending vars)) = [] :=
    Formula.buildReport_eq_nil.mpr covers
  have once : NoRepeat (ascending vars) := noRepeat_placed List.nodup_range
  have built : Formula.build (draws.map Draw.literals) (some (ascending vars)) none =
      drawn vars draws := by
    rw [Formula.build_covered once covers]
    have occurs : (variablesOf (draws.map Draw.literals)).contains =
        fun v => decide (Occurs (draws.map Draw.literals) v) := by
      funext v
      rw [Bool.eq_iff_iff, variablesOf_contains, decide_eq_true_iff]
    rw [occurs]
    rfl
  have given : (some ((List.range vars).map (fun i => .number (i + 1 : Nat))) :
      Option (List Variable)) = some (ascending vars) := rfl
  rw [ofDraws, given, Formula.ofSigned, mapM_clauses fits]
  dsimp only
  rw [distinct_literals fits, Formula.buildReported, built, missing]

theorem shaped_drawn (positive : 0 < k) (fits : ∀ d ∈ draws, d.Fits vars k) :
    Shaped vars k (drawn vars draws) := by
  have each {P : Clause Variable → Prop} (h : ∀ d : Draw, d.Fits vars k → P d.literals) :
      ∀ c ∈ (drawn vars draws).clauses, P c :=
    List.forall_mem_map.mpr fun d hd => h d (fits d hd)
  refine ⟨each fun d h => h.length, each fun d h => h.once, each fun d h _ => h.mem_ascending,
    ?_, each fun d h => not_hasBoth_of_once h.once, rfl, rfl⟩
  intro empty
  obtain ⟨d, hd, none⟩ := List.mem_map.mp empty
  have width := (fits d hd).length
  rw [none] at width
  exact absurd width (Nat.ne_of_lt positive)

end Shape

/-- A width that the variables allow gives a formula of this shape whatever is drawn, and what fair
random numbers draw is fit for it. Any other width is refused whatever draws and whatever the seed
is, also one that nothing can start from; and a seed that is refused is told of as it is. -/
theorem formula_shaped (vars clauses k : Int) :
    (¬ (0 < k ∧ k ≤ vars) → ∀ (G : Type) (rng : Rng G) seed,
      formula rng vars clauses k seed = .error (.width k vars)) ∧
    (0 < k → k ≤ vars →
      (∀ draws : List Draw, draws.length = clauses.toNat →
        (∀ d ∈ draws, d.Fits vars.toNat k.toNat) →
        ∃ f, ofDraws vars.toNat draws = ⟨.ok f, []⟩ ∧ f.clauses = draws.map Draw.literals ∧
          f.clauses.length = clauses.toNat ∧ Shaped vars.toNat k.toNat f) ∧
      ∀ (G : Type) (rng : Rng G) seed,
        (∀ g, rng.start seed = .ok g → rng.Fair →
          ∃ draws : List Draw, draws.length = clauses.toNat ∧
            (∀ d ∈ draws, d.Fits vars.toNat k.toNat) ∧
            formula rng vars clauses k seed = .ok (ofDraws vars.toNat draws)) ∧
        ∀ e, rng.start seed = .error e → formula rng vars clauses k seed = .error e) := by
  refine ⟨?_, fun positive fits => ⟨?_, ?_⟩⟩
  · intro wrong G rng seed
    exact if_pos (by omega)
  · intro draws count each
    exact ⟨_, ofDraws_eq each, rfl, (List.length_map _).trans count, shaped_drawn (by omega) each⟩
  · intro G rng seed
    have allowed : ¬ (k ≤ 0 ∨ vars < k) := by omega
    constructor
    · intro g start fair
      obtain ⟨count, each⟩ := fair.drawClauses (Int.toNat_le_toNat fits) clauses.toNat g
      refine ⟨_, count, each, ?_⟩
      rw [formula, if_neg allowed, start]
      rfl
    · intro e start
      rw [formula, if_neg allowed, start]
      rfl

def twoDraws : List Draw :=
  [⟨[2, 0], [1, 0]⟩, ⟨[0, 1], [0, 0]⟩]

/-- Given draws, drawn ones, and a width that is refused before the seed is. -/
theorem twoDraws_formula_shaped :
    (¬ (0 < (4 : Int) ∧ (4 : Int) ≤ 3) ∧
      formula (Random.rng 0) 3 2 4 (some (-1)) = .error (.width 4 3)) ∧
    0 < (2 : Int) ∧ (2 : Int) ≤ 3 ∧
    (twoDraws.length = Int.toNat 2 ∧ (∀ d ∈ twoDraws, d.Fits 3 2) ∧
      ∃ f, ofDraws 3 twoDraws = ⟨.ok f, []⟩ ∧
        f.clauses = [[⟨.number 3, true⟩, ⟨.number 1, false⟩],
          [⟨.number 1, false⟩, ⟨.number 2, false⟩]] ∧
        f.clauses.length = 2 ∧ Shaped 3 2 f) ∧
    (∃ draws : List Draw, draws.length = 2 ∧ (∀ d ∈ draws, d.Fits 3 2) ∧
      formula (Random.rng 0) 3 2 2 (some 7) = .ok (ofDraws 3 draws)) ∧
    formula (Random.rng 0) 3 2 2 (some (-1)) = .error .negativeSeed := by
  have each : ∀ d ∈ twoDraws, d.Fits 3 2 :=
    List.forall_mem_cons.mpr ⟨⟨⟨rfl, by decide, by decide⟩, rfl, by decide⟩,
      List.forall_mem_singleton.mpr ⟨⟨rfl, by decide, by decide⟩, rfl, by decide⟩⟩
  obtain ⟨given, made⟩ := (formula_shaped 3 2 2).2 (by decide) (by decide)
  obtain ⟨f, built, clauses, count, shaped⟩ := given twoDraws rfl each
  obtain ⟨drawn, -⟩ := made _ (Random.rng 0) (some 7)
  obtain ⟨-, refused⟩ := made _ (Random.rng 0) (some (-1))
  have wide : ¬ (0 < (4 : Int) ∧ (4 : Int) ≤ 3) := by decide
  exact ⟨⟨wide, (formula_shaped 3 2 4).1 wide _ _ (some (-1))⟩, by decide, by decide,
    ⟨rfl, each, f, built, clauses, count, shaped⟩, drawn _ rfl (Random.rng_fair 0),
    refused _ rfl⟩

end RandomClauses
end Clausal
