import Mathlib.Data.Bool.Basic
import Mathlib.Data.List.Lex
import Clausal.Proofs.TruthTable

namespace Clausal

variable {V : Type} [BEq V]

namespace Formula

/-- The values of a model are the least among those of all models, in the order of the variables. -/
structure IsLeastModel (f : Formula V) (a : Valuation V) : Prop where
  satisfies : a.Satisfies f.clauses
  least : ∀ b : Valuation V, b.Satisfies f.clauses →
    f.freeVariables.map a.value ≤ f.freeVariables.map b.value

end Formula

theorem Valuation.row_congr {a b : Valuation V} {vs : List V}
    (same : vs.map a.value = vs.map b.value) : a.row vs = b.row vs :=
  List.map_congr_left fun v hv => by rw [List.map_inj_left.mp same v hv]

variable [EquivBEq V]

theorem Assignment.row_valuation {pairs : Assignment V} (once : NoRepeat (pairs.map Prod.fst)) :
    pairs.valuation.row (pairs.map Prod.fst) = pairs := by
  rw [Valuation.row, List.map_map]
  refine (List.map_congr_left fun p hp => ?_).trans (List.map_id pairs)
  exact Prod.ext rfl (Assignment.agrees_valuation once p hp)

namespace Formula

omit [BEq V] [EquivBEq V] in
theorem below_of_false_first {row model : Assignment V} {v : V} {values : List Bool}
    (begins : row ++ [(v, false)] <+: model) :
    model.map Prod.snd ≤ row.map Prod.snd ++ true :: values := by
  obtain ⟨rest, rfl⟩ := begins
  have next : List.Lex (· < ·) (false :: rest.map Prod.snd) (true :: values) :=
    .rel Bool.false_lt_true
  refine le_of_lt ?_
  simpa using List.Lex.append_left (· < ·) next (row.map Prod.snd)

/-- The first row is below every model that begins like it. -/
theorem firstRow_least {f : Formula V} {row model : Assignment V} {vs : List V}
    (covers : ∀ v, Occurs f.clauses v → (row.map Prod.fst ++ vs).contains v = true)
    (h : f.firstRow row vs = .ok (some model)) {b : Valuation V} (agrees : b.Agrees row)
    (satisfies : b.Satisfies f.clauses) :
    model.map Prod.snd ≤ row.map Prod.snd ++ vs.map b.value := by
  induction vs generalizing row with
  | nil =>
    obtain ⟨found, hf, right⟩ := f.firstRow_found row [] covers
    cases hf.symm.trans h
    obtain ⟨⟨rest, rfl⟩, names, -⟩ := right
    have : rest = [] := by simpa using names
    simp [this]
  | cons v vs ih =>
    have half (value : Bool) : ∀ w, Occurs f.clauses w →
        ((row ++ [(v, value)]).map Prod.fst ++ vs).contains w = true := by
      simpa using covers
    have next : b.Agrees (row ++ [(v, b.value v)]) :=
      Valuation.agrees_append.mpr ⟨agrees, by simp [Valuation.Agrees]⟩
    obtain ⟨low, hl, foundLow⟩ := f.firstRow_found (row ++ [(v, false)]) vs (half false)
    cases low with
    | some first =>
      simp only [firstRow, hl, Except.ok.injEq, Option.some.injEq] at h
      subst h
      cases hb : b.value v with
      | false => simpa [hb] using ih (half false) hl (hb ▸ next)
      | true => simpa [hb] using below_of_false_first foundLow.1
    | none =>
      simp only [firstRow, hl] at h
      cases hb : b.value v with
      | false => exact absurd satisfies (foundLow b (hb ▸ next))
      | true => simpa [hb] using ih (half true) h (hb ▸ next)

theorem exists_evaluate_row (f : Formula V) {values : List Bool}
    (full : values.length = f.freeVariables.length) :
    ∃ b, f.evaluate (f.freeVariables.zip values) = .ok b := by
  have covers : Assignment.Covers (f.freeVariables.zip values) f.clauses := by
    intro v hv
    rw [Assignment.value?_isSome, List.map_fst_zip (Nat.le_of_eq full.symm)]
    exact variablesOf_contains.mpr hv
  exact ⟨_, evaluate_of_covers covers⟩

/-- What the table of a small formula answers: nothing without a model, and else a least one. -/
theorem firstModel_cases {f : Formula V} (small : f.freeVariables.length ≤ tableLimit) :
    (f.firstModel = .ok none ∧ ∀ a : Valuation V, ¬ a.Satisfies f.clauses) ∨
      ∃ a, f.IsLeastModel a ∧ f.firstModel = .ok (some (a.row f.freeVariables)) := by
  have covers : ∀ v, Occurs f.clauses v →
      (([] : Assignment V).map Prod.fst ++ f.freeVariables).contains v = true :=
    fun v hv => variablesOf_contains.mpr hv
  obtain ⟨found, hf, right⟩ := f.firstRow_found [] f.freeVariables covers
  have table : f.firstModel = .ok found := by
    simp only [firstModel, if_neg (Nat.not_lt.mpr small), hf]
    rfl
  cases found with
  | none => exact .inl ⟨table, fun a => right a (by simp [Valuation.Agrees])⟩
  | some model =>
    obtain ⟨-, names, satisfies⟩ := right
    replace names : model.map Prod.fst = f.freeVariables := names
    have once : NoRepeat (model.map Prod.fst) := names ▸ pairwise_distinct _
    have row : model.valuation.row f.freeVariables = model := by
      rw [← names, Assignment.row_valuation once]
    have values : f.freeVariables.map model.valuation.value = model.map Prod.snd := by
      conv => rhs; rw [← row]
      simp [Valuation.row, Function.comp_def]
    refine .inr ⟨model.valuation, ⟨satisfies, ?_⟩, by rwa [row]⟩
    intro b hb
    rw [values]
    exact firstRow_least covers hf (by simp [Valuation.Agrees]) hb

/-- A formula of at most 20 variables has a table without gaps, which answers with the least model
exactly if there is one; any larger formula is turned away. -/
theorem table_exact (f : Formula V) :
    (∀ values : List Bool, values.length = f.freeVariables.length →
      ∃ b, f.evaluate (f.freeVariables.zip values) = .ok b) ∧
    (f.freeVariables.length ≤ 20 →
      (f.firstModel = .ok none ↔ ∀ a : Valuation V, ¬ a.Satisfies f.clauses) ∧
      (∀ model, f.firstModel = .ok (some model) ↔
        ∃ a, f.IsLeastModel a ∧ model = a.row f.freeVariables) ∧
      ∃ found, f.firstModel = .ok found) ∧
    (20 < f.freeVariables.length → f.firstModel = .error (.tooLarge f.freeVariables.length)) := by
  refine ⟨fun _ => f.exists_evaluate_row, fun small => ?_, fun large => if_pos large⟩
  obtain ⟨table, unsat⟩ | ⟨a, ha, table⟩ := firstModel_cases small
  · refine ⟨iff_of_true table unsat, fun model => iff_of_false ?_ ?_, none, table⟩
    · intro h
      cases table.symm.trans h
    · rintro ⟨a, ha, -⟩
      exact unsat a ha.satisfies
  · refine ⟨iff_of_false ?_ ?_, fun model => ?_, _, table⟩
    · intro h
      cases table.symm.trans h
    · intro unsat
      exact unsat a ha.satisfies
    · rw [table, Except.ok.injEq, Option.some.injEq]
      constructor
      · rintro rfl
        exact ⟨a, ha, rfl⟩
      · rintro ⟨b, hb, rfl⟩
        exact Valuation.row_congr
          (le_antisymm (ha.least b hb.satisfies) (hb.least a ha.satisfies))

def oversized : Formula Nat where
  clauses := [(List.range 21).map (fun v => ⟨v, true⟩)]
  vars := []
  declared := []

theorem eitherOr_table_exact :
    (eitherOr.freeVariables.length ≤ 20 ∧
      eitherOr.firstModel = .ok (some [(1, false), (2, true), (3, false)]) ∧
      ∃ a, eitherOr.IsLeastModel a ∧
        [(1, false), (2, true), (3, false)] = a.row eitherOr.freeVariables) ∧
    (contrary.freeVariables.length ≤ 20 ∧ contrary.firstModel = .ok none ∧
      ∀ a : Valuation Nat, ¬ a.Satisfies contrary.clauses) ∧
    ([true, false].length = contrary.freeVariables.length ∧
      ∃ b, contrary.evaluate (contrary.freeVariables.zip [true, false]) = .ok b) ∧
    20 < oversized.freeVariables.length ∧
      oversized.firstModel = .error (.tooLarge oversized.freeVariables.length) := by
  have found : eitherOr.firstModel = .ok (some [(1, false), (2, true), (3, false)]) :=
    eq_ok_of_toOption (by decide)
  have nothing : contrary.firstModel = .ok none := eq_ok_of_toOption (by decide)
  have large : 20 < oversized.freeVariables.length := by decide +kernel
  refine ⟨⟨by decide, found, ?_⟩, ⟨by decide, nothing, ?_⟩, ⟨rfl, ?_⟩, large, ?_⟩
  · exact ((table_exact eitherOr).2.1 (by decide)).2.1 _ |>.mp found
  · exact ((table_exact contrary).2.1 (by decide)).1.mp nothing
  · exact (table_exact contrary).1 [true, false] rfl
  · exact (table_exact oversized).2.2 large

end Formula
end Clausal
