import Clausal.CommandLine.Run
import Clausal.Proofs.Answers

namespace Clausal

variable {V : Type} [BEq V]

namespace Formula

variable [EquivBEq V]

/-- What is found among the rows that begin with some pairs: a model that gives the variables their
values in order, or nothing if no valuation that agrees with the pairs is a model. -/
def Found (f : Formula V) (row : Assignment V) (vs : List V) : Option (Assignment V) → Prop
  | some model => row <+: model ∧ model.map Prod.fst = row.map Prod.fst ++ vs ∧
      model.valuation.Satisfies f.clauses
  | none => ∀ a : Valuation V, a.Agrees row → ¬ a.Satisfies f.clauses

theorem Found.widen {f : Formula V} {row model : Assignment V} {v : V} {vs : List V} {b : Bool}
    (h : f.Found (row ++ [(v, b)]) vs (some model)) : f.Found row (v :: vs) (some model) := by
  obtain ⟨begins, names, satisfies⟩ := h
  exact ⟨(List.prefix_append row _).trans begins, by simp [names], satisfies⟩

theorem Found.both {f : Formula V} {row : Assignment V} {v : V} {vs : List V}
    (low : f.Found (row ++ [(v, false)]) vs none) (high : f.Found (row ++ [(v, true)]) vs none) :
    f.Found row (v :: vs) none := by
  intro a agrees
  have next : a.Agrees (row ++ [(v, a.value v)]) :=
    Valuation.agrees_append.mpr
      ⟨agrees, Valuation.agrees_cons.mpr ⟨rfl, by simp [Valuation.Agrees]⟩⟩
  cases hv : a.value v with
  | false => exact low a (hv ▸ next)
  | true => exact high a (hv ▸ next)

/-- The rows are searched to the end: evaluation lacks no value on the way. -/
theorem firstRow_found (f : Formula V) (row : Assignment V) (vs : List V)
    (covers : ∀ v, Occurs f.clauses v → (row.map Prod.fst ++ vs).contains v = true) :
    ∃ found, f.firstRow row vs = .ok found ∧ f.Found row vs found := by
  induction vs generalizing row with
  | nil =>
    -- The row is complete, and its own values stand for every valuation that agrees with it.
    have covers : row.Covers f.clauses := fun v hv => by
      simpa [Assignment.value?_isSome] using covers v hv
    have value := evaluate_of_covers covers
    cases ht : f.clauses.all (fun c => c.any (Literal.trueUnder row)) with
    | true =>
      rw [ht] at value
      refine ⟨some row, by simp only [firstRow, value], List.prefix_rfl, by simp, ?_⟩
      exact (evaluate_eq_true_iff covers).mp value
    | false =>
      rw [ht] at value
      refine ⟨none, by simp only [firstRow, value], ?_⟩
      intro a agrees ha
      rw [(evaluate_eq_true_iff covers).mpr (agrees.satisfies covers ha)] at value
      cases value
  | cons v vs ih =>
    have below (b : Bool) := ih (row ++ [(v, b)]) (by simpa using covers)
    obtain ⟨low, hl, foundLow⟩ := below false
    obtain ⟨high, hh, foundHigh⟩ := below true
    cases low with
    | some model => exact ⟨some model, by simp only [firstRow, hl], foundLow.widen⟩
    | none =>
      refine ⟨high, by simp only [firstRow, hl, hh], ?_⟩
      cases high with
      | some model => exact foundHigh.widen
      | none => exact foundLow.both foundHigh

theorem firstModel_found {f : Formula V} (small : f.freeVariables.length ≤ tableLimit) :
    ∃ found, f.firstModel = .ok found ∧
      (found.isSome = true ↔ ∃ a : Valuation V, a.Satisfies f.clauses) := by
  obtain ⟨found, h, right⟩ := f.firstRow_found [] f.freeVariables
    (fun v hv => variablesOf_contains.mpr hv)
  refine ⟨found, ?_, ?_⟩
  · unfold firstModel
    simp only [if_neg (Nat.not_lt.mpr small), h]
    rfl
  · cases found with
    | some model => exact iff_of_true rfl ⟨model.valuation, right.2.2⟩
    | none => simpa using fun a => right a (by simp [Valuation.Agrees])

end Formula

namespace CommandLine

theorem tableOracle_eq {f : Formula Variable} {found : Option (Assignment Variable)}
    (h : f.firstModel = .ok found) : tableOracle f = .ok found.isSome := by
  rw [tableOracle, h]
  rfl

theorem solve_of_solveUnder {clock : Nat → Float} {settings : Settings} {f : Formula Variable}
    {result : Result Variable} {log : List Record}
    (h : solveUnder clock settings f = (.ok result, log)) :
    ∃ options, settings.check = .ok options ∧ (f.solve clock options).outcome = .ok result := by
  unfold solveUnder at h
  cases hs : settings.check with
  | error e => simp [hs] at h
  | ok options =>
    refine ⟨options, rfl, ?_⟩
    simp only [hs, Prod.mk.injEq] at h
    obtain ⟨h, -⟩ := h
    cases ho : (f.solve clock options).outcome with
    | error e =>
      rw [ho] at h
      cases h
    | ok r =>
      rw [ho] at h
      cases h
      rfl

/-- The table confirms every result on a small formula, also one found within a budget. -/
theorem tableOracle_confirms {f : Formula Variable}
    (small : f.freeVariables.length ≤ Formula.tableLimit) {clock : Nat → Float}
    {settings : Settings} {result : Result Variable} {log : List Record}
    (h : solveUnder clock settings f = (.ok result, log)) :
    tableOracle f = .ok (result.status = .satisfiable : Bool) := by
  obtain ⟨options, -, solved⟩ := solve_of_solveUnder h
  obtain ⟨found, hf, table⟩ := Formula.firstModel_found small
  rw [tableOracle_eq hf]
  refine congrArg Except.ok (Bool.eq_iff_iff.mpr ?_)
  rw [table, decide_eq_true_iff, Formula.satisfiable_iff solved]

theorem checked_of_confirms {request : Request} {oracle : Oracle} {f : Formula Variable}
    {shown : List String} {result : Result Variable} {log : List Record}
    (h : oracle f = .ok (result.status = .satisfiable : Bool)) :
    request.checked oracle f shown result log =
      { request with crossCheck := false }.checked oracle f shown result log := by
  cases hc : request.crossCheck with
  | false => simp [Request.checked, hc, Request.resultText]
  | true => simp [Request.checked, hc, h, Request.resultText]

/-- Without a budget solving and the table both come to an end and agree, and whatever the budget is
a call that compares the two answers as it does without the comparison. -/
theorem solver_agrees_with_table [EquivBEq V] :
    (∀ (clock : Nat → Float) (f : Formula V) (options : Options),
      f.freeVariables.length ≤ Formula.tableLimit →
      options.maxDecisions = none → options.timeout = none →
      ∃ r found, (f.solve clock options).outcome = .ok r ∧ f.firstModel = .ok found ∧
        (r.status = .satisfiable ↔ found.isSome = true)) ∧
    ∀ (clock : Nat → Float) (request : Request) (f : Formula Variable),
      f.freeVariables.length ≤ Formula.tableLimit →
      request.runSingle clock tableOracle f =
        { request with crossCheck := false }.runSingle clock tableOracle f := by
  constructor
  · intro clock f options small decisions time
    obtain ⟨r, solved⟩ : ∃ r, (f.solve clock options).outcome = .ok r :=
      Formula.exists_result decisions time
    obtain ⟨found, hf, table⟩ := Formula.firstModel_found small
    exact ⟨r, found, solved, hf, (Formula.satisfiable_iff solved).trans table.symm⟩
  · intro clock request f small
    have settings : { request with crossCheck := false }.settings = request.settings := rfl
    unfold Request.runSingle
    rw [settings]
    cases hs : request.settings with
    | error b => rfl
    | ok settings =>
      dsimp only
      cases hu : solveUnder clock settings f with
      | mk outcome log =>
        cases outcome with
        | error message => rfl
        | ok result => exact checked_of_confirms (tableOracle_confirms small hu)

def mixed : Formula Variable where
  clauses := [[⟨.text "a", true⟩, ⟨.truth true, false⟩], [⟨.number 1, true⟩]]
  vars := []
  declared := []

theorem mixed_solver_agrees_with_table :
    mixed.freeVariables.length ≤ Formula.tableLimit ∧
      (∃ r found, (mixed.solve callClock {}).outcome = .ok r ∧ mixed.firstModel = .ok found ∧
        (r.status = .satisfiable ↔ found.isSome = true)) ∧
      ({ crossCheck := true } : Request).runSingle callClock tableOracle mixed =
        ({ crossCheck := false } : Request).runSingle callClock tableOracle mixed := by
  have small : mixed.freeVariables.length ≤ Formula.tableLimit := by decide
  exact ⟨small, solver_agrees_with_table.1 callClock mixed {} small rfl rfl,
    (solver_agrees_with_table (V := Variable)).2 callClock { crossCheck := true } mixed small⟩

end CommandLine
end Clausal
