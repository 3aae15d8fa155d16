import Clausal.Proofs.Answers

namespace Clausal.Formula

variable {V : Type} [BEq V] [EquivBEq V] {f : Formula V} {decided : Assignment V}

theorem once_complete (options : Options) (once : NoRepeat (decided.map Prod.fst)) :
    NoRepeat ((f.complete options decided).map Prod.fst) := by
  have extended := noRepeat_extend (decided.map Prod.fst)
    (pairwise_distinct (f.declared ++ f.freeVariables))
  rw [distinct_eq_self once] at extended
  rw [map_fst_complete]
  exact extended

theorem contains_complete (options : Options) (occurs : ∀ p ∈ decided, Occurs f.clauses p.1)
    (v : V) :
    ((f.complete options decided).map Prod.fst).contains v = true ↔
      f.declared.contains v = true ∨ Occurs f.clauses v := by
  rw [map_fst_complete, List.contains_append, contains_unconstrained, ← variablesOf_contains]
  show _ ↔ _ ∨ f.freeVariables.contains v = true
  cases hd : (decided.map Prod.fst).contains v with
  | false => simp
  | true =>
    obtain ⟨w, hw, hvw⟩ := List.contains_iff_exists_mem_beq.mp hd
    obtain ⟨p, hp, rfl⟩ := List.mem_map.mp hw
    have known : f.freeVariables.contains v = true := by
      rw [contains_congr hvw]
      exact variablesOf_contains.mpr (occurs p hp)
    simp [known]

/-- A satisfiable answer assigns no variable twice. Unfilled it assigns variables that occur; filled
it goes on with the default value for each other candidate, the declared ones first, and so assigns
exactly what is declared or occurs. -/
theorem assigned_variables {clock : Nat → Float} {options : Options} {r : Result V}
    (h : (f.solve clock options).outcome = .ok r) (hs : r.status = .satisfiable) :
    NoRepeat (r.assignment.map Prod.fst) ∧
      ∃ decided filled : Assignment V,
        (∀ fill, (f.solve clock { options with fillUnconstrained := fill }).outcome =
          .ok { r with assignment := if fill then filled else decided }) ∧
        filled = decided ++ ((distinct (f.declared ++ f.freeVariables)).filter
          (fun v => !(decided.map Prod.fst).contains v)).map (fun v => (v, options.defaultValue)) ∧
        (∀ v ∈ decided.map Prod.fst, Occurs f.clauses v) ∧
        ∀ v, (filled.map Prod.fst).contains v = true ↔
          f.declared.contains v = true ∨ Occurs f.clauses v := by
  obtain ⟨decided, hv, right, hfilled⟩ := decides_of_satisfiable h hs
  refine ⟨?_, decided, f.complete options decided, ?_, rfl, ?_,
    contains_complete options right.occurs⟩
  · rw [hfilled]
    cases options.fillUnconstrained with
    | false => exact right.once
    | true => exact once_complete options right.once
  · intro fill
    have same : f.explored clock { options with fillUnconstrained := fill } =
        f.explored clock options := rfl
    rw [solve_outcome, same]
    unfold unchecked
    rw [hv, ← hs, ← stats_of_outcome h]
    rfl
  · intro v hv
    obtain ⟨p, hp, rfl⟩ := List.mem_map.mp hv
    exact right.occurs p hp

/-- Two variables are decided; the declared one and that of the tautology are filled in. -/
theorem eitherOr_assigned_variables :
    (eitherOr.solve callClock { defaultValue := true }).outcome =
        .ok ⟨.satisfiable, [(1, false), (2, true), (9, true), (3, true)], ⟨2, 1, 0, 1⟩⟩ ∧
      NoRepeat [1, 2, 9, 3] ∧
      ∃ decided filled : Assignment Nat,
        (∀ fill, (eitherOr.solve callClock
            { defaultValue := true, fillUnconstrained := fill }).outcome =
          .ok ⟨.satisfiable, if fill then filled else decided, ⟨2, 1, 0, 1⟩⟩) ∧
        filled = decided ++ ((distinct (eitherOr.declared ++ eitherOr.freeVariables)).filter
          (fun v => !(decided.map Prod.fst).contains v)).map (fun v => (v, true)) ∧
        (∀ v ∈ decided.map Prod.fst, Occurs eitherOr.clauses v) ∧
        ∀ v, (filled.map Prod.fst).contains v = true ↔
          eitherOr.declared.contains v = true ∨ Occurs eitherOr.clauses v :=
  have solved := eq_ok_of_toOption (by decide +kernel)
  ⟨solved, assigned_variables solved rfl⟩

end Clausal.Formula
