import Clausal.Proofs.Answers
import Clausal.Proofs.Bookkeeping
import Clausal.Proofs.Exploration

namespace Clausal

variable {V : Type} [BEq V]

namespace Event

/-- What a search reports: the values that it tries, and the units that leave a clause empty. -/
def ofSearch : Event V → Bool
  | emptiedByUnit _ | trying .. | backtracking .. => true
  | _ => false

/-- What is reported around a search: variables that were looked at, and how the search ended. -/
def aroundSearch : Event V → Bool
  | undeclared _ | unknownPolarity _ | filled .. | finished .. => true
  | _ => false

omit [BEq V] in
theorem aroundSearch_of_mem_listing {report : List V → Event V}
    (around : ∀ vars, (report vars).aroundSearch = true) {vars : List V} {e : Event V}
    (h : e ∈ listing report vars) : e.aroundSearch = true := by
  cases vars with
  | nil => cases h
  | cons v vars =>
    rw [List.mem_singleton.mp h]
    exact around _

end Event

namespace Round

variable {ls : List (Literal V)} {f : Formula V} {decided all : Assignment V} {r : Simplified V}

theorem quiet (h : Round ls f decided r) (decides : r.decided = some all) : r.events = [] := by
  induction h with
  | done => rfl
  | known _ _ ih => exact ih decides
  | fixed _ _ _ _ ih => exact ih decides
  | emptied => cases decides

theorem report (h : Round ls f decided r) (gives_up : r.decided = none) :
    ∃ l ∈ ls, r.events = [.emptiedByUnit l] := by
  induction h with
  | done => cases gives_up
  | known _ _ ih =>
    obtain ⟨k, hk, told⟩ := ih gives_up
    exact ⟨k, List.mem_cons_of_mem _ hk, told⟩
  | fixed _ _ _ _ ih =>
    obtain ⟨k, hk, told⟩ := ih gives_up
    exact ⟨k, List.mem_cons_of_mem _ hk, told⟩
  | emptied => exact ⟨_, List.mem_cons_self, rfl⟩

end Round

namespace Formula

variable {f : Formula V} {decided all : Assignment V}

theorem settlePure_quiet {pols : Polarities V}
    (h : (settlePure pols f decided).decided = some all) :
    (settlePure pols f decided).events = [] := by
  fun_induction settlePure pols f decided with
  | case1 => rfl
  | case2 _ _ _ _ _ _ _ _ _ ih => exact ih h
  | case3 => cases h
  | case4 _ _ _ _ _ _ ih => exact ih h

theorem simplify_of_gives_up (h : f.propagateUnits.decided = none) :
    f.simplify = (f.propagateUnits.events, .settled .refuted) := by
  simp only [simplify, h]

variable [EquivBEq V]

/-- After a round that does not give up, nothing is reported before the split. -/
theorem simplify_of_decides {g : Formula V} (listed : f.Listed) (no_empty : [] ∉ f.clauses)
    (decides : f.propagateUnits.decided = some all) (left : f.propagateUnits.formula = g) :
    ∃ more, (g.assignPure g.polarities).decided = some more ∧
      f.simplify = ([], (g.assignPure g.polarities).formula.branch (all ++ more)) := by
  obtain ⟨more, pure, -⟩ := pures_follow_units listed no_empty decides left
  have units : f.propagateUnits.events = [] := f.propagateUnits_round.quiet decides
  have quiet : (g.assignPure g.polarities).events = [] := settlePure_quiet pure
  refine ⟨more, pure, ?_⟩
  simp only [simplify, decides, left, units, pure, quiet, List.append_nil]

/-- Beside what its copy does, a node reports the unit that ends its round of unit propagation, or
nothing. -/
theorem expand_reports (f : Formula V) :
    f.expand.1 = f.copyReport ∨
      ∃ l ∈ unitsOf f.clauses, f.expand.1 = f.copyReport ++ [.emptiedByUnit l] := by
  have examined : f.copy.examine.1 = [] ∨
      ∃ l ∈ unitsOf f.clauses, f.copy.examine.1 = [.emptiedByUnit l] := by
    rw [examine_eq]
    split
    · exact .inl rfl
    rename_i some_clause
    split
    · exact .inl rfl
    cases units : f.copy.propagateUnits.decided with
    | none =>
      right
      rw [simplify_of_gives_up units]
      exact f.copy.propagateUnits_round.report units
    | some all =>
      have no_empty : [] ∉ f.copy.clauses := mt hasEmptyClause_iff.mpr some_clause
      obtain ⟨more, -, node⟩ := simplify_of_decides (listed_copy f) no_empty units rfl
      exact .inl (congrArg Prod.fst node)
  show f.copyReport ++ f.copy.examine.1 = _ ∨
    ∃ l ∈ unitsOf f.clauses, f.copyReport ++ f.copy.examine.1 = _
  obtain quiet | ⟨l, hl, told⟩ := examined
  · exact .inl (by rw [quiet, List.append_nil])
  · exact .inr ⟨l, hl, by rw [told]⟩

end Formula

section Search

variable [EquivBEq V] {budget : Budget} {depth : Nat} {f : Formula V} {stats : Stats}
  {found : Explored V}

/-- The copies below a formula that lists what occurs in it report nothing, since every child lists
what occurs in it as well. -/
theorem Explores.reports (h : Explores budget depth f stats found) (covered : f.Covered) :
    ∀ e ∈ found.events, e.ofSearch = true := by
  have node {f : Formula V} {events : List (Event V)} {n : Node V} (h : f.expand = (events, n))
      (covered : f.Covered) : ∀ e ∈ events, e.ofSearch = true := by
    have reports := f.expand_reports
    rw [h, Formula.copyReport_eq_nil.mpr covered] at reports
    obtain rfl | ⟨l, -, rfl⟩ := reports
    · simp
    · simp [Event.ofSearch]
  induction h with
  | cutOff => simp
  | settled _ expanded => exact node expanded covered
  | first _ expanded _ _ ih =>
    have low := ih (Formula.covered_of_split expanded false)
    exact List.forall_mem_append.mpr ⟨node expanded covered, List.forall_mem_cons.mpr ⟨rfl, low⟩⟩
  | both _ expanded _ _ _ ihLow ihHigh =>
    have low := ihLow (Formula.covered_of_split expanded false)
    have high := ihHigh (Formula.covered_of_split expanded true)
    refine List.forall_mem_append.mpr
      ⟨List.forall_mem_append.mpr ⟨node expanded covered, ?_⟩, ?_⟩
    · exact List.forall_mem_cons.mpr ⟨rfl, low⟩
    · exact List.forall_mem_cons.mpr ⟨rfl, high⟩

namespace Formula

omit [EquivBEq V] in
theorem aroundSearch_copyReport (f : Formula V) : ∀ e ∈ f.copyReport, e.aroundSearch = true :=
  fun _ => Event.aroundSearch_of_mem_listing fun _ => rfl

omit [EquivBEq V] in
theorem aroundSearch_prepare {options : Options} :
    ∀ e ∈ (f.prepare options).2, e.aroundSearch = true :=
  List.forall_mem_append.mpr ⟨f.aroundSearch_copyReport,
    fun _ => Event.aroundSearch_of_mem_listing fun _ => rfl⟩

omit [EquivBEq V] in
theorem events_conclude (f : Formula V) (options : Options) (found : Explored V) :
    ∃ after, (f.conclude options found).events = found.events ++ after ∧
      ∀ e ∈ after, e.aroundSearch = true := by
  have filled {decided : Assignment V} : ∀ e ∈ Event.listing (.filled options.defaultValue)
      (f.unconstrained decided), e.aroundSearch = true :=
    fun _ => Event.aroundSearch_of_mem_listing fun _ => rfl
  unfold conclude
  dsimp only
  split
  · exact ⟨[], (List.append_nil _).symm, by simp⟩
  · exact ⟨_, rfl, by simp [Event.aroundSearch]⟩
  · split
    · exact ⟨_, rfl, filled⟩
    · exact ⟨_, rfl, filled⟩
    · refine ⟨_, List.append_assoc .., List.forall_mem_append.mpr ⟨filled, ?_⟩⟩
      simp [Event.aroundSearch]

theorem events_solve (clock : Nat → Float) (f : Formula V) (options : Options) :
    ∃ before after, (f.solve clock options).events =
        before ++ (f.explored clock options).events ++ after ∧
      ∀ e ∈ before ++ after, e.aroundSearch = true := by
  obtain ⟨after, concluded, around⟩ := f.events_conclude options (f.explored clock options)
  refine ⟨(f.prepare options).2, after, ?_, ?_⟩
  · rw [List.append_assoc, ← concluded]
    rfl
  · exact List.forall_mem_append.mpr ⟨aroundSearch_prepare, around⟩

theorem kind_of_mem_events {clock : Nat → Float} {options : Options} {e : Event V}
    (h : e ∈ (f.solve clock options).events) : e.ofSearch = true ∨ e.aroundSearch = true := by
  obtain ⟨before, after, run, around⟩ := f.events_solve clock options
  obtain ⟨ahead, behind⟩ := List.forall_mem_append.mp around
  rw [run] at h
  rcases List.mem_append.mp h with h | h
  · rcases List.mem_append.mp h with h | h
    · exact .inr (ahead e h)
    · exact .inl ((explores_search _ _ _ _).reports (coherent_prepare f _).listed.covered e h)
  · exact .inr (behind e h)

end Formula
end Search
end Clausal
