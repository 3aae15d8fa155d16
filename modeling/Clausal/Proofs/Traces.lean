import Clausal.Proofs.Reports

namespace Clausal

variable {V : Type}

/-- A value tried for a variable: false when the search splits on it, true when it comes back. -/
structure Attempt (V : Type) where
  depth : Nat
  var : V
  value : Bool
  deriving DecidableEq

def Event.attempt? : Event V → Option (Attempt V)
  | trying depth v => some ⟨depth, v, false⟩
  | backtracking depth v => some ⟨depth, v, true⟩
  | _ => none

def attemptsOf (events : List (Event V)) : List (Attempt V) :=
  events.filterMap Event.attempt?

/-- The reports that a log shows when it is asked for more the given number of times. -/
def Run.shown (run : Run V) (verbosity : Int) : List (Event V) :=
  run.events.filter (fun e => (Level.ofVerbosity verbosity).shows e.level)

/-- What the log of a run tells of its attempts when it is asked for more twice. -/
def Run.trace (run : Run V) : List (Attempt V) :=
  attemptsOf (run.shown 2)

/-- Every attempt of a true value has before it the attempt of the false one, made for the same
variable at the same depth, and only deeper attempts lie between the two. -/
def Nested (trace : List (Attempt V)) : Prop :=
  ∀ before depth v after, trace = before ++ ⟨depth, v, true⟩ :: after →
    ∃ earlier between, before = earlier ++ ⟨depth, v, false⟩ :: between ∧
      ∀ a ∈ between, depth < a.depth

/-- The trace of a walk through a tree that begins at the given depth. -/
inductive Walks : Nat → List (Attempt V) → Prop where
  | ends {depth : Nat} : Walks depth []
  | first {depth : Nat} {low : List (Attempt V)} (v : V) (left : Walks (depth + 1) low) :
      Walks depth (⟨depth, v, false⟩ :: low)
  | both {depth : Nat} {low high : List (Attempt V)} (v : V) (left : Walks (depth + 1) low)
      (right : Walks (depth + 1) high) :
      Walks depth (⟨depth, v, false⟩ :: low ++ ⟨depth, v, true⟩ :: high)

theorem Nested.append {xs ys : List (Attempt V)} (hx : Nested xs) (hy : Nested ys) :
    Nested (xs ++ ys) := by
  intro before depth v after split
  obtain ⟨more, rfl, later⟩ | ⟨rest, rfl, later⟩ := List.append_eq_append_iff.mp split
  · obtain ⟨earlier, between, rfl, deeper⟩ := hy more depth v after later
    exact ⟨xs ++ earlier, between, by simp, deeper⟩
  · cases rest with
    | nil =>
      obtain ⟨earlier, between, empty, -⟩ := hy [] depth v after later.symm
      simp at empty
    | cons a rest =>
      obtain ⟨rfl, -⟩ := List.cons.inj later
      exact hx before depth v rest rfl

/-- A decision at which only deeper attempts lie open may be taken back. -/
theorem Nested.close {low : List (Attempt V)} {depth : Nat} {v : V}
    (h : Nested (⟨depth, v, false⟩ :: low)) (deeper : ∀ a ∈ low, depth < a.depth) :
    Nested (⟨depth, v, false⟩ :: low ++ [⟨depth, v, true⟩]) := by
  intro before d w after split
  rcases List.eq_nil_or_concat after with rfl | ⟨rest, a, rfl⟩
  · obtain ⟨rfl, last⟩ := List.append_inj' split rfl
    cases last
    exact ⟨[], low, rfl, deeper⟩
  · have inside : ⟨depth, v, false⟩ :: low = before ++ ⟨d, w, true⟩ :: rest := by
      rw [List.concat_eq_append, ← List.cons_append, ← List.append_assoc] at split
      exact (List.append_inj' split rfl).1
    exact h before d w rest inside

namespace Walks

variable {depth : Nat} {trace : List (Attempt V)}

theorem depth_le (h : Walks depth trace) : ∀ a ∈ trace, depth ≤ a.depth := by
  induction h with
  | ends => simp
  | first v _ ih =>
    exact List.forall_mem_cons.mpr ⟨Nat.le_refl _, fun a ha => Nat.le_of_succ_le (ih a ha)⟩
  | both v _ _ ihLow ihHigh =>
    refine List.forall_mem_append.mpr ⟨?_, ?_⟩
    · exact List.forall_mem_cons.mpr ⟨Nat.le_refl _, fun a ha => Nat.le_of_succ_le (ihLow a ha)⟩
    · exact List.forall_mem_cons.mpr ⟨Nat.le_refl _, fun a ha => Nat.le_of_succ_le (ihHigh a ha)⟩

theorem nested (h : Walks depth trace) : Nested trace := by
  have opened (d : Nat) (v : V) {low : List (Attempt V)} (hl : Nested low) :
      Nested (⟨d, v, false⟩ :: low) := by
    have alone : Nested [(⟨d, v, false⟩ : Attempt V)] := by simp [Nested, List.cons_eq_append_iff]
    exact alone.append hl
  induction h with
  | ends => simp [Nested]
  | first v _ ih => exact opened _ v ih
  | @both depth low high v left _ ihLow ihHigh =>
    have closed := (opened depth v ihLow).close left.depth_le
    simpa using closed.append ihHigh

end Walks

namespace Stats

def attempt (s : Stats) (a : Attempt V) : Stats :=
  (if a.value then s.backtrack else s.decide).enter (a.depth + 1)

theorem decisions_attempt (s : Stats) (a : Attempt V) :
    (s.attempt a).decisions = s.decisions + if !a.value then 1 else 0 := by
  unfold attempt
  cases a.value <;> rfl

theorem backtracks_attempt (s : Stats) (a : Attempt V) :
    (s.attempt a).backtracks = s.backtracks + if a.value then 1 else 0 := by
  unfold attempt
  cases a.value <;> rfl

theorem maxDepth_attempt (s : Stats) (a : Attempt V) :
    (s.attempt a).maxDepth = max s.maxDepth (a.depth + 1) := by
  unfold attempt
  cases a.value <;> rfl

theorem foldl_attempt_counts {counter : Stats → Nat} {p : Attempt V → Bool}
    (step : ∀ s a, counter (attempt s a) = counter s + if p a then 1 else 0) (s : Stats)
    (trace : List (Attempt V)) :
    counter (trace.foldl attempt s) = counter s + trace.countP p := by
  induction trace generalizing s with
  | nil => rfl
  | cons a trace ih =>
    rw [List.foldl_cons, ih, List.countP_cons, step]
    omega

/-- Every attempt leads one level further down than its depth. -/
theorem maxDepth_foldl_attempt (s : Stats) (trace : List (Attempt V)) :
    (trace.foldl attempt s).maxDepth =
      max s.maxDepth ((trace.map Attempt.depth).max?.elim 0 (· + 1)) := by
  induction trace generalizing s with
  | nil => simp
  | cons a trace ih =>
    rw [List.foldl_cons, ih, maxDepth_attempt, List.map_cons, List.max?_cons]
    cases (trace.map Attempt.depth).max? <;> simp

end Stats

section Silence

theorem attemptsOf_append (xs ys : List (Event V)) :
    attemptsOf (xs ++ ys) = attemptsOf xs ++ attemptsOf ys :=
  List.filterMap_append

theorem attemptsOf_around {events : List (Event V)} (around : ∀ e ∈ events, e.aroundSearch = true) :
    attemptsOf events = [] := by
  apply List.filterMap_eq_nil_iff.mpr
  intro e he
  have kind := around e he
  cases e with
  | trying => cases kind
  | backtracking => cases kind
  | _ => rfl

variable [BEq V] [EquivBEq V]

namespace Formula

theorem attemptsOf_expand {f : Formula V} {events : List (Event V)} {node : Node V}
    (h : f.expand = (events, node)) : attemptsOf events = [] := by
  have copied : attemptsOf f.copyReport = [] := attemptsOf_around f.aroundSearch_copyReport
  have reports := f.expand_reports
  rw [h] at reports
  obtain rfl | ⟨l, -, rfl⟩ := reports
  · exact copied
  · rw [attemptsOf_append, copied]
    rfl

theorem attemptsOf_first {f : Formula V} {events : List (Event V)} {node : Node V}
    (h : f.expand = (events, node)) (depth : Nat) (v : V) (low : List (Event V)) :
    attemptsOf (events ++ .trying depth v :: low) = ⟨depth, v, false⟩ :: attemptsOf low := by
  rw [attemptsOf_append, attemptsOf_expand h]
  rfl

theorem attemptsOf_both {f : Formula V} {events : List (Event V)} {node : Node V}
    (h : f.expand = (events, node)) (depth : Nat) (v : V) (low high : List (Event V)) :
    attemptsOf ((events ++ .trying depth v :: low) ++ .backtracking depth v :: high) =
      ⟨depth, v, false⟩ :: attemptsOf low ++ ⟨depth, v, true⟩ :: attemptsOf high := by
  rw [attemptsOf_append, attemptsOf_first h]
  rfl

end Formula
end Silence

namespace Explores

variable [BEq V] [EquivBEq V] {budget : Budget} {depth : Nat} {f : Formula V} {stats : Stats}
  {found : Explored V}

theorem walks (h : Explores budget depth f stats found) :
    Walks depth (attemptsOf found.events) := by
  induction h with
  | cutOff => exact .ends
  | settled _ node =>
    rw [Formula.attemptsOf_expand node]
    exact .ends
  | first _ node _ _ ih =>
    rw [Formula.attemptsOf_first node]
    exact .first _ ih
  | both _ node _ _ _ ihLow ihHigh =>
    rw [Formula.attemptsOf_both node]
    exact .both _ ihLow ihHigh

/-- A search that comes to an answer has counted what its trace tells, and its own call. -/
theorem stats_eq (h : Explores budget depth f stats found)
    (answers : ∀ e, found.verdict ≠ .failed e) :
    found.stats = (attemptsOf found.events).foldl Stats.attempt (stats.enter depth) := by
  induction h with
  | cutOff => exact absurd rfl (answers _)
  | settled _ node =>
    rw [Formula.attemptsOf_expand node]
    rfl
  | first _ node _ _ ih =>
    rw [Formula.attemptsOf_first node]
    exact ih fun e he => answers e (Verdict.after_eq_failed.mpr he)
  | both _ node _ refuted _ ihLow ihHigh =>
    have low := ihLow fun e he => by cases refuted.symm.trans he
    have high := ihHigh fun e he => answers e (Verdict.after_eq_failed.mpr he)
    rw [Formula.attemptsOf_both node, List.foldl_append, List.foldl_cons, List.foldl_cons, high,
      low]
    rfl

end Explores

theorem Run.shown_two (run : Run V) : run.shown 2 = run.events := by
  refine List.filter_eq_self.mpr fun e _ => ?_
  cases e <;> rfl

namespace Formula

variable [BEq V] [EquivBEq V]

theorem attemptsOf_solve (clock : Nat → Float) (f : Formula V) (options : Options) :
    attemptsOf (f.solve clock options).events =
      attemptsOf (f.explored clock options).events := by
  obtain ⟨before, after, run, around⟩ := f.events_solve clock options
  obtain ⟨before_silent, after_silent⟩ := List.forall_mem_append.mp around
  rw [run, attemptsOf_append, attemptsOf_append, attemptsOf_around before_silent,
    attemptsOf_around after_silent, List.nil_append, List.append_nil]

/-- The full log of a run that returns tells its decisions, its backtracks and how deep it went, and
shows a search that takes back its open decisions from the last one on. -/
theorem log_traces_search {clock : Nat → Float} {f : Formula V} {options : Options} {r : Result V}
    (h : (f.solve clock options).outcome = .ok r) :
    (f.solve clock options).trace.countP (fun a => !a.value) = r.stats.decisions ∧
    (f.solve clock options).trace.countP (fun a => a.value) = r.stats.backtracks ∧
    r.stats.maxDepth = ((f.solve clock options).trace.map Attempt.depth).max?.elim 0 (· + 1) ∧
    Nested (f.solve clock options).trace := by
  have search : Explores (options.budget clock) 0 (f.prepare options).1 {}
      (f.explored clock options) := explores_search _ _ _ _
  have answers : ∀ e, (f.explored clock options).verdict ≠ .failed e := by
    intro e he
    rw [outcome_error_iff.mpr he] at h
    cases h
  have trace : (f.solve clock options).trace = attemptsOf (f.explored clock options).events := by
    rw [Run.trace, Run.shown_two, attemptsOf_solve]
  have stats : r.stats = (f.solve clock options).trace.foldl Stats.attempt (Stats.enter {} 0) := by
    rw [stats_of_outcome h, search.stats_eq answers, trace]
  refine ⟨?_, ?_, ?_, ?_⟩
  · rw [stats, Stats.foldl_attempt_counts Stats.decisions_attempt]
    exact (Nat.zero_add _).symm
  · rw [stats, Stats.foldl_attempt_counts Stats.backtracks_attempt]
    exact (Nat.zero_add _).symm
  · rw [stats, Stats.maxDepth_foldl_attempt]
    exact Nat.zero_max _
  · rw [trace]
    exact search.walks.nested

theorem contrary_log_traces_search :
    (contrary.solve callClock { dropTautologies := false }).outcome =
        .ok ⟨.unsatisfiable, [], ⟨7, 3, 3, 2⟩⟩ ∧
      (contrary.solve callClock { dropTautologies := false }).trace =
        [⟨0, 2, false⟩, ⟨1, 1, false⟩, ⟨1, 1, true⟩, ⟨0, 2, true⟩, ⟨1, 1, false⟩, ⟨1, 1, true⟩] ∧
      (contrary.solve callClock { dropTautologies := false }).trace.countP (fun a => !a.value) = 3 ∧
      (contrary.solve callClock { dropTautologies := false }).trace.countP (fun a => a.value) = 3 ∧
      2 = ((contrary.solve callClock { dropTautologies := false }).trace.map
        Attempt.depth).max?.elim 0 (· + 1) ∧
      Nested (contrary.solve callClock { dropTautologies := false }).trace :=
  ⟨contrary_outcome, by decide +kernel, log_traces_search contrary_outcome⟩

end Formula
end Clausal
