import Mathlib.Data.List.Sort
import Mathlib.Data.Set.List
import Clausal.Proofs.Renaming
import Clausal.Report

namespace Clausal

def numbers : Renaming Int Variable where
  name := .number
  same _ _ := by
    show Variable.same _ _ = _
    rw [Variable.same]

/-- Clauses about numbers are clauses of numbers under other names. -/
theorem exists_clauses_of_numbers {cs : List (Clause Variable)}
    (h : ∀ c ∈ cs, ∀ l ∈ c, ∃ n, l.var = .number n) :
    ∃ ds : List (Clause Int), cs = numbers.clauses ds := by
  have made : cs ∈ Set.range (List.map (List.map numbers.literal)) := by
    simp only [Set.range_list_map]
    intro c hc l hl
    obtain ⟨n, named⟩ := h c hc l hl
    obtain ⟨var, sign⟩ := l
    cases named
    exact ⟨⟨n, sign⟩, rfl⟩
  obtain ⟨ds, rfl⟩ := made
  exact ⟨ds, rfl⟩

namespace Result

abbrev Below (p q : Int × Bool) : Prop :=
  p.1 < q.1

/-- The pairs in the order in which they are printed. -/
def arrange (pairs : Assignment Int) : Assignment Int :=
  pairs.foldl (fun sorted pair => sorted.orderedInsert Below pair) []

section Order

theorem ascending_orderedInsert {pair : Int × Bool} {pairs : Assignment Int}
    (sorted : pairs.Pairwise Below) (fresh : ∀ p ∈ pairs, p.1 ≠ pair.1) :
    (pairs.orderedInsert Below pair).Pairwise Below := by
  induction pairs with
  | nil => exact List.pairwise_singleton _ _
  | cons p pairs ih =>
    obtain ⟨hp, hpairs⟩ := List.pairwise_cons.mp sorted
    rw [List.orderedInsert_cons]
    by_cases before : Below pair p
    · rw [if_pos before]
      refine List.pairwise_cons.mpr ⟨?_, sorted⟩
      intro q hq
      rcases List.mem_cons.mp hq with rfl | hq
      · exact before
      · exact Int.lt_trans before (hp q hq)
    · rw [if_neg before]
      have behind : Below p pair := by
        have differs : p.1 ≠ pair.1 := fresh p List.mem_cons_self
        have : ¬ pair.1 < p.1 := before
        show p.1 < pair.1
        omega
      refine List.pairwise_cons.mpr ⟨?_, ih hpairs fun q hq => fresh q (List.mem_cons_of_mem _ hq)⟩
      intro q hq
      rcases (List.mem_orderedInsert Below).mp hq with rfl | hq
      · exact behind
      · exact hp q hq

theorem foldl_orderedInsert {pairs sorted : Assignment Int} (ordered : sorted.Pairwise Below)
    (once : ((sorted ++ pairs).map Prod.fst).Nodup) :
    (pairs.foldl (fun sorted pair => sorted.orderedInsert Below pair) sorted).Pairwise Below ∧
      (pairs.foldl (fun sorted pair => sorted.orderedInsert Below pair) sorted).Perm
        (sorted ++ pairs) := by
  induction pairs generalizing sorted with
  | nil => simpa using ordered
  | cons pair pairs ih =>
    have moved : (sorted.orderedInsert Below pair ++ pairs).Perm (sorted ++ pair :: pairs) :=
      ((List.perm_orderedInsert Below pair sorted).append_right pairs).trans
        List.perm_middle.symm
    have fresh : ∀ p ∈ sorted, p.1 ≠ pair.1 := by
      rw [List.map_append, List.nodup_append] at once
      intro p hp
      exact once.2.2 p.1 (List.mem_map_of_mem hp) pair.1 List.mem_cons_self
    have once' : ((sorted.orderedInsert Below pair ++ pairs).map Prod.fst).Nodup :=
      (moved.map Prod.fst).nodup_iff.mpr once
    obtain ⟨ascends, perm⟩ := ih (ascending_orderedInsert ordered fresh) once'
    exact ⟨ascends, perm.trans moved⟩

theorem ascending_arrange {pairs : Assignment Int} (once : (pairs.map Prod.fst).Nodup) :
    (arrange pairs).Pairwise Below :=
  (foldl_orderedInsert .nil once).1

theorem arrange_perm {pairs : Assignment Int} (once : (pairs.map Prod.fst).Nodup) :
    (arrange pairs).Perm pairs :=
  (foldl_orderedInsert .nil once).2

end Order

section Table

theorem insertPair_table (pair : Int × Bool) (pairs : Assignment Int) :
    insertPair (.number pair.1, pair.2) (numbers.table pairs) =
      numbers.table (pairs.orderedInsert Below pair) := by
  induction pairs with
  | nil => rfl
  | cons p pairs ih =>
    rw [Renaming.table_cons, insertPair, List.orderedInsert_cons, ih]
    have less :
        Variable.less? (.number pair.1) (numbers.name p.1) = some (pair.1 < p.1 : Bool) := by
      show Variable.less? (.number pair.1) (.number p.1) = _
      rw [Variable.less?]
    rw [less]
    by_cases before : Below pair p
    · simp only [before, decide_true, ↓reduceIte]
      rfl
    · simp only [before, decide_false, Option.some.injEq, Bool.false_eq_true, ↓reduceIte]
      rfl

theorem ascends_table {pairs : Assignment Int} (sorted : pairs.Pairwise Below) :
    ascends (numbers.table pairs) = true := by
  induction pairs with
  | nil => rfl
  | cons p pairs ih =>
    cases pairs with
    | nil => rfl
    | cons q pairs =>
      obtain ⟨hp, hpairs⟩ := List.pairwise_cons.mp sorted
      have before : p.1 < q.1 := hp q List.mem_cons_self
      have less : Variable.less? (.number q.1) (.number p.1) = some false := by
        rw [Variable.less?]
        simp [Int.not_lt.mpr (Int.le_of_lt before)]
      show (Variable.less? (.number q.1) (.number p.1) = some false &&
        ascends (numbers.table (q :: pairs))) = true
      rw [less, ih hpairs]
      rfl

/-- Numbers can always be ordered. -/
theorem ordered?_table {pairs : Assignment Int} (once : (pairs.map Prod.fst).Nodup) :
    ordered? (numbers.table pairs) = some (numbers.table (arrange pairs)) := by
  have moved (pairs sorted : Assignment Int) :
      (numbers.table pairs).foldl (fun sorted pair => insertPair pair sorted)
        (numbers.table sorted) =
      numbers.table (pairs.foldl (fun sorted pair => sorted.orderedInsert Below pair) sorted) := by
    induction pairs generalizing sorted with
    | nil => rfl
    | cons pair pairs ih =>
      rw [Renaming.table_cons, List.foldl_cons, List.foldl_cons, ← ih, ← insertPair_table]
      rfl
  have sorted := moved pairs []
  rw [ordered?, show ([] : Assignment Variable) = numbers.table [] from rfl, sorted]
  exact if_pos (ascends_table (ascending_arrange once))

end Table

def signed (pair : Int × Bool) : Int :=
  if pair.2 then pair.1 else -pair.1

theorem signedText?_number (pair : Int × Bool) :
    signedText? (.number pair.1, pair.2) = some (Numeral.text (signed pair)) := by
  obtain ⟨n, value⟩ := pair
  cases value with
  | true => rfl
  | false => rfl

def literalsOf (pairs : Assignment Int) : List Int :=
  (arrange pairs).map signed

def modelLine (literals : List Int) : String :=
  "v " ++ " ".intercalate (literals.map Numeral.text ++ ["0"])

/-- A model of numbers is printed as its line, below the status. -/
theorem dimacsText?_table {r : Result Variable} {pairs : Assignment Int}
    (sat : r.status = .satisfiable) (assigns : r.assignment = numbers.table pairs)
    (once : (pairs.map Prod.fst).Nodup) :
    r.dimacsText? = some ("s SATISFIABLE\n" ++ modelLine (literalsOf pairs)) := by
  have texts : (numbers.table (arrange pairs)).mapM signedText? =
      some ((literalsOf pairs).map Numeral.text) := by
    rw [Renaming.table, List.mapM_map]
    have each : (signedText? ∘ fun pair => (numbers.name pair.1, pair.2)) =
        fun pair => pure (Numeral.text (signed pair)) := funext signedText?_number
    rw [each, List.mapM_pure, literalsOf, List.map_map]
    rfl
  rw [dimacsText?, sat, assigns, ordered?_table once]
  show ((numbers.table (arrange pairs)).mapM signedText?).bind _ = _
  rw [texts, modelLine, ← String.append_assoc]
  rfl

end Result
end Clausal
