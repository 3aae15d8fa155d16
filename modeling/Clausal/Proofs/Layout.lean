import Mathlib.Data.Set.List
import Mathlib.Logic.Relation
import Clausal.Proofs.Bookkeeping
import Clausal.Proofs.ClauseLines
import Clausal.Proofs.Readers

namespace Clausal

open Text

/-- A formula of given clauses lists and declares the variables that occur, and nothing else. -/
theorem Formula.ofClauses_none {V : Type} [BEq V] [EquivBEq V] (clauses : List (Clause V)) :
    Formula.ofClauses clauses none =
      ⟨clauses.map distinct, variablesOf clauses, variablesOf clauses⟩ := by
  rw [← variablesOf_map_distinct clauses]
  exact reconcile_of_listed fun _ => variablesOf_contains

namespace Dimacs

def texts (ls : List (List Char)) : List (List Char) :=
  ((ls.map trim).takeWhile (fun line => line ≠ ['%'])).filter counts

/-- Among some lines there is one more that is skipped, or other lines stand behind the one that
ends the formula. -/
inductive Relaid : List (List Char) → List (List Char) → Prop where
  | skipped {line : List Char} (before after : List (List Char))
      (idle : counts (trim line) = false) : Relaid (before ++ after) (before ++ line :: after)
  | behind {stop : List Char} (before after other : List (List Char)) (ends : trim stop = ['%']) :
      Relaid (before ++ stop :: after) (before ++ stop :: other)

section Texts

variable {ls ls' : List (List Char)}

theorem map_fst_significantFrom (number : Nat) (ls : List (List Char)) :
    (significantFrom number ls).map Prod.fst = texts ls := by
  rw [texts, ← List.zipIdx_map_fst number (ls.map trim), List.takeWhile_map, List.filter_map]
  rfl

theorem texts_cons (l : List Char) (ls : List (List Char)) :
    texts (l :: ls) =
      if trim l = ['%'] then [] else if counts (trim l) then trim l :: texts ls else texts ls := by
  by_cases stop : trim l = ['%']
  · simp [texts, stop]
  · by_cases count : counts (trim l) = true <;> simp [texts, stop, count]

theorem texts_append (before : List (List Char)) (h : texts ls = texts ls') :
    texts (before ++ ls) = texts (before ++ ls') := by
  induction before with
  | nil => exact h
  | cons l before ih => simp only [List.cons_append, texts_cons, ih]

theorem texts_of_relaid (h : Relaid ls ls') : texts ls = texts ls' := by
  cases h with
  | skipped before after idle =>
    apply texts_append
    rw [texts_cons, idle]
    split
    · rename_i stop
      rw [stop] at idle
      cases idle
    · rfl
  | behind before after other ends =>
    apply texts_append
    rw [texts_cons, texts_cons, if_pos ends, if_pos ends]

theorem texts_of_eqvGen (h : Relation.EqvGen Relaid ls ls') : texts ls = texts ls' := by
  induction h with
  | rel _ _ step => exact texts_of_relaid step
  | refl => rfl
  | symm _ _ _ ih => exact ih.symm
  | trans _ _ _ _ _ first second => exact first.trans second

theorem parseLines_eq_ok_iff {f : Formula Variable} :
    parseLines ls = .ok f ↔ ∃ clauses, ReadAs ls clauses ∧ f = .ofClauses clauses none := by
  rw [parseLines, map_eq_ok_iff]
  simp only [parseFrom_eq_ok_iff]
  rfl

theorem readAs_iff {clauses : List (Clause Variable)} :
    ReadAs ls clauses ↔ (texts ls).map parseClause = clauses.map .ok := by
  rw [ReadAs, ← map_fst_significantFrom 1, List.map_map]
  rfl

theorem exists_readAs_iff :
    (∃ clauses, ReadAs ls clauses) ↔ ∀ l ∈ significant ls, ∃ c, parseClause l.1 = .ok c := by
  constructor
  · rintro ⟨clauses, read⟩ l hl
    obtain ⟨c, -, accepted⟩ := read.clause_of_mem hl
    exact ⟨c, accepted⟩
  · intro accepted
    rcases readAs_or_error ls with read | ⟨e, -, l, hl, wrong⟩
    · exact read
    · obtain ⟨c, hc⟩ := accepted l hl
      rw [hc] at wrong
      cases wrong

theorem ReadAs.numbers {clauses : List (Clause Variable)} (h : ReadAs ls clauses) :
    ∃ zs : List (List Int), clauses = zs.map (fun z => z.map Literal.signed) := by
  have made : clauses ∈ Set.range (List.map (List.map Literal.signed)) := by
    rw [Set.range_list_map]
    intro c hc
    obtain ⟨l, -, accepted⟩ := h.line_of_mem hc
    obtain ⟨zs, -, -, same⟩ := parseClause_eq_ok_iff.mp accepted
    exact ⟨zs, same.symm⟩
  obtain ⟨zs, same⟩ := made
  exact ⟨zs, same.symm⟩

/-- A line that counts has its place among all lines as its number. -/
theorem place_of_mem_significant {l : List Char × Nat} (h : l ∈ significant ls) :
    ∃ i line, ls[i]? = some line ∧ l = (trim line, i + 1) := by
  have numbered := (List.takeWhile_sublist _).mem (List.mem_filter.mp h).1
  obtain ⟨first, given⟩ := List.mem_zipIdx_iff_le_and_getElem?_sub.mp numbered
  rw [List.getElem?_map] at given
  obtain ⟨line, found, same⟩ := Option.map_eq_some_iff.mp given
  refine ⟨l.2 - 1, line, found, ?_⟩
  rw [same, Nat.sub_add_cancel first]

theorem variablesOf_signed (zs : List (List Int)) :
    variablesOf (zs.map (fun z => z.map Literal.signed)) =
      distinct (zs.flatten.map (fun z => .number z.natAbs)) := by
  rw [variablesOf, ← List.map_flatten, List.map_map]
  rfl

end Texts

/-- Lines are read as a formula exactly if each line that counts is a clause. The formula then has
these clauses, without repeated literals, and lists and declares the sizes of their numbers in the
order in which they come first. Otherwise the first of these lines that is no clause is told, with
its number among all lines. Whatever is skipped may be put in or taken out anywhere, and so may
anything behind the line that ends the formula. -/
theorem parseLines_exact (ls : List (List Char)) :
    ((∃ f, parseLines ls = .ok f) ↔ ∀ l ∈ significant ls, ∃ c, parseClause l.1 = .ok c) ∧
      (∀ f, parseLines ls = .ok f → ∃ zs : List (List Int),
        (significant ls).map (fun l => parseClause l.1) =
          zs.map (fun z => .ok (z.map Literal.signed)) ∧
        f.clauses = zs.map (fun z => distinct (z.map Literal.signed)) ∧
        f.vars = distinct (zs.flatten.map (fun z => .number z.natAbs)) ∧ f.declared = f.vars) ∧
      (∀ e, parseLines ls = .error e ↔ ∃ before i line after,
        significant ls = before ++ (trim line, i + 1) :: after ∧ ls[i]? = some line ∧
        (∀ b ∈ before, ∃ c, parseClause b.1 = .ok c) ∧
        parseClause (trim line) = .error e.fault ∧ e.lineNumber = i + 1 ∧
        e.line = String.ofList (trim line)) ∧
      ∀ ls', Relation.EqvGen Relaid ls ls' →
        ∀ f, parseLines ls' = .ok f ↔ parseLines ls = .ok f := by
  refine ⟨?_, ?_, ?_, ?_⟩
  · simp only [parseLines_eq_ok_iff, ← exists_readAs_iff]
    constructor
    · rintro ⟨_, clauses, read, rfl⟩
      exact ⟨clauses, read⟩
    · rintro ⟨clauses, read⟩
      exact ⟨_, clauses, read, rfl⟩
  · intro f h
    obtain ⟨clauses, read, rfl⟩ := parseLines_eq_ok_iff.mp h
    obtain ⟨zs, rfl⟩ := read.numbers
    refine ⟨zs, ?_, ?_⟩
    · rw [ReadAs, List.map_map] at read
      exact read
    · rw [Formula.ofClauses_none, List.map_map, variablesOf_signed]
      exact ⟨rfl, rfl, rfl⟩
  · intro e
    rw [parseLines, map_eq_error_iff, parseFrom_eq_error_iff]
    constructor
    · rintro ⟨before, l, after, split, fine, wrong⟩
      have counted : l ∈ significant ls := by
        rw [significant, split]
        simp
      obtain ⟨i, line, found, rfl⟩ := place_of_mem_significant counted
      exact ⟨before, i, line, after, split, found, fine, wrong⟩
    · rintro ⟨before, i, line, after, split, -, fine, wrong⟩
      exact ⟨before, _, after, split, fine, wrong⟩
  · intro ls' relaid f
    rw [parseLines_eq_ok_iff, parseLines_eq_ok_iff]
    simp only [readAs_iff, texts_of_eqvGen relaid]

def bare : List (List Char) :=
  ["1 -3 0".toList, "2 2 0".toList, ['%']]

/-- The same lines with a comment between the clauses and an unfinished clause behind the end. -/
def annotated : List (List Char) :=
  ["1 -3 0".toList, " c one".toList, "2 2 0".toList, ['%'], "1 x".toList]

theorem annotated_parseLines_exact :
    Relation.EqvGen Relaid bare annotated ∧
      parseLines annotated = .ok ⟨[[⟨.number 1, true⟩, ⟨.number 3, false⟩], [⟨.number 2, true⟩]],
        [.number 1, .number 3, .number 2], [.number 1, .number 3, .number 2]⟩ ∧
      parseLines ["c".toList, "1 0".toList, " 1 x 0".toList, "2".toList] =
        .error ⟨.notANumber, 3, "1 x 0"⟩ := by
  have commented : Relaid bare ["1 -3 0".toList, " c one".toList, "2 2 0".toList, ['%']] :=
    .skipped ["1 -3 0".toList] _ rfl
  have continued : Relaid ["1 -3 0".toList, " c one".toList, "2 2 0".toList, ['%']] annotated :=
    .behind ["1 -3 0".toList, " c one".toList, "2 2 0".toList] [] ["1 x".toList] rfl
  have relaid : Relation.EqvGen Relaid bare annotated :=
    .trans _ _ _ (.rel _ _ commented) (.rel _ _ continued)
  obtain ⟨-, -, -, unchanged⟩ := parseLines_exact bare
  obtain ⟨-, -, failed, -⟩ :=
    parseLines_exact ["c".toList, "1 0".toList, " 1 x 0".toList, "2".toList]
  refine ⟨relaid, (unchanged annotated relaid _).mpr rfl, (failed _).mpr ?_⟩
  refine ⟨[("1 0".toList, 2)], 2, " 1 x 0".toList, [("2".toList, 4)], rfl, rfl, ?_, rfl, rfl, rfl⟩
  intro b hb
  rw [List.mem_singleton.mp hb]
  exact ⟨_, rfl⟩

end Dimacs
end Clausal
