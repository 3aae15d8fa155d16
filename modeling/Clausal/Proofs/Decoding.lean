import Mathlib.Data.Set.List
import Clausal.Proofs.Layout

namespace Clausal

open Text Dimacs

/-- Distinct positive numbers of no more digits than the limit are assigned. -/
structure Assignment.Plain (pairs : Assignment Variable) : Prop where
  once : NoRepeat (pairs.map Prod.fst)
  writable : ∀ p ∈ pairs, ∃ n, Writable n ∧ p.1 = .number n

section Numbers

theorem once_table_iff {ints : Assignment Int} :
    NoRepeat ((numbers.table ints).map Prod.fst) ↔ (ints.map Prod.fst).Nodup := by
  have differ (m n : Int) : (numbers.name m == numbers.name n) = false ↔ m ≠ n := by
    rw [numbers.same, beq_eq_false_iff_ne]
  rw [numbers.map_fst_table, NoRepeat, List.pairwise_map]
  simp only [differ]
  rfl

theorem Assignment.Plain.renamed {pairs : Assignment Variable} (h : pairs.Plain) :
    ∃ ints : Assignment Int, pairs = numbers.table ints ∧ (ints.map Prod.fst).Nodup ∧
      ∀ p ∈ ints, Writable p.1 := by
  have made : pairs ∈ Set.range (List.map fun p : Int × Bool => (numbers.name p.1, p.2)) := by
    rw [Set.range_list_map]
    rintro ⟨v, value⟩ hp
    obtain ⟨n, -, same⟩ := h.writable _ hp
    cases same
    exact ⟨(n, value), rfl⟩
  obtain ⟨ints, rfl⟩ := made
  refine ⟨ints, rfl, once_table_iff.mp h.once, ?_⟩
  intro p hp
  obtain ⟨n, writable, same⟩ := h.writable _ (List.mem_map_of_mem hp)
  cases same
  exact writable

theorem Assignment.plain_table {ints : Assignment Int} (once : (ints.map Prod.fst).Nodup)
    (writable : ∀ p ∈ ints, Writable p.1) : Assignment.Plain (numbers.table ints) := by
  refine ⟨once_table_iff.mpr once, ?_⟩
  intro p hp
  obtain ⟨q, hq, rfl⟩ := List.mem_map.mp hp
  exact ⟨q.1, writable q hq, rfl⟩

end Numbers

section Text

/-- The literals of a model line with the zero behind them. -/
def modelText (literals : List Int) : String :=
  " ".intercalate (literals.map Numeral.text ++ ["0"])

theorem toList_modelText (literals : List Int) :
    (modelText literals).toList = [' '].intercalate (literals.map Numeral.write ++ [['0']]) := by
  rw [modelText, String.toList_intercalate]
  congr 1
  simp [Numeral.text, Function.comp_def]

theorem modelText_words (literals : List Int) :
    ∀ w ∈ literals.map Numeral.write ++ [['0']], w ≠ [] ∧ ∀ c ∈ w, isBlank c = false := by
  intro w hw
  rcases List.mem_append.mp hw with hw | hw
  · obtain ⟨z, -, rfl⟩ := List.mem_map.mp hw
    exact Numeral.write_word z
  · rw [List.mem_singleton.mp hw]
    refine ⟨List.cons_ne_nil _ _, ?_⟩
    intro c hc
    rw [List.mem_singleton.mp hc]
    rfl

theorem newline_not_mem_modelText (literals : List Int) : '\n' ∉ (modelText literals).toList := by
  intro h
  rw [toList_modelText] at h
  rcases mem_intercalate h with space | ⟨w, hw, inside⟩
  · cases List.mem_singleton.mp space
  · cases (modelText_words literals w hw).2 _ inside

variable {ints : Assignment Int}

def printedClause (ints : Assignment Int) : Clause Int :=
  (Result.arrange ints).map (fun p => ⟨p.1, p.2⟩)

theorem parseClause_modelText (once : (ints.map Prod.fst).Nodup)
    (writable : ∀ p ∈ ints, Writable p.1) :
    parseClause (modelText (Result.literalsOf ints)).toList =
      .ok (numbers.clause (printedClause ints)) := by
  apply parseClause_written
  · intro l hl
    obtain ⟨p, hp, rfl⟩ := List.mem_map.mp hl
    exact writable p ((Result.arrange_perm once).mem_iff.mp hp)
  · have words : written (printedClause ints) =
        (Result.literalsOf ints).map Numeral.write ++ [['0']] := by
      simp [written, printedClause, Result.literalsOf, Function.comp_def]
    rw [words, toList_modelText]
    exact spaced_intercalate (modelText_words _)

theorem ascending_printedClause (once : (ints.map Prod.fst).Nodup) :
    (numbers.clause (printedClause ints)).Pairwise
      (fun k l => k.var.less? l.var = some true) := by
  rw [Renaming.clause, printedClause, List.map_map, List.pairwise_map]
  refine (Result.ascending_arrange once).imp ?_
  intro p q below
  have less : Variable.less? (.number p.1) (.number q.1) = some (decide (p.1 < q.1)) := by
    rw [Variable.less?]
  exact less.trans (congrArg some (decide_eq_true below))

theorem printedClause_perm (once : (ints.map Prod.fst).Nodup) :
    ((numbers.clause (printedClause ints)).map fun l => (l.var, l.sign)).Perm
      (numbers.table ints) := by
  rw [Renaming.clause, printedClause, List.map_map, List.map_map]
  exact (Result.arrange_perm once).map _

end Text

/-- The printed form of a plain model is a text that is read as its literals. -/
theorem Result.dimacsText?_read {r : Result Variable} (sat : r.status = .satisfiable)
    (plain : r.assignment.Plain) :
    ∃ t d, r.dimacsText? = some ("s SATISFIABLE\nv " ++ t) ∧ '\n' ∉ t.toList ∧
      parseClause t.toList = .ok d ∧ d.Pairwise (fun k l => k.var.less? l.var = some true) ∧
      (d.map fun l => (l.var, l.sign)).Perm r.assignment := by
  obtain ⟨ints, assigns, once, writable⟩ := plain.renamed
  refine ⟨modelText (literalsOf ints), numbers.clause (printedClause ints), ?_,
    newline_not_mem_modelText _, parseClause_modelText once writable,
    ascending_printedClause once, ?_⟩
  · rw [dimacsText?_table sat assigns once, modelLine, ← String.append_assoc]
    rfl
  · rw [assigns]
    exact printedClause_perm once

section Files

theorem writable_of_parseClause {line : List Char} {c : Clause Variable}
    (h : parseClause line = .ok c) {l : Literal Variable} (hl : l ∈ c) :
    ∃ n, Writable n ∧ l.var = .number n := by
  obtain ⟨zs, ⟨ws, -, denote⟩, nonzero, rfl⟩ := parseClause_eq_ok_iff.mp h
  obtain ⟨z, hz, rfl⟩ := List.mem_map.mp hl
  refine ⟨z.natAbs, ⟨?_, ?_⟩, rfl⟩
  · have : z ≠ 0 := fun zero => nonzero (zero ▸ hz)
    omega
  · obtain ⟨w, -, hw⟩ := exists_of_forall₂ denote (List.mem_append_left _ hz)
    exact hw.fits

/-- Whatever is assigned in a model of a file can be written. -/
theorem plain_of_parseLines {ls : List (List Char)} {f : Formula Variable}
    {clock : Nat → Float} {options : Options} {r : Result Variable} (h : parseLines ls = .ok f)
    (solved : (f.solve clock options).outcome = .ok r) (sat : r.status = .satisfiable) :
    r.assignment.Plain := by
  obtain ⟨clauses, read, rfl⟩ := parseLines_eq_ok_iff.mp h
  obtain ⟨ds, rfl, -⟩ := read.numbered.renamed
  obtain ⟨a, found, rfl⟩ := outcome_numbers solved
  obtain ⟨once, occurs⟩ := assigned_ofClauses found sat
  refine Assignment.plain_table once ?_
  intro p hp
  obtain ⟨d, hd, l, hl, same⟩ := occurs p.1 (List.mem_map_of_mem hp)
  obtain ⟨line, -, accepted⟩ := read.line_of_mem (List.mem_map_of_mem hd)
  obtain ⟨n, writable, named⟩ := writable_of_parseClause accepted (List.mem_map_of_mem hl)
  cases named
  rw [← eq_of_beq same]
  exact writable

end Files

/-- A satisfiable result that assigns distinct positive numbers of no more digits than the limit is
printed as the status and a "v" with a text behind it, which the reader takes for the assigned pairs
as literals, sorted by their variables. Results that are printed alike assign the same pairs. So it
is with every satisfiable result for a file. -/
theorem Result.printed_model_decodes :
    (∀ r : Result Variable, r.status = .satisfiable → r.assignment.Plain →
      ∃ t d, r.dimacsText? = some ("s SATISFIABLE\nv " ++ t) ∧ '\n' ∉ t.toList ∧
        parseClause t.toList = .ok d ∧ d.Pairwise (fun k l => k.var.less? l.var = some true) ∧
        (d.map fun l => (l.var, l.sign)).Perm r.assignment) ∧
      (∀ r r' : Result Variable, r.status = .satisfiable → r.assignment.Plain →
        r'.status = .satisfiable → r'.assignment.Plain → r.dimacsText? = r'.dimacsText? →
        r.assignment.Perm r'.assignment) ∧
      ∀ (ls : List (List Char)) (f : Formula Variable) (clock : Nat → Float) (options : Options)
        (r : Result Variable), parseLines ls = .ok f → (f.solve clock options).outcome = .ok r →
        r.status = .satisfiable → r.assignment.Plain := by
  refine ⟨fun r => dimacsText?_read, ?_, fun ls f clock options r => plain_of_parseLines⟩
  intro r r' sat plain sat' plain' same
  obtain ⟨t, d, printed, -, read, -, perm⟩ := dimacsText?_read sat plain
  obtain ⟨t', d', printed', -, read', -, perm'⟩ := dimacsText?_read sat' plain'
  have texts : t = t' := by
    rw [printed, printed', Option.some.injEq] at same
    exact String.append_right_inj _ |>.mp same
  subst texts
  have clauses : d = d' := Except.ok.inj (read.symm.trans read')
  subst clauses
  exact perm.symm.trans perm'

def unsorted : Result Variable where
  status := .satisfiable
  assignment := [(.number 12, false), (.number 3, true)]
  stats := {}

def unassigned : Result Variable where
  status := .satisfiable
  assignment := []
  stats := {}

def bareClauses : Formula Int where
  clauses := [[⟨1, true⟩, ⟨3, false⟩], [⟨2, true⟩]]
  vars := [1, 3, 2]
  declared := [1, 3, 2]

theorem unsorted_printed_model_decodes :
    unsorted.assignment.Plain ∧
      (∃ t d, some "s SATISFIABLE\nv 3 -12 0" = some ("s SATISFIABLE\nv " ++ t) ∧
        '\n' ∉ t.toList ∧ parseClause t.toList = .ok d ∧
        d.Pairwise (fun k l => k.var.less? l.var = some true) ∧
        (d.map fun l => (l.var, l.sign)).Perm unsorted.assignment) ∧
      (∀ r : Result Variable, r.status = .satisfiable → r.assignment.Plain →
        some "s SATISFIABLE\nv 0" = r.dimacsText? → r.assignment = []) ∧
      parseLines bare = .ok (numbers.formula bareClauses) ∧
      ((numbers.formula bareClauses).solve callClock {}).outcome = .ok
        ⟨.satisfiable, [(.number 1, true), (.number 3, false), (.number 2, true)], ⟨1, 0, 0, 0⟩⟩ ∧
      Assignment.Plain [(.number 1, true), (.number 3, false), (.number 2, true)] := by
  have plain : Assignment.Plain (numbers.table [(12, false), (3, true)]) :=
    Assignment.plain_table (by decide) (by decide +kernel)
  have empty : Assignment.Plain (numbers.table []) := Assignment.plain_table (by simp) (by simp)
  have printed : unsorted.dimacsText? = some "s SATISFIABLE\nv 3 -12 0" := by decide +kernel
  have printed' : unassigned.dimacsText? = some "s SATISFIABLE\nv 0" := by decide +kernel
  obtain ⟨decodes, alike, read⟩ := Result.printed_model_decodes
  refine ⟨plain, printed ▸ decodes unsorted rfl plain, ?_, ?_⟩
  · intro r sat plain same
    exact (alike unassigned r rfl empty sat plain (printed'.trans same)).nil_eq.symm
  · have numbered : (bareClauses.solve callClock {}).outcome =
        .ok ⟨.satisfiable, [(1, true), (3, false), (2, true)], ⟨1, 0, 0, 0⟩⟩ :=
      eq_ok_of_toOption (by decide +kernel)
    have solved : ((numbers.formula bareClauses).solve callClock {}).outcome = .ok
        ⟨.satisfiable, [(.number 1, true), (.number 3, false), (.number 2, true)],
          ⟨1, 0, 0, 0⟩⟩ := by
      rw [numbers.solve_formula]
      simp only [Renaming.run, numbered]
      rfl
    exact ⟨rfl, solved, read bare _ _ _ _ rfl solved rfl⟩

end Clausal
