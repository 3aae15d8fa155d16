import Clausal.Proofs.Numerals
import Clausal.Proofs.Printing

namespace Clausal

open Text

section Characters

/-- A literal in writing, character by character. -/
def literalChars (l : Literal Int) : List Char :=
  (if l.sign then [] else ['~']) ++ 'x' :: Numeral.write l.var

def clauseChars (c : Clause Int) : List Char :=
  '(' :: ([' ', '|', ' '].intercalate (c.map literalChars) ++ [')'])

def clausesChars (cs : List (Clause Int)) : List Char :=
  [' ', '&', ' '].intercalate (cs.map clauseChars)

theorem toList_literal_text (l : Literal Int) :
    (numbers.literal l).text.toList = literalChars l := by
  obtain ⟨n, sign⟩ := l
  cases sign <;>
    simp [Literal.text, numbers, Renaming.literal, Variable.name, Variable.display,
      Variable.inspect, literalChars, Numeral.text]

theorem toList_clause_text (c : Clause Int) : (numbers.clause c).text.toList = clauseChars c := by
  simp [Clause.text, Renaming.clause, String.toList_intercalate, clauseChars, Function.comp_def,
    toList_literal_text]

theorem toList_text {f : Formula Variable} {cs : List (Clause Int)}
    (h : f.clauses = numbers.clauses cs) : f.text.toList = clausesChars cs := by
  simp [Formula.text, h, Renaming.clauses, String.toList_intercalate, clausesChars,
    Function.comp_def, toList_clause_text]

end Characters

section Unambiguous

theorem not_mark_of_mem_literalChars {l : Literal Int} {c : Char} (h : c ∈ literalChars l) :
    c ≠ '|' ∧ c ≠ '&' := by
  have digit : ∀ d < 10, Nat.digitChar d ≠ '|' ∧ Nat.digitChar d ≠ '&' := by decide
  rw [literalChars, List.mem_append, List.mem_cons] at h
  rcases h with sign | rfl | number
  · cases hs : l.sign with
    | true => simp [hs] at sign
    | false =>
      have tilde : c = '~' := by simpa [hs] using sign
      rw [tilde]
      decide
  · decide
  · rcases Numeral.mem_write number with rfl | ⟨d, small, rfl⟩
    · decide
    · exact digit d small

theorem mark_not_mem_clauseChars (c : Clause Int) : '&' ∉ clauseChars c := by
  intro h
  rw [clauseChars, List.mem_cons, List.mem_append] at h
  rcases h with opening | inside | closing
  · cases opening
  · rcases mem_intercalate inside with between | ⟨w, hw, mark⟩
    · exact absurd between (by decide)
    · obtain ⟨l, -, rfl⟩ := List.mem_map.mp hw
      exact (not_mark_of_mem_literalChars mark).2 rfl
  · cases List.mem_singleton.mp closing

theorem literalChars_injective : Function.Injective literalChars := by
  rintro ⟨m, sign⟩ ⟨n, sign'⟩ same
  simp only [literalChars] at same
  cases sign with
  | false =>
    cases sign' with
    | false =>
      have numbers : Numeral.write m = Numeral.write n := by simpa using same
      rw [Numeral.write_injective numbers]
    | true => simp at same
  | true =>
    cases sign' with
    | false => simp at same
    | true =>
      have numbers : Numeral.write m = Numeral.write n := by simpa using same
      rw [Numeral.write_injective numbers]

theorem clauseChars_injective : Function.Injective clauseChars := by
  intro c d same
  have marked : '|' ∈ [' ', '|', ' '] := by decide
  have words (c : Clause Int) : ∀ w ∈ c.map literalChars, w ≠ [] ∧ '|' ∉ w := by
    intro w hw
    obtain ⟨l, -, rfl⟩ := List.mem_map.mp hw
    exact ⟨by simp [literalChars], fun mark => (not_mark_of_mem_literalChars mark).1 rfl⟩
  have inside := List.append_cancel_right (List.cons.inj same).2
  exact literalChars_injective.list_map (intercalate_inj marked (words c) (words d) inside)

theorem clausesChars_injective : Function.Injective clausesChars := by
  intro cs ds same
  have marked : '&' ∈ [' ', '&', ' '] := by decide
  have words (cs : List (Clause Int)) : ∀ w ∈ cs.map clauseChars, w ≠ [] ∧ '&' ∉ w := by
    intro w hw
    obtain ⟨c, -, rfl⟩ := List.mem_map.mp hw
    exact ⟨List.cons_ne_nil _ _, mark_not_mem_clauseChars c⟩
  exact clauseChars_injective.list_map (intercalate_inj marked (words cs) (words ds) same)

end Unambiguous

namespace Formula

/-- All variables of the clauses are numbers. -/
def OfNumbers (f : Formula Variable) : Prop :=
  ∀ c ∈ f.clauses, ∀ l ∈ c, ∃ n, l.var = .number n

/-- What is written tells the clauses apart, down to the number of empty ones. -/
theorem clauses_of_text :
    (∀ f g : Formula Variable, f.OfNumbers → g.OfNumbers → f.text = g.text →
      f.clauses = g.clauses) ∧
    ∀ (f g : Formula Variable) (m n : Nat), f.clauses = List.replicate m [] →
      g.clauses = List.replicate n [] → f.text = g.text → m = n := by
  have determined (f g : Formula Variable) (hf : f.OfNumbers) (hg : g.OfNumbers)
      (same : f.text = g.text) : f.clauses = g.clauses := by
    obtain ⟨cs, hcs⟩ := exists_clauses_of_numbers hf
    obtain ⟨ds, hds⟩ := exists_clauses_of_numbers hg
    have chars := congrArg String.toList same
    rw [toList_text hcs, toList_text hds] at chars
    rw [hcs, hds, clausesChars_injective chars]
  have empty {f : Formula Variable} {n : Nat} (h : f.clauses = List.replicate n []) :
      f.OfNumbers := by
    intro c hc l hl
    rw [h] at hc
    rw [List.eq_of_mem_replicate hc] at hl
    cases hl
  refine ⟨determined, ?_⟩
  intro f g m n hf hg same
  have clauses := determined f g (empty hf) (empty hg) same
  rw [hf, hg] at clauses
  exact List.replicate_left_injective _ clauses

def partlyEmpty : Formula Variable where
  clauses := [[⟨.number 1, true⟩, ⟨.number (-12), false⟩], []]
  vars := []
  declared := []

/-- Two empty clauses. -/
def emptyTwice : Formula Variable where
  clauses := [[], []]
  vars := []
  declared := []

theorem partlyEmpty_clauses_of_text :
    (partlyEmpty.OfNumbers ∧ { partlyEmpty with vars := [.number 7] }.OfNumbers ∧
      partlyEmpty.text = { partlyEmpty with vars := [.number 7] }.text ∧
      partlyEmpty.clauses = { partlyEmpty with vars := [.number 7] }.clauses) ∧
    emptyTwice.clauses = List.replicate 2 [] ∧
      { emptyTwice with declared := [.empty] }.clauses = List.replicate 2 [] ∧
      emptyTwice.text = { emptyTwice with declared := [.empty] }.text ∧ 2 = 2 := by
  have numbers : partlyEmpty.OfNumbers := by simp [OfNumbers, partlyEmpty]
  have relisted : { partlyEmpty with vars := [.number 7] }.OfNumbers := numbers
  exact ⟨⟨numbers, relisted, rfl, clauses_of_text.1 _ _ numbers relisted rfl⟩, rfl, rfl, rfl,
    clauses_of_text.2 emptyTwice { emptyTwice with declared := [.empty] } 2 2 rfl rfl rfl⟩

end Formula
end Clausal
