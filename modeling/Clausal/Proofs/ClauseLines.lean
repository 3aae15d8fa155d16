import Clausal.Proofs.Numerals
import Clausal.Proofs.PrintedModels
import Clausal.Proofs.SignedClauses

namespace Clausal

open Text

namespace Dimacs

/-- The words of the line are numerals, and these are their numbers. -/
def Lists (line : List Char) (zs : List Int) : Prop :=
  ∃ ws, Spaced ws line ∧ List.Forall₂ Numeral.Denotes ws zs

section Numbers

variable {line : List Char} {zs ns : List Int}

theorem read?_eq_some_iff_of_mem {w : List Char} {z : Int} (hw : w ∈ words line) :
    Numeral.read? w = some z ↔ Numeral.Denotes w z :=
  Numeral.read?_eq_some_iff fun _ hc => not_isBlank_of_mem_words hw hc

theorem lists_iff : Lists line zs ↔ (words line).mapM Numeral.read? = some zs := by
  have same : List.Forall₂ (fun w z => Numeral.read? w = some z) (words line) zs ↔
      List.Forall₂ Numeral.Denotes (words line) zs := by
    rw [List.forall₂_iff_zip, List.forall₂_iff_zip]
    apply and_congr_right
    intro _
    constructor
    · intro read w z pair
      exact (read?_eq_some_iff_of_mem (List.of_mem_zip pair).1).mp (read pair)
    · intro denote w z pair
      exact (read?_eq_some_iff_of_mem (List.of_mem_zip pair).1).mpr (denote pair)
  rw [mapM_eq_some_iff, same]
  constructor
  · rintro ⟨ws, spaced, denote⟩
    rwa [words_of_spaced spaced]
  · intro denote
    exact ⟨_, words_eq_iff.mp rfl, denote⟩

theorem literalNumbers_eq_ok_iff : literalNumbers zs = .ok ns ↔ zs = ns ++ [0] ∧ 0 ∉ ns := by
  unfold literalNumbers
  constructor
  · intro h
    split at h
    · rename_i last
      split at h
      · cases h
      · rename_i inner
        cases h
        refine ⟨(List.dropLast_append_getLast? 0 last).symm, by simpa using inner⟩
    · cases h
  · rintro ⟨rfl, inner⟩
    simp [inner]

theorem literalNumbers_eq_noTerminator_iff :
    literalNumbers zs = .error .noTerminator ↔ zs.getLast? ≠ some 0 := by
  unfold literalNumbers
  split
  · rename_i last
    split <;> simp [last]
  · rename_i last
    simpa using last

theorem literalNumbers_eq_innerTerminator_iff :
    literalNumbers zs = .error .innerTerminator ↔ ∃ ns, zs = ns ++ [0] ∧ 0 ∈ ns := by
  unfold literalNumbers
  constructor
  · intro h
    split at h
    · rename_i last
      split at h
      · rename_i inner
        exact ⟨_, (List.dropLast_append_getLast? 0 last).symm, by simpa using inner⟩
      · cases h
    · cases h
  · rintro ⟨ns, rfl, inner⟩
    simp [inner]

theorem literalNumbers_eq_error {fault : Fault} (h : literalNumbers zs = .error fault) :
    fault = .noTerminator ∨ fault = .innerTerminator := by
  unfold literalNumbers at h
  split at h
  · split at h
    · exact .inr (Except.error.inj h).symm
    · cases h
  · exact .inl (Except.error.inj h).symm

/-- There is no zero before the one that ends the clause, so that every number is a literal. -/
theorem mapM_of_literalNumbers (h : literalNumbers zs = .ok ns) :
    ns.mapM Item.ofInt = .ok (ns.map Literal.signed) :=
  mapM_ofInt (literalNumbers_eq_ok_iff.mp h).2

end Numbers

section Lines

variable {line : List Char} {c : Clause Variable}

theorem parseClause_of_lists {zs : List Int} (h : Lists line zs) :
    parseClause line = (literalNumbers zs).map (fun ns => ns.map Literal.signed) := by
  rw [parseClause, lists_iff.mp h]
  dsimp only
  cases numbers : literalNumbers zs with
  | error fault => rfl
  | ok ns =>
    show (ns.mapM Item.ofInt).mapError Fault.literal = _
    rw [mapM_of_literalNumbers numbers]
    rfl

theorem parseClause_of_not_lists (h : ¬ ∃ zs, Lists line zs) :
    parseClause line = .error .notANumber := by
  unfold parseClause
  split
  · rfl
  · rename_i zs read
    exact absurd ⟨zs, lists_iff.mpr read⟩ h

theorem parseClause_eq_ok_iff :
    parseClause line = .ok c ↔
      ∃ zs, Lists line (zs ++ [0]) ∧ 0 ∉ zs ∧ c = zs.map Literal.signed := by
  constructor
  · intro h
    by_cases numerals : ∃ zs, Lists line zs
    · obtain ⟨zs, lists⟩ := numerals
      rw [parseClause_of_lists lists, map_eq_ok_iff] at h
      obtain ⟨ns, hns, rfl⟩ := h
      obtain ⟨rfl, inner⟩ := literalNumbers_eq_ok_iff.mp hns
      exact ⟨ns, lists, inner, rfl⟩
    · rw [parseClause_of_not_lists numerals] at h
      cases h
  · rintro ⟨zs, lists, inner, rfl⟩
    rw [parseClause_of_lists lists, literalNumbers_eq_ok_iff.mpr ⟨rfl, inner⟩]
    rfl

theorem parseClause_eq_notANumber_iff :
    parseClause line = .error .notANumber ↔ ¬ ∃ zs, Lists line zs := by
  constructor
  · rintro h ⟨zs, lists⟩
    rw [parseClause_of_lists lists, map_eq_error_iff] at h
    obtain wrong | wrong := literalNumbers_eq_error h <;> cases wrong
  · exact parseClause_of_not_lists

theorem parseClause_eq_error_iff {fault : Fault} (other : fault ≠ .notANumber) :
    parseClause line = .error fault ↔ ∃ zs, Lists line zs ∧ literalNumbers zs = .error fault := by
  constructor
  · intro h
    by_cases numerals : ∃ zs, Lists line zs
    · obtain ⟨zs, lists⟩ := numerals
      rw [parseClause_of_lists lists, map_eq_error_iff] at h
      exact ⟨zs, lists, h⟩
    · rw [parseClause_of_not_lists numerals] at h
      exact absurd (Except.error.inj h).symm other
  · rintro ⟨zs, lists, wrong⟩
    rw [parseClause_of_lists lists, wrong]
    rfl

theorem parseClause_ne_literal (e : InputError) : parseClause line ≠ .error (.literal e) := by
  intro h
  obtain ⟨zs, -, wrong⟩ := (parseClause_eq_error_iff (by simp)).mp h
  obtain told | told := literalNumbers_eq_error wrong <;> cases told

theorem exists_lists_iff : (∃ zs, Lists line zs) ↔ ∀ w ∈ words line, ∃ z, Numeral.Denotes w z := by
  rw [← exists_forall₂_iff]
  constructor
  · rintro ⟨zs, ws, spaced, denote⟩
    rw [words_of_spaced spaced]
    exact ⟨zs, denote⟩
  · rintro ⟨zs, denote⟩
    exact ⟨zs, _, words_eq_iff.mp rfl, denote⟩

end Lines

section Writing

/-- A positive number of no more digits than the limit. -/
def Writable (n : Int) : Prop :=
  0 < n ∧ (Numeral.digits n.natAbs).length ≤ Numeral.digitLimit

instance (n : Int) : Decidable (Writable n) :=
  inferInstanceAs (Decidable (0 < n ∧ (Numeral.digits n.natAbs).length ≤ Numeral.digitLimit))

/-- A clause as words: signed numbers with a zero behind them. -/
def written (c : Clause Int) : List (List Char) :=
  c.map (fun l => Numeral.write (Result.signed (l.var, l.sign))) ++ [['0']]

variable {line : List Char} {c : Clause Int}

theorem lists_written (writable : ∀ l ∈ c, Writable l.var) (spaced : Spaced (written c) line) :
    Lists line (c.map (fun l => Result.signed (l.var, l.sign)) ++ [0]) := by
  refine ⟨_, spaced, List.rel_append ?_ (.cons ?_ .nil)⟩
  · rw [List.forall₂_map_left_iff, List.forall₂_map_right_iff, List.forall₂_same]
    intro l hl
    apply Numeral.denotes_write
    rw [natAbs_signed]
    exact (writable l hl).2
  · exact Numeral.Denotes.plain (.last (d := 0) rfl) (by decide)

/-- A written clause is read as it was, however its words are set apart. -/
theorem parseClause_written (writable : ∀ l ∈ c, Writable l.var)
    (spaced : Spaced (written c) line) : parseClause line = .ok (numbers.clause c) := by
  have named : ∀ l ∈ c, Result.signed (l.var, l.sign) ≠ 0 ∧
      Literal.signed (Result.signed (l.var, l.sign)) = numbers.literal l := by
    intro l hl
    have literal := ofInt?_signed (writable l hl).1
    have nonzero : Result.signed (l.var, l.sign) ≠ 0 := by
      intro zero
      rw [zero] at literal
      cases literal
    rw [Literal.ofInt?_eq_signed nonzero] at literal
    exact ⟨nonzero, Option.some.inj literal⟩
  refine parseClause_eq_ok_iff.mpr ⟨_, lists_written writable spaced, ?_, ?_⟩
  · intro zero
    obtain ⟨l, hl, same⟩ := List.mem_map.mp zero
    exact (named l hl).1 same
  · rw [List.map_map]
    exact (List.map_congr_left fun l hl => (named l hl).2).symm

end Writing

/-- A line is a clause exactly if its words are numerals, the last a zero and no other one, and then
the clause has a literal for each number before the zero; no zero is ever taken for a literal, so
that the making of literals never fails. A word that is no numeral is found first, then the missing
zero, then the zero inside. A clause that is written as a line, with any blanks between its words
and around them, is read as it was. -/
theorem parseClause_exact (line : List Char) :
    (∀ c, parseClause line = .ok c ↔ ∃ zs : List Int, Lists line (zs ++ [0]) ∧ 0 ∉ zs ∧
      c = zs.map (fun z => ⟨.number z.natAbs, 0 < z⟩)) ∧
      (∀ zs ns, literalNumbers zs = .ok ns → ns.mapM Item.ofInt = .ok (ns.map Literal.signed)) ∧
      (∀ e, parseClause line ≠ .error (.literal e)) ∧
      (parseClause line = .error .notANumber ↔
        ∃ w ∈ words line, ∀ z, ¬ Numeral.Denotes w z) ∧
      (parseClause line = .error .noTerminator ↔
        ∃ zs, Lists line zs ∧ zs.getLast? ≠ some 0) ∧
      (parseClause line = .error .innerTerminator ↔
        ∃ zs, Lists line (zs ++ [0]) ∧ 0 ∈ zs) ∧
      ∀ c : Clause Int, (∀ l ∈ c, Writable l.var) → Spaced (written c) line →
        parseClause line = .ok (numbers.clause c) := by
  refine ⟨fun c => parseClause_eq_ok_iff, fun zs ns => mapM_of_literalNumbers,
    parseClause_ne_literal, ?_, ?_, ?_, fun c => parseClause_written⟩
  · rw [parseClause_eq_notANumber_iff, exists_lists_iff]
    push Not
    rfl
  · rw [parseClause_eq_error_iff (by simp)]
    simp only [literalNumbers_eq_noTerminator_iff]
  · rw [parseClause_eq_error_iff (by simp)]
    simp only [literalNumbers_eq_innerTerminator_iff]
    constructor
    · rintro ⟨_, lists, ns, rfl, inner⟩
      exact ⟨ns, lists, inner⟩
    · rintro ⟨ns, lists, inner⟩
      exact ⟨_, lists, ns, rfl, inner⟩

def twoNumbers : Clause Int :=
  [⟨3, false⟩, ⟨41, true⟩]

theorem twoNumbers_parseClause_exact :
    (∀ l ∈ twoNumbers, Writable l.var) ∧
      Spaced (written twoNumbers) "\u3000-3\x0b 41\t0\n".toList ∧
      parseClause "\u3000-3\x0b 41\t0\n".toList =
        .ok [⟨.number 3, false⟩, ⟨.number 41, true⟩] ∧
      parseClause "+5 1_0 -0".toList = .ok [⟨.number 5, true⟩, ⟨.number 10, true⟩] ∧
      parseClause "1 0 x 2".toList = .error .notANumber ∧
      parseClause "1 0 2".toList = .error .noTerminator ∧
      parseClause "1 00 2 0".toList = .error .innerTerminator := by
  have writable : ∀ l ∈ twoNumbers, Writable l.var := by decide +kernel
  have spelled : written twoNumbers = [['-', '3'], ['4', '1'], ['0']] := by decide +kernel
  have spaced : Spaced (written twoNumbers) "\u3000-3\x0b 41\t0\n".toList := by
    rw [spelled, ← words_eq_iff]
    rfl
  obtain ⟨-, -, -, -, -, -, read⟩ := parseClause_exact "\u3000-3\x0b 41\t0\n".toList
  exact ⟨writable, spaced, read twoNumbers writable spaced, rfl, rfl, rfl, rfl⟩

end Dimacs
end Clausal
