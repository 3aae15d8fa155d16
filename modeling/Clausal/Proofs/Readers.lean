import Clausal.Dimacs.File
import Clausal.Proofs.Encoding
import Clausal.Proofs.Steps

namespace Clausal.Dimacs

open Text

section Counting

/-- Neither blank nor a comment nor the problem line. -/
def counts (line : List Char) : Bool :=
  !line.isEmpty && line.head? ≠ some 'c' && line.head? ≠ some 'p'

/-- The lines that count, without the blanks around them and with their numbers among all lines. -/
def significantFrom (number : Nat) (ls : List (List Char)) : List (List Char × Nat) :=
  (((ls.map trim).zipIdx number).takeWhile (fun l => l.1 ≠ ['%'])).filter (fun l => counts l.1)

def significant (ls : List (List Char)) : List (List Char × Nat) :=
  significantFrom 1 ls

/-- The lines that count are the clauses, in order. -/
def ReadAs (ls : List (List Char)) (clauses : List (Clause Variable)) : Prop :=
  (significant ls).map (fun l => parseClause l.1) = clauses.map .ok

theorem lineKind_of_counts {line : List Char} (h : counts line = true) :
    lineKind line = if line = ['%'] then .stop else .clause := by
  unfold lineKind
  split
  · exact absurd h (by decide)
  · rfl
  · rename_i c cs stop
    have other : c :: cs ≠ ['%'] := by
      intro same
      cases same
      exact stop rfl rfl
    have unmarked : c ≠ 'c' ∧ c ≠ 'p' := by simpa [counts] using h
    simp [other, unmarked]

theorem lineKind_of_not_counts {line : List Char} (h : counts line = false) :
    lineKind line = .skipped := by
  cases line with
  | nil => rfl
  | cons c cs =>
    have mark : c = 'c' ∨ c = 'p' := by
      by_cases comment : c = 'c'
      · exact .inl comment
      · right
        simpa [counts, comment] using h
    rcases mark with rfl | rfl
    · rfl
    · rfl

theorem significantFrom_cons (number : Nat) (l : List Char) (ls : List (List Char)) :
    significantFrom number (l :: ls) =
      match lineKind (trim l) with
      | .skipped => significantFrom (number + 1) ls
      | .stop => []
      | .clause => (trim l, number) :: significantFrom (number + 1) ls := by
  unfold significantFrom
  rw [List.map_cons, List.zipIdx_cons, List.takeWhile_cons]
  cases hc : counts (trim l) with
  | false =>
    have other : trim l ≠ ['%'] := by
      intro h
      rw [h] at hc
      exact absurd hc (by decide)
    rw [lineKind_of_not_counts hc]
    simp [other, hc]
  | true =>
    rw [lineKind_of_counts hc]
    by_cases stop : trim l = ['%']
    · simp [stop]
    · simp [stop, hc]

def readLine (l : List Char × Nat) : Except ParseError (Clause Variable) :=
  (parseClause l.1).mapError (fun fault => ⟨fault, l.2, String.ofList l.1⟩)

theorem parseFrom_eq_mapM (number : Nat) (ls : List (List Char)) :
    parseFrom number ls = (significantFrom number ls).mapM readLine := by
  induction ls generalizing number with
  | nil => rfl
  | cons l ls ih =>
    rw [parseFrom, significantFrom_cons]
    cases lineKind (trim l) with
    | skipped => exact ih (number + 1)
    | stop => rfl
    | clause =>
      dsimp only
      rw [List.mapM_cons, readLine]
      cases parseClause (trim l) with
      | error fault => rfl
      | ok c =>
        rw [ih]
        cases (significantFrom (number + 1) ls).mapM readLine <;> rfl

theorem readLine_eq_ok_iff {l : List Char × Nat} {c : Clause Variable} :
    readLine l = .ok c ↔ parseClause l.1 = .ok c := by
  rw [readLine]
  cases parseClause l.1 with
  | error fault => exact ⟨nofun, nofun⟩
  | ok d =>
    constructor
    all_goals
      intro h
      cases h
      rfl

theorem readLine_eq_error_iff {l : List Char × Nat} {e : ParseError} :
    readLine l = .error e ↔
      parseClause l.1 = .error e.fault ∧ e.lineNumber = l.2 ∧ e.line = String.ofList l.1 := by
  rw [readLine]
  cases parseClause l.1 with
  | error fault =>
    constructor
    · intro h
      cases h
      exact ⟨rfl, rfl, rfl⟩
    · obtain ⟨fault', number, line⟩ := e
      rintro ⟨same, rfl, rfl⟩
      cases same
      rfl
  | ok c => exact ⟨nofun, nofun⟩

theorem parseFrom_eq_ok_iff {number : Nat} {ls : List (List Char)}
    {clauses : List (Clause Variable)} :
    parseFrom number ls = .ok clauses ↔
      (significantFrom number ls).map (fun l => parseClause l.1) = clauses.map .ok := by
  rw [parseFrom_eq_mapM, mapM_eq_ok_iff, ← List.forall₂_eq_eq_eq, List.forall₂_map_left_iff,
    List.forall₂_map_right_iff]
  simp only [readLine_eq_ok_iff]

/-- What is wrong with a text is wrong with the first line that counts and is no clause. -/
theorem parseFrom_eq_error_iff {number : Nat} {ls : List (List Char)} {e : ParseError} :
    parseFrom number ls = .error e ↔
      ∃ before l after, significantFrom number ls = before ++ l :: after ∧
        (∀ b ∈ before, ∃ c, parseClause b.1 = .ok c) ∧
        parseClause l.1 = .error e.fault ∧ e.lineNumber = l.2 ∧ e.line = String.ofList l.1 := by
  simp only [parseFrom_eq_mapM, mapM_eq_error_iff, readLine_eq_ok_iff, readLine_eq_error_iff]

theorem parseLines_of_readAs {ls : List (List Char)} {clauses : List (Clause Variable)}
    (h : ReadAs ls clauses) : parseLines ls = .ok (.ofClauses clauses none) := by
  rw [parseLines, parseFrom_eq_ok_iff.mpr h]
  rfl

theorem readAs_or_error (ls : List (List Char)) :
    (∃ clauses, ReadAs ls clauses) ∨ ∃ e, parseLines ls = .error e ∧
      ∃ l ∈ significant ls, parseClause l.1 = .error e.fault := by
  cases h : parseFrom 1 ls with
  | ok clauses => exact .inl ⟨clauses, parseFrom_eq_ok_iff.mp h⟩
  | error e =>
    obtain ⟨before, l, after, split, -, wrong, -, -⟩ := parseFrom_eq_error_iff.mp h
    refine .inr ⟨e, ?_, l, ?_, wrong⟩
    · rw [parseLines, h]
      rfl
    · rw [significant, split]
      simp

theorem ReadAs.unique {ls : List (List Char)} {clauses clauses' : List (Clause Variable)}
    (h : ReadAs ls clauses) (h' : ReadAs ls clauses') : clauses' = clauses := by
  have same := (parseFrom_eq_ok_iff.mpr h).symm.trans (parseFrom_eq_ok_iff.mpr h')
  exact (Except.ok.inj same).symm

theorem ReadAs.clause_of_mem {ls : List (List Char)} {clauses : List (Clause Variable)}
    (h : ReadAs ls clauses) {l : List Char × Nat} (hl : l ∈ significant ls) :
    ∃ c ∈ clauses, parseClause l.1 = .ok c := by
  have read : parseClause l.1 ∈ clauses.map Except.ok := by
    rw [← h]
    exact List.mem_map.mpr ⟨l, hl, rfl⟩
  obtain ⟨c, hc, same⟩ := List.mem_map.mp read
  exact ⟨c, hc, same.symm⟩

theorem ReadAs.line_of_mem {ls : List (List Char)} {clauses : List (Clause Variable)}
    (h : ReadAs ls clauses) {c : Clause Variable} (hc : c ∈ clauses) :
    ∃ l ∈ significant ls, parseClause l.1 = .ok c := by
  have read : Except.ok c ∈ (significant ls).map (fun l => parseClause l.1) := by
    rw [h]
    exact List.mem_map_of_mem hc
  exact List.mem_map.mp read

end Counting

section Cutting

theorem cutLines_congr {ends ends' : Char → Bool} {line cs : List Char}
    (h : ∀ c ∈ cs, ends c = ends' c) : cutLines ends line cs = cutLines ends' line cs := by
  fun_induction cutLines ends line cs with
  | case1 => rfl
  | case2 line cs ended rest cut ih =>
    have later := ih fun c hc => h c (List.mem_cons_of_mem _ (List.mem_cons_of_mem _ hc))
    rw [cutLines, ← later, cut]
  | case3 line c cs single isEnd ended rest cut ih =>
    have later := ih fun d hd => h d (List.mem_cons_of_mem _ hd)
    rw [cutLines.eq_3 _ _ _ _ single, ← h c List.mem_cons_self, if_pos isEnd, ← later, cut]
  | case4 line c cs single isEnd ih =>
    have later := ih fun d hd => h d (List.mem_cons_of_mem _ hd)
    rw [cutLines.eq_3 _ _ _ _ single, ← h c List.mem_cons_self, if_neg isEnd, ← later]

theorem lines_congr {ends ends' : Char → Bool} {cs : List Char}
    (h : ∀ c ∈ cs, ends c = ends' c) : lines ends cs = lines ends' cs := by
  rw [lines, lines, cutLines_congr h]

theorem endsTextLine_of_endsFileLine {c : Char} (h : endsFileLine c = true) :
    endsTextLine c = true := by
  rw [endsFileLine, Bool.or_eq_true, beq_iff_eq, beq_iff_eq] at h
  rcases h with rfl | rfl
  · decide
  · decide

end Cutting

/-- A file that holds a text is read line by line as well. -/
theorem parseFile_toUTF8 (text : String) :
    parseFile text.toUTF8.data.toList =
      (parseLines (lines endsFileLine text.toList)).mapError .malformed := by
  rw [parseFile, decode_toUTF8]

/-- Where no other character ends a line of the text, the two readers agree, also in what they find
wrong. -/
theorem readers_agree {text : String}
    (h : ∀ c ∈ text.toList, endsTextLine c = true → endsFileLine c = true) :
    parseFile text.toUTF8.data.toList = (parseText text).mapError .malformed := by
  have same : ∀ c ∈ text.toList, endsFileLine c = endsTextLine c := by
    intro c hc
    rw [Bool.eq_iff_iff]
    exact ⟨endsTextLine_of_endsFileLine, h c hc⟩
  rw [parseFile_toUTF8, parseText, lines_congr same]

theorem mixedEnds_readers_agree :
    (∀ c ∈ "c one\r\n1 0\r2 x 0\n".toList, endsTextLine c = true → endsFileLine c = true) ∧
      parseFile "c one\r\n1 0\r2 x 0\n".toUTF8.data.toList =
        .error (.malformed ⟨.notANumber, 3, "2 x 0"⟩) := by
  have checked : "c one\r\n1 0\r2 x 0\n".toList.all
      (fun c => !endsTextLine c || endsFileLine c) = true := by decide
  have ends : ∀ c ∈ "c one\r\n1 0\r2 x 0\n".toList,
      endsTextLine c = true → endsFileLine c = true := by
    intro c hc isEnd
    simpa [isEnd] using List.all_eq_true.mp checked c hc
  have read : parseText "c one\r\n1 0\r2 x 0\n" = .error ⟨.notANumber, 3, "2 x 0"⟩ := by
    rfl
  refine ⟨ends, ?_⟩
  rw [readers_agree ends, read]
  rfl

/-- A vertical tab in the middle of a clause ends the line for the one reader and is a blank for the
other. -/
theorem tab_divides_readers :
    parseText "1\x0b2 0\n" = .error ⟨.noTerminator, 1, "1"⟩ ∧
      parseFile "1\x0b2 0\n".toUTF8.data.toList =
        .ok (.ofClauses [[⟨.number 1, true⟩, ⟨.number 2, true⟩]] none) ∧
      ¬ ∀ text : String,
        parseFile text.toUTF8.data.toList = (parseText text).mapError .malformed := by
  have asText : parseText "1\x0b2 0\n" = .error ⟨.noTerminator, 1, "1"⟩ := rfl
  have asFile : parseFile "1\x0b2 0\n".toUTF8.data.toList =
      .ok (.ofClauses [[⟨.number 1, true⟩, ⟨.number 2, true⟩]] none) := by
    rw [parseFile_toUTF8]
    rfl
  refine ⟨asText, asFile, ?_⟩
  intro agree
  have same := agree "1\x0b2 0\n"
  rw [asFile, asText] at same
  cases same

def textOnlyEnds : List Char :=
  [0xB, 0xC, 0x1C, 0x1D, 0x1E, 0x85, 0x2028, 0x2029].map Char.ofNat

theorem mem_textOnlyEnds {c : Char} (h : endsTextLine c = true) (other : endsFileLine c = false) :
    c ∈ textOnlyEnds := by
  have noFeed : c.toNat ≠ 0xA ∧ c.toNat ≠ 0xD := by
    constructor
    · intro feed
      rw [← Char.ofNat_toNat c, feed] at other
      exact absurd other (by decide)
    · intro return_
      rw [← Char.ofNat_toNat c, return_] at other
      exact absurd other (by decide)
  refine List.mem_map.mpr ⟨c.toNat, ?_, Char.ofNat_toNat c⟩
  simp only [endsTextLine, Bool.or_eq_true, Bool.and_eq_true, decide_eq_true_eq, beq_iff_eq] at h
  simp only [List.mem_cons, List.not_mem_nil, or_false]
  omega

/-- The condition is sharp: every other line end of a text divides the readers. -/
theorem readers_differ {c : Char} (h : endsTextLine c = true) (other : endsFileLine c = false) :
    (parseText (String.ofList ['1', c, '2', ' ', '0'])).isOk = false ∧
      (parseFile (String.ofList ['1', c, '2', ' ', '0']).toUTF8.data.toList).isOk = true := by
  have each : textOnlyEnds.all (fun c =>
      !(parseLines (lines endsTextLine ['1', c, '2', ' ', '0'])).isOk &&
      (parseLines (lines endsFileLine ['1', c, '2', ' ', '0'])).isOk) = true := by decide
  have divided := List.all_eq_true.mp each c (mem_textOnlyEnds h other)
  rw [Bool.and_eq_true, Bool.not_eq_true'] at divided
  obtain ⟨text, file⟩ := divided
  rw [parseText, parseFile_toUTF8, String.toList_ofList]
  refine ⟨text, ?_⟩
  cases read : parseLines (lines endsFileLine ['1', c, '2', ' ', '0']) with
  | error e =>
    rw [read] at file
    cases file
  | ok f => rfl

end Clausal.Dimacs
