import Mathlib.Algebra.Group.Nat.Defs
import Mathlib.Data.List.Induction
import Clausal.Numeral
import Clausal.Proofs.Words

namespace Clausal

open Text

theorem Text.digit?_lt {c : Char} {d : Nat} (h : digit? c = some d) : d < 10 := by
  unfold digit? at h
  dsimp only at h
  split at h
  · split at h
    · rename_i range
      cases h
      simp only [Bool.and_eq_true, decide_eq_true_eq] at range
      omega
    · cases h
  · obtain ⟨z, found, rfl⟩ := Option.map_eq_some_iff.mp h
    have range := List.find?_some found
    simp only [Bool.and_eq_true, decide_eq_true_eq] at range
    omega

theorem Text.digit?_digitChar {d : Nat} (h : d < 10) : digit? (Nat.digitChar d) = some d := by
  have each : ∀ d < 10, digit? (Nat.digitChar d) = some d := by decide
  exact each d h

namespace Numeral

/-- Digits and their values. An underscore may stand between two digits. -/
inductive Spells : List Char → List Nat → Prop where
  | last {c : Char} {d : Nat} (digit : digit? c = some d) : Spells [c] [d]
  | next {c : Char} {d : Nat} {cs : List Char} {ds : List Nat} (digit : digit? c = some d)
      (rest : Spells cs ds) : Spells (c :: cs) (d :: ds)
  | spaced {c : Char} {d : Nat} {cs : List Char} {ds : List Nat} (digit : digit? c = some d)
      (rest : Spells cs ds) : Spells (c :: '_' :: cs) (d :: ds)

/-- The number that a numeral stands for. -/
inductive Denotes : List Char → Int → Prop where
  | plain {cs : List Char} {ds : List Nat} (spelled : Spells cs ds)
      (fits : ds.length ≤ digitLimit) : Denotes cs (value ds)
  | plus {cs : List Char} {ds : List Nat} (spelled : Spells cs ds)
      (fits : ds.length ≤ digitLimit) : Denotes ('+' :: cs) (value ds)
  | minus {cs : List Char} {ds : List Nat} (spelled : Spells cs ds)
      (fits : ds.length ≤ digitLimit) : Denotes ('-' :: cs) (-(value ds : Int))

section Reading

variable {c : Char} {d n : Nat} {cs : List Char} {ds : List Nat}

theorem Spells.first (h : Spells (c :: cs) ds) : ∃ d, digit? c = some d := by
  cases h with
  | last digit | next digit _ | spaced digit _ => exact ⟨_, digit⟩

theorem Spells.length (h : Spells cs ds) : 0 < ds.length := by
  cases h <;> exact Nat.succ_pos _

theorem spells_of_digitValues? (h : digitValues? cs = some ds) : Spells cs ds := by
  fun_induction digitValues? cs generalizing ds with
  | case1 => cases h
  | case2 => cases h
  | case3 c d digit =>
    cases h
    exact .last digit
  | case4 c d cs digit ih =>
    obtain ⟨es, read, rfl⟩ := Option.map_eq_some_iff.mp h
    exact .spaced digit (ih read)
  | case5 c d cs _ _ digit ih =>
    obtain ⟨es, read, rfl⟩ := Option.map_eq_some_iff.mp h
    exact .next digit (ih read)

/-- A digit follows, so no underscore is skipped. -/
theorem digitValues?_next {e : Char} {d' : Nat} (digit : digit? c = some d)
    (following : digit? e = some d') :
    digitValues? (c :: e :: cs) = (digitValues? (e :: cs)).map (d :: ·) := by
  apply digitValues?.eq_5 c (e :: cs) d digit
  · simp
  · intro rest same
    cases same
    cases following

theorem digitValues?_of_spells (h : Spells cs ds) : digitValues? cs = some ds := by
  induction h with
  | last digit => simp [digitValues?, digit]
  | @next c d cs ds digit rest ih =>
    cases cs with
    | nil => cases rest
    | cons e cs =>
      obtain ⟨d', following⟩ := rest.first
      rw [digitValues?_next digit following, ih]
      rfl
  | spaced digit rest ih => simp [digitValues?, digit, ih]

theorem readNat?_eq_some_iff :
    readNat? cs = some n ↔ ∃ ds, Spells cs ds ∧ ds.length ≤ digitLimit ∧ value ds = n := by
  constructor
  · intro h
    unfold readNat? at h
    split at h
    · rename_i ds read
      split at h
      · rename_i fits
        exact ⟨ds, spells_of_digitValues? read, fits, by simpa using h⟩
      · cases h
    · cases h
  · rintro ⟨ds, spelled, fits, rfl⟩
    simp [readNat?, digitValues?_of_spells spelled, fits]

/-- The first character is a digit and so no sign. -/
theorem readSigned?_of_spells (h : Spells cs ds) :
    readSigned? cs = (readNat? cs).map Int.ofNat := by
  unfold readSigned?
  split
  · obtain ⟨d, sign⟩ := h.first
    cases sign
  · obtain ⟨d, sign⟩ := h.first
    cases sign
  · rfl

theorem denotes_of_readSigned? {z : Int} (h : readSigned? cs = some z) : Denotes cs z := by
  unfold readSigned? at h
  split at h
  · obtain ⟨z, read, rfl⟩ := Option.map_eq_some_iff.mp h
    obtain ⟨n, read, same⟩ := Option.bind_eq_some_iff.mp read
    obtain ⟨ds, spelled, fits, rfl⟩ := readNat?_eq_some_iff.mp read
    cases same
    exact .minus spelled fits
  · obtain ⟨n, read, rfl⟩ := Option.map_eq_some_iff.mp h
    obtain ⟨ds, spelled, fits, rfl⟩ := readNat?_eq_some_iff.mp read
    exact .plus spelled fits
  · obtain ⟨n, read, rfl⟩ := Option.map_eq_some_iff.mp h
    obtain ⟨ds, spelled, fits, rfl⟩ := readNat?_eq_some_iff.mp read
    exact .plain spelled fits

theorem readSigned?_of_denotes {z : Int} (h : Denotes cs z) : readSigned? cs = some z := by
  cases h with
  | plain spelled fits =>
    rw [readSigned?_of_spells spelled, readNat?_eq_some_iff.mpr ⟨_, spelled, fits, rfl⟩]
    rfl
  | plus spelled fits => simp [readSigned?, readNat?_eq_some_iff.mpr ⟨_, spelled, fits, rfl⟩]
  | minus spelled fits => simp [readSigned?, readNat?_eq_some_iff.mpr ⟨_, spelled, fits, rfl⟩]

theorem isBlank_of_isPadding (h : isPadding c = true) : isBlank c = true := by
  unfold isPadding at h
  split at h
  · simp only [Bool.or_eq_true, Bool.and_eq_true, decide_eq_true_eq, beq_iff_eq] at h
    rcases h with range | rfl
    · simp only [isBlank, Bool.or_eq_true, Bool.and_eq_true, decide_eq_true_eq]
      omega
    · decide
  · exact h

/-- The reader accepts exactly the numerals, where there is nothing to trim. -/
theorem read?_eq_some_iff {z : Int} (solid : ∀ c ∈ cs, isBlank c = false) :
    read? cs = some z ↔ Denotes cs z := by
  have firm : ∀ c ∈ cs, isPadding c = false := by
    intro c hc
    cases padding : isPadding c with
    | false => rfl
    | true => rw [← solid c hc, isBlank_of_isPadding padding]
  rw [read?, trimWhere_eq_self firm]
  exact ⟨denotes_of_readSigned?, readSigned?_of_denotes⟩

end Reading

section Writing

variable {c : Char} {d n : Nat} {cs : List Char} {ds : List Nat} {z : Int}

theorem value_append (ds : List Nat) (d : Nat) : value (ds ++ [d]) = 10 * value ds + d := by
  simp [value]

theorem Spells.append (h : Spells cs ds) (digit : digit? c = some d) :
    Spells (cs ++ [c]) (ds ++ [d]) := by
  induction h with
  | last first => exact .next first (.last digit)
  | next first _ ih => exact .next first ih
  | spaced first _ ih => exact .spaced first ih

theorem Spells.lt_ten (h : Spells cs ds) : ∀ d ∈ ds, d < 10 := by
  induction h with
  | last digit => simpa using digit?_lt digit
  | next digit _ ih | spaced digit _ ih => exact List.forall_mem_cons.mpr ⟨digit?_lt digit, ih⟩

theorem value_lt {ds : List Nat} (below : ∀ d ∈ ds, d < 10) : value ds < 10 ^ ds.length := by
  induction ds using List.reverseRecOn with
  | nil => simp [value]
  | append_singleton ds d ih =>
    obtain ⟨before, last⟩ := List.forall_mem_append.mp below
    have := ih before
    have := last d (by simp)
    rw [value_append, List.length_append, List.length_singleton, Nat.pow_succ]
    omega

/-- What is written for a number spells it, one character for each digit. -/
theorem spells_digits (n : Nat) :
    ∃ ds, Spells (digits n) ds ∧ ds.length = (digits n).length ∧ value ds = n := by
  fun_induction digits n with
  | case1 n small => exact ⟨[n], .last (digit?_digitChar small), rfl, by simp [value]⟩
  | case2 n large ih =>
    obtain ⟨ds, spelled, size, same⟩ := ih
    have digit := digit?_digitChar (Nat.mod_lt n (by decide : 0 < 10))
    refine ⟨ds ++ [n % 10], spelled.append digit, ?_, ?_⟩
    · simp [size]
    · rw [value_append, same]
      exact Nat.div_add_mod n 10

theorem length_digits_le {k : Nat} (h : n < 10 ^ (k + 1)) : (digits n).length ≤ k + 1 := by
  induction k generalizing n with
  | zero =>
    rw [digits, if_pos (by simpa using h)]
    simp
  | succ k ih =>
    rw [digits]
    split
    · simp
    · have shorter := ih (Nat.div_lt_of_lt_mul (by rwa [Nat.pow_succ'] at h))
      simpa using shorter

theorem denotes_write (fits : (digits z.natAbs).length ≤ digitLimit) : Denotes (write z) z := by
  obtain ⟨ds, spelled, size, same⟩ := spells_digits z.natAbs
  rw [← size] at fits
  cases z with
  | ofNat n =>
    have plain := Denotes.plain spelled fits
    rw [same] at plain
    exact plain
  | negSucc n =>
    have minus := Denotes.minus spelled fits
    rw [same] at minus
    exact minus

/-- What has been read can be written within the limit. -/
theorem Denotes.fits (h : Denotes cs z) : (digits z.natAbs).length ≤ digitLimit := by
  have short {ds : List Nat} {cs : List Char} (spelled : Spells cs ds)
      (fits : ds.length ≤ digitLimit) : (digits (value ds)).length ≤ digitLimit := by
    obtain ⟨k, size⟩ := Nat.exists_eq_succ_of_ne_zero (Nat.ne_of_gt spelled.length)
    have below := value_lt spelled.lt_ten
    rw [size] at below fits
    exact Nat.le_trans (length_digits_le below) fits
  cases h with
  | plain spelled fits | plus spelled fits => exact short spelled fits
  | minus spelled fits =>
    rw [Int.natAbs_neg]
    exact short spelled fits

theorem digits_ne_nil (n : Nat) : digits n ≠ [] := by
  rw [digits]
  split <;> simp

theorem mem_digits (h : c ∈ digits n) : ∃ d < 10, c = Nat.digitChar d := by
  fun_induction digits n with
  | case1 n small => exact ⟨n, small, List.mem_singleton.mp h⟩
  | case2 n large ih =>
    rcases List.mem_append.mp h with h | h
    · exact ih h
    · exact ⟨n % 10, Nat.mod_lt n (by decide), List.mem_singleton.mp h⟩

theorem not_isBlank_of_mem_digits (h : c ∈ digits n) : isBlank c = false := by
  have solid : ∀ d < 10, isBlank (Nat.digitChar d) = false := by decide
  obtain ⟨d, small, rfl⟩ := mem_digits h
  exact solid d small

/-- What is written for a number is one word. -/
theorem write_word (z : Int) : write z ≠ [] ∧ ∀ c ∈ write z, isBlank c = false := by
  cases z with
  | ofNat n => exact ⟨digits_ne_nil n, fun c hc => not_isBlank_of_mem_digits hc⟩
  | negSucc n =>
    refine ⟨List.cons_ne_nil _ _, ?_⟩
    intro c hc
    rcases List.mem_cons.mp hc with rfl | hc
    · rfl
    · exact not_isBlank_of_mem_digits hc

theorem mem_write (h : c ∈ write z) : c = '-' ∨ ∃ d < 10, c = Nat.digitChar d := by
  cases z with
  | ofNat n => exact .inr (mem_digits h)
  | negSucc n => exact (List.mem_cons.mp h).imp_right mem_digits

theorem digits_injective : Function.Injective digits := by
  intro m n same
  obtain ⟨ds, spelled, -, rfl⟩ := spells_digits m
  obtain ⟨es, spelled', -, rfl⟩ := spells_digits n
  have values := digitValues?_of_spells spelled
  rw [same, digitValues?_of_spells spelled'] at values
  cases values
  rfl

theorem digits_ne_minus (m : Nat) (cs : List Char) : digits m ≠ '-' :: cs := by
  have other : ∀ d < 10, '-' ≠ Nat.digitChar d := by decide
  intro same
  obtain ⟨d, small, minus⟩ := mem_digits (n := m) (same ▸ List.mem_cons_self)
  exact other d small minus

/-- Different numbers are written in different ways, with any number of digits. -/
theorem write_injective : Function.Injective write := by
  intro y z same
  cases y with
  | ofNat m =>
    cases z with
    | ofNat n => rw [digits_injective same]
    | negSucc n => exact absurd same (digits_ne_minus m _)
  | negSucc m =>
    cases z with
    | ofNat n => exact absurd same.symm (digits_ne_minus n _)
    | negSucc n => rw [Nat.succ.inj (digits_injective (List.cons.inj same).2)]

end Writing

end Numeral
end Clausal
