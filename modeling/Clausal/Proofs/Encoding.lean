import Clausal.Text.Utf8

namespace Clausal.Text

def tailByte (bits : Nat) : UInt8 :=
  UInt8.ofNat (bits + 0x80)

theorem toNat_ofNat {n : Nat} (h : n < 256) : (UInt8.ofNat n).toNat = n := by
  rw [UInt8.toNat_ofNat', Nat.mod_eq_of_lt h]

theorem toNat_tailByte {bits : Nat} (h : bits < 64) : (tailByte bits).toNat = bits + 0x80 :=
  toNat_ofNat (by omega)

namespace Pending

/-- What has been read of a character, and that the given bits may come next. -/
structure Awaits (p : Pending) (missing bits next : Nat) : Prop where
  missing : p.missing = missing
  bits : p.bits = bits
  low : p.low.toNat ≤ next + 0x80
  high : next + 0x80 ≤ p.high.toNat

variable {p : Pending} {bits next : Nat} {position : Nat} {rest : List UInt8}

theorem Awaits.allows {missing : Nat} (h : p.Awaits missing bits next) (small : next < 64) :
    (p.low ≤ tailByte next && tailByte next ≤ p.high) = true := by
  rw [Bool.and_eq_true, decide_eq_true_eq, decide_eq_true_eq, UInt8.le_iff_toNat_le,
    UInt8.le_iff_toNat_le, toNat_tailByte small]
  exact ⟨h.low, h.high⟩

theorem Awaits.last (h : p.Awaits 1 bits next) (small : next < 64) :
    decodeFrom position (some p) (tailByte next :: rest) =
      (decodeFrom (position + 1) none rest).push (Char.ofNat (64 * bits + next)) := by
  have value : (tailByte next).toNat - 0x80 = next := by
    rw [toNat_tailByte small]
    omega
  rw [decodeFrom, if_pos (h.allows small), if_pos h.missing, h.bits, value]

/-- Behind the second byte every tail byte is allowed. -/
theorem Awaits.more {missing : Nat} (h : p.Awaits (missing + 2) bits next) (small : next < 64)
    {further : Nat} (small' : further < 64) :
    ∃ q : Pending, q.Awaits (missing + 1) (64 * bits + next) further ∧
      decodeFrom position (some p) (tailByte next :: rest) =
        decodeFrom (position + 1) (some q) rest := by
  have value : (tailByte next).toNat - 0x80 = next := by
    rw [toNat_tailByte small]
    omega
  have several : ¬ p.missing = 1 := by
    rw [h.missing]
    omega
  rw [decodeFrom, if_pos (h.allows small), if_neg several, h.bits, value, h.missing]
  refine ⟨_, ⟨rfl, rfl, ?_, ?_⟩, rfl⟩
  · show 0x80 ≤ further + 0x80
    omega
  · show further + 0x80 ≤ 0xBF
    omega

end Pending

theorem Pending.awaits_tail {start missing bits next : Nat} (b : UInt8) (small : next < 64) :
    Awaits ⟨start, b, bits, missing, 0x80, 0xBF⟩ missing bits next := by
  refine ⟨rfl, rfl, ?_, ?_⟩
  · show 0x80 ≤ next + 0x80
    omega
  · show next + 0x80 ≤ 0xBF
    omega

section FirstBytes

variable (start : Nat) {bits next : Nat}

theorem lead?_two (long : 2 ≤ bits) (fits : bits < 32) (small : next < 64) :
    ∃ p, lead? start (UInt8.ofNat (bits + 0xC0)) = some p ∧ p.Awaits 1 bits next := by
  have value : (UInt8.ofNat (bits + 0xC0)).toNat = bits + 0xC0 := toNat_ofNat (by omega)
  have range : (0xC2 ≤ bits + 0xC0 && bits + 0xC0 ≤ 0xDF) = true := by
    rw [Bool.and_eq_true, decide_eq_true_eq, decide_eq_true_eq]
    omega
  rw [lead?, value, if_pos range, Nat.add_sub_cancel]
  exact ⟨_, rfl, Pending.awaits_tail _ small⟩

/-- The second byte leaves out overlong forms and surrogates. -/
theorem lead?_three (fits : bits < 16) (small : next < 64) (long : bits = 0 → 32 ≤ next)
    (scalar : bits = 13 → next < 32) :
    ∃ p, lead? start (UInt8.ofNat (bits + 0xE0)) = some p ∧ p.Awaits 2 bits next := by
  by_cases least : bits = 0
  · subst least
    refine ⟨_, rfl, rfl, rfl, ?_, ?_⟩
    · show 0xA0 ≤ next + 0x80
      have := long rfl
      omega
    · show next + 0x80 ≤ 0xBF
      omega
  by_cases surrogates : bits = 13
  · subst surrogates
    refine ⟨_, rfl, rfl, rfl, ?_, ?_⟩
    · show 0x80 ≤ next + 0x80
      omega
    · show next + 0x80 ≤ 0x9F
      have := scalar rfl
      omega
  have value : (UInt8.ofNat (bits + 0xE0)).toNat = bits + 0xE0 := toNat_ofNat (by omega)
  have longer : ¬ (0xC2 ≤ bits + 0xE0 && bits + 0xE0 ≤ 0xDF) = true := by
    rw [Bool.and_eq_true, decide_eq_true_eq, decide_eq_true_eq]
    omega
  have range : (0xE1 ≤ bits + 0xE0 && bits + 0xE0 ≤ 0xEF) = true := by
    rw [Bool.and_eq_true, decide_eq_true_eq, decide_eq_true_eq]
    omega
  rw [lead?, value, if_neg longer, if_neg (by omega), if_neg (by omega), if_pos range,
    Nat.add_sub_cancel]
  exact ⟨_, rfl, Pending.awaits_tail _ small⟩

/-- The second byte leaves out overlong forms and what lies beyond the last code point. -/
theorem lead?_four (fits : bits < 5) (small : next < 64) (long : bits = 0 → 16 ≤ next)
    (valid : bits = 4 → next < 16) :
    ∃ p, lead? start (UInt8.ofNat (bits + 0xF0)) = some p ∧ p.Awaits 3 bits next := by
  by_cases least : bits = 0
  · subst least
    refine ⟨_, rfl, rfl, rfl, ?_, ?_⟩
    · show 0x90 ≤ next + 0x80
      have := long rfl
      omega
    · show next + 0x80 ≤ 0xBF
      omega
  by_cases most : bits = 4
  · subst most
    refine ⟨_, rfl, rfl, rfl, ?_, ?_⟩
    · show 0x80 ≤ next + 0x80
      omega
    · show next + 0x80 ≤ 0x8F
      have := valid rfl
      omega
  have between : bits = 1 ∨ bits = 2 ∨ bits = 3 := by omega
  rcases between with rfl | rfl | rfl
  · exact ⟨_, rfl, Pending.awaits_tail _ small⟩
  · exact ⟨_, rfl, Pending.awaits_tail _ small⟩
  · exact ⟨_, rfl, Pending.awaits_tail _ small⟩

end FirstBytes

theorem lead?_of_small {start : Nat} {b : UInt8} (h : b.toNat < 0x80) : lead? start b = none := by
  simp only [lead?, Bool.and_eq_true, decide_eq_true_eq]
  repeat rw [if_neg (by omega)]

theorem decodeFrom_first {position : Nat} {b : UInt8} {bs : List UInt8} {p : Pending}
    (h : lead? position b = some p) :
    decodeFrom position none (b :: bs) = decodeFrom (position + 1) (some p) bs := by
  have long : ¬ b < 0x80 := by
    intro short
    rw [lead?_of_small (UInt8.lt_iff_toNat_lt.mp short)] at h
    cases h
  rw [decodeFrom, if_neg long, h]

theorem decodeFrom_character (position : Nat) (c : Char) (rest : List UInt8) :
    ∃ after, decodeFrom position none (String.utf8EncodeChar c ++ rest) =
      (decodeFrom after none rest).push c := by
  have valid : c.val.toNat < 0xD800 ∨ 0xDFFF < c.val.toNat ∧ c.val.toNat < 0x110000 := c.valid
  have made {n : Nat} (h : n = c.val.toNat) : Char.ofNat n = c := h ▸ Char.ofNat_toNat c
  fun_cases String.utf8EncodeChar c with
  | case1 n short =>
    have value : (UInt8.ofNat n).toNat = n := toNat_ofNat (by omega)
    have below : UInt8.ofNat n < 0x80 := by
      rw [UInt8.lt_iff_toNat_lt, value]
      exact Nat.lt_succ_of_le short
    show ∃ after, decodeFrom position none (UInt8.ofNat n :: rest) = _
    rw [decodeFrom, if_pos below, value, made rfl]
    exact ⟨_, rfl⟩
  | case2 n _ short =>
    have first : n / 64 % 0x20 = n / 64 := Nat.mod_eq_of_lt (by omega)
    have small : n % 64 < 64 := Nat.mod_lt _ (by decide)
    obtain ⟨p, lead, awaits⟩ := @lead?_two position (n / 64) (n % 64) (by omega) (by omega) small
    rw [first]
    show ∃ after, decodeFrom position none (_ :: tailByte (n % 64) :: rest) = _
    rw [decodeFrom_first lead, awaits.last small, made (by omega)]
    exact ⟨_, rfl⟩
  | case3 n _ _ short =>
    have first : n / 4096 % 0x10 = n / 4096 := Nat.mod_eq_of_lt (by omega)
    have small : n / 64 % 64 < 64 := Nat.mod_lt _ (by decide)
    have small' : n % 64 < 64 := Nat.mod_lt _ (by decide)
    obtain ⟨p, lead, awaits⟩ := @lead?_three position (n / 4096) (n / 64 % 64) (by omega) small
      (by omega) (by omega)
    obtain ⟨q, awaits', read⟩ := awaits.more small small'
    rw [first]
    show ∃ after, decodeFrom position none
      (_ :: tailByte (n / 64 % 64) :: tailByte (n % 64) :: rest) = _
    rw [decodeFrom_first lead, read, awaits'.last small', made (by omega)]
    exact ⟨_, rfl⟩
  | case4 n _ _ large =>
    have first : n / 262144 % 0x08 = n / 262144 := Nat.mod_eq_of_lt (by omega)
    have small : n / 4096 % 64 < 64 := Nat.mod_lt _ (by decide)
    have small' : n / 64 % 64 < 64 := Nat.mod_lt _ (by decide)
    have small'' : n % 64 < 64 := Nat.mod_lt _ (by decide)
    obtain ⟨p, lead, awaits⟩ := @lead?_four position (n / 262144) (n / 4096 % 64) (by omega) small
      (by omega) (by omega)
    obtain ⟨q, awaits', read⟩ := awaits.more small small'
    obtain ⟨r, awaits'', read'⟩ := awaits'.more small' small''
    rw [first]
    show ∃ after, decodeFrom position none
      (_ :: tailByte (n / 4096 % 64) :: tailByte (n / 64 % 64) :: tailByte (n % 64) :: rest) = _
    rw [decodeFrom_first lead, read, read', awaits''.last small'', made (by omega)]
    exact ⟨_, rfl⟩

theorem decodeFrom_flatMap (position : Nat) (cs : List Char) :
    decodeFrom position none (cs.flatMap String.utf8EncodeChar) = ⟨cs, none⟩ := by
  induction cs generalizing position with
  | nil => rfl
  | cons c cs ih =>
    obtain ⟨after, read⟩ := decodeFrom_character position c (cs.flatMap String.utf8EncodeChar)
    rw [List.flatMap_cons, read, ih]
    rfl

/-- The bytes of a text decode to the text. -/
theorem decode_toUTF8 (text : String) : decode text.toUTF8.data.toList = ⟨text.toList, none⟩ := by
  have bytes : text.toUTF8.data.toList = text.toList.flatMap String.utf8EncodeChar := by
    rw [String.toUTF8_eq_toByteArray, ← String.utf8Encode_toList, List.utf8Encode,
      List.toList_data_toByteArray]
  rw [bytes, decode, decodeFrom_flatMap]

end Clausal.Text
