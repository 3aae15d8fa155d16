namespace Clausal.Text

inductive DecodeFault where
  | invalidStart
  | invalidContinuation
  | unexpectedEnd
  deriving DecidableEq

/-- The faulty bytes are those at the positions from `first` to `last`; `byte` is the first. Where
the bytes come in pieces, the fault shows with the piece that holds the position `certain`. -/
structure DecodeError where
  fault : DecodeFault
  first : Nat
  last : Nat
  byte : UInt8
  certain : Nat

/-- The error with positions that count from another place. -/
def DecodeError.countFrom (place : Nat) (e : DecodeError) : DecodeError :=
  { e with first := e.first - place, last := e.last - place, certain := e.certain - place }

/-- A character of which some bytes have been read: its first byte and position, the bits so far,
the bytes still to come, and the range of the next one. -/
structure Pending where
  start : Nat
  byte : UInt8
  bits : Nat
  missing : Nat
  low : UInt8
  high : UInt8

/-- What the first byte of a longer character promises. The range of the second byte leaves out
overlong forms, surrogates and what lies beyond the last code point. -/
def lead? (start : Nat) (b : UInt8) : Option Pending :=
  let begin (missing bits : Nat) (low high : UInt8) : Option Pending :=
    some ⟨start, b, bits, missing, low, high⟩
  let n := b.toNat
  if 0xC2 ≤ n && n ≤ 0xDF then begin 1 (n - 0xC0) 0x80 0xBF
  else if n = 0xE0 then begin 2 0 0xA0 0xBF
  else if n = 0xED then begin 2 (n - 0xE0) 0x80 0x9F
  else if 0xE1 ≤ n && n ≤ 0xEF then begin 2 (n - 0xE0) 0x80 0xBF
  else if n = 0xF0 then begin 3 0 0x90 0xBF
  else if 0xF1 ≤ n && n ≤ 0xF3 then begin 3 (n - 0xF0) 0x80 0xBF
  else if n = 0xF4 then begin 3 (n - 0xF0) 0x80 0x8F
  else none

/-- Whether a byte makes a surrogate of a character that has begun. -/
def Pending.isSurrogate (p : Pending) (b : UInt8) : Bool :=
  p.byte == 0xED && 0xA0 ≤ b && b ≤ 0xBF

structure Decoded where
  text : List Char
  error : Option DecodeError

def Decoded.push (c : Char) (d : Decoded) : Decoded :=
  { d with text := c :: d.text }

/-- A surrogate is not refused before one more byte is asked for. -/
def decodeFrom (position : Nat) : Option Pending → List UInt8 → Decoded
  | none, [] => ⟨[], none⟩
  | some p, [] => ⟨[], some ⟨.unexpectedEnd, p.start, position - 1, p.byte, position⟩⟩
  | none, b :: bs =>
    if b < 0x80 then (decodeFrom (position + 1) none bs).push (Char.ofNat b.toNat)
    else match lead? position b with
      | some p => decodeFrom (position + 1) (some p) bs
      | none => ⟨[], some ⟨.invalidStart, position, position, b, position⟩⟩
  | some p, b :: bs =>
    if p.low ≤ b && b ≤ p.high then
      let bits := 64 * p.bits + (b.toNat - 0x80)
      if p.missing = 1 then (decodeFrom (position + 1) none bs).push (Char.ofNat bits)
      else
        decodeFrom (position + 1)
          (some { p with bits := bits, missing := p.missing - 1, low := 0x80, high := 0xBF }) bs
    else
      let certain := if p.isSurrogate b then position + 1 else position
      ⟨[], some ⟨.invalidContinuation, p.start, position - 1, p.byte, certain⟩⟩

def decode (bytes : List UInt8) : Decoded :=
  decodeFrom 0 none bytes

end Clausal.Text
