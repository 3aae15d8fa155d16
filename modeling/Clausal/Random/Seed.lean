namespace Clausal.Random

def wordSize : Nat := 0x100000000

/-- The low half of a word, mixed with the high half. -/
def fold (v : UInt32) : UInt32 :=
  v ^^^ (v >>> 16)

/-- A word hashed by a multiplier, and the next multiplier. -/
def hash (factor h v : UInt32) : UInt32 × UInt32 :=
  let h' := h * factor
  (fold ((v ^^^ h) * h'), h')

def poolFactor : UInt32 := 0x931e8875
def drawFactor : UInt32 := 0x58f38ded

def mix (x y : UInt32) : UInt32 :=
  fold (0xca01f9dd * x - 0x4973f715 * y)

/-- The 32-bit words of a number, the least significant first. Zero has one word. -/
def wordsOf (n : Nat) : List UInt32 :=
  if n < wordSize then [UInt32.ofNat n] else UInt32.ofNat n :: wordsOf (n / wordSize)
termination_by n
decreasing_by simp only [wordSize] at *; omega

/-- A pool of four words, with the next multiplier of the hash. -/
structure Pool where
  words : List UInt32
  multiplier : UInt32

namespace Pool

def push (p : Pool) (v : UInt32) : Pool :=
  let (v, h) := hash poolFactor p.multiplier v
  ⟨p.words ++ [v], h⟩

def mixInto (p : Pool) (place : Nat) (v : UInt32) : Pool :=
  let (v, h) := hash poolFactor p.multiplier v
  ⟨p.words.modify place (fun x => mix x v), h⟩

def places : List Nat := [0, 1, 2, 3]

/-- Mixes every word of the pool into the three others. -/
def stir (p : Pool) : Pool :=
  places.foldl (fun p source =>
    (places.filter (· != source)).foldl
      (fun p place => p.mixInto place (p.words.getD source 0)) p) p

def absorb (p : Pool) (v : UInt32) : Pool :=
  places.foldl (fun p place => p.mixInto place v) p

def ofSeed (seed : Nat) : Pool :=
  let words := wordsOf seed
  let start := (places.map (fun i => words.getD i 0)).foldl push ⟨[], 0x43b0d7e5⟩
  (words.drop 4).foldl absorb start.stir

/-- Draws `n` words out of the pool, going round it. -/
def draw (p : Pool) (h : UInt32) (place : Nat) : Nat → List UInt32
  | 0 => []
  | n + 1 =>
    let (v, h) := hash drawFactor h (p.words.getD (place % 4) 0)
    v :: p.draw h (place + 1) n

end Pool

/-- Pairs of 32-bit words as numbers of 64 bits, the low word first. -/
def joinPairs : List UInt32 → List Nat
  | low :: high :: rest => (low.toNat + wordSize * high.toNat) :: joinPairs rest
  | _ => []

def seedNumbers (seed : Nat) : List Nat :=
  joinPairs ((Pool.ofSeed seed).draw 0x8b51f9dd 0 8)

end Clausal.Random
