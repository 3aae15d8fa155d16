import Clausal.Random.Seed

namespace Clausal.Random

def factor : Nat := 0x2360ED051FC65DA44385DF649FCCF645

def longSize : Nat := wordSize * wordSize

def stateSize : Nat := longSize * longSize

/-- The state, the odd increment, and the half of the last number that is not used yet. -/
structure Generator where
  state : Nat
  increment : Nat
  half : Option UInt32

namespace Generator

def step (g : Generator) : Generator :=
  { g with state := (g.state * factor + g.increment) % stateSize }

def ofSeed (seed : Nat) : Generator :=
  let a := seedNumbers seed
  let number (i : Nat) := a.getD i 0
  let increment := (2 * (number 2 * longSize + number 3) + 1) % stateSize
  let g := step ⟨0, increment, none⟩
  step { g with state := (g.state + (number 0 * longSize + number 1)) % stateSize }

def rotate (n places : Nat) : Nat :=
  (n >>> places ||| n <<< (64 - places)) % longSize

def next64 (g : Generator) : Nat × Generator :=
  let g := g.step
  (rotate ((g.state >>> 64) ^^^ (g.state % longSize)) (g.state >>> 122), g)

/-- Each number of 64 bits gives two of 32, the low one first. -/
def next32 (g : Generator) : Nat × Generator :=
  match g.half with
  | some n => (n.toNat, { g with half := none })
  | none =>
    let (n, g) := g.next64
    (n % wordSize, { g with half := some (UInt32.ofNat (n >>> 32)) })

/-- Draws again while the low word is below the threshold, at most as often as given. -/
def retry (bound threshold : Nat) (g : Generator) (m : Nat) : Nat → Nat × Generator
  | 0 => (m, g)
  | attempts + 1 =>
    if m % wordSize < threshold then
      let (n, g) := g.next32
      g.retry bound threshold (n * bound) attempts
    else (m, g)

/-- How often a draw is repeated at most. Each repetition is less likely than not, so that the limit
is out of reach. -/
def attemptLimit : Nat := 1024

/-- A number below the bound, each equally likely. A bound of one draws nothing. -/
def below (g : Generator) (bound : Nat) : Nat × Generator :=
  if bound ≤ 1 then (0, g)
  else
    let (n, g) := g.next32
    let threshold := (wordSize - bound) % bound
    let (m, g) := g.retry bound threshold (n * bound) attemptLimit
    (m >>> 32, g)

end Generator
end Clausal.Random
