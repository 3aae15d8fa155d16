import Clausal.Instance.RandomClauses
import Clausal.Random.Generator

namespace Clausal.Random

/-- One of the numbers up to `last`; if it was drawn before, `last` itself. -/
def addPlace (chosen : List Nat) (last : Nat) (g : Generator) : List Nat × Generator :=
  let (v, g) := g.below (last + 1)
  (chosen ++ [if chosen.contains v then last else v], g)

/-- Swaps the items from the last one down to `first` with one that is not behind them. -/
def shuffle (first : Nat) (xs : Array Nat) (g : Generator) : Array Nat × Generator :=
  (List.range' first (xs.size - first)).reverse.foldl
    (fun (xs, g) i =>
      let (j, g) := Generator.below g (i + 1)
      (xs.swapIfInBounds i j, g))
    (xs, g)

/-- Up to this number of places they are always drawn one by one. -/
def wideLimit : Nat := 10000

/-- The least part of many places that is drawn by shuffling them. -/
def wideShare : Nat := 50

/-- A large part of many places is taken from the end of a shuffled list of all. Otherwise places
are drawn one by one, and what was drawn is shuffled. -/
def drawPlaces (count k : Nat) (g : Generator) : List Nat × Generator :=
  let rest := count - k
  if wideLimit < count ∧ count / wideShare < k then
    let (items, g) := shuffle (max rest 1) (Array.range count) g
    (items.toList.drop rest, g)
  else
    let (chosen, g) := ((List.range count).drop rest).foldl
      (fun (chosen, g) last => addPlace chosen last g) ([], g)
    let (items, g) := shuffle 1 chosen.toArray g
    (items.toList, g)

def drawBits : Nat → Generator → List Nat × Generator
  | 0, g => ([], g)
  | n + 1, g =>
    let (bit, g) := g.below 2
    let (bits, g) := drawBits n g
    (bit :: bits, g)

/-- Without a seed the entropy is the seed. -/
def rng (entropy : Nat) : RandomClauses.Rng Generator where
  start
    | none => .ok (.ofSeed entropy)
    | some seed => if seed < 0 then .error .negativeSeed else .ok (.ofSeed seed.toNat)
  places := drawPlaces
  bits := drawBits

end Clausal.Random
