import Clausal.Formula.Input

namespace Clausal.Pigeonhole

/-- The variable that says that the pigeon sits in the hole. -/
def number (holes pigeon hole : Nat) : Int :=
  (pigeon * holes + hole + 1 : Nat)

/-- The pairs of numbers below `n`, the smaller one first. -/
def pairsBelow (n : Nat) : List (Nat × Nat) :=
  (List.range n).flatMap fun i =>
    ((List.range n).drop (i + 1)).map fun j => (i, j)

def clauses (pigeons holes : Nat) : List (List Int) :=
  (List.range pigeons).map (fun p => (List.range holes).map (number holes p)) ++
    (List.range holes).flatMap fun h =>
      (pairsBelow pigeons).map fun (p, q) => [-number holes p h, -number holes q h]

/-- A negative count counts as none. -/
def formula (pigeons holes : Int) : Formula.Built :=
  Formula.ofSigned (clauses pigeons.toNat holes.toNat) none

end Clausal.Pigeonhole
