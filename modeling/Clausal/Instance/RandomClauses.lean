import Clausal.Formula.Input

namespace Clausal.RandomClauses

/-- The items drawn for one clause: places below the number of variables, and a sign bit for
each. -/
structure Draw where
  places : List Nat
  signs : List Nat

def Draw.clause (d : Draw) : List Int :=
  List.zipWith (fun (place sign : Nat) => ((place + 1 : Nat) : Int) * (2 * sign - 1))
    d.places d.signs

inductive RequestError where
  | width (k vars : Int)
  | negativeSeed

/-- What random numbers are drawn with. It starts from a seed, or from what it finds if there is
none, and draws some of as many places, or some bits. -/
structure Rng (G : Type) where
  start : Option Int → Except RequestError G
  places : Nat → Nat → G → List Nat × G
  bits : Nat → G → List Nat × G

/-- The formula of the draws. All variables up to the given number are declared. -/
def ofDraws (vars : Nat) (draws : List Draw) : Formula.Built :=
  Formula.ofSigned (draws.map Draw.clause)
    (some ((List.range vars).map (fun i => .number (i + 1 : Nat))))

variable {G : Type} (rng : Rng G)

def drawClause (vars k : Nat) (g : G) : Draw × G :=
  let (places, g) := rng.places vars k g
  let (signs, g) := rng.bits k g
  (⟨places, signs⟩, g)

def drawClauses (vars k : Nat) : Nat → G → List Draw
  | 0, _ => []
  | n + 1, g =>
    let (d, g) := drawClause rng vars k g
    d :: drawClauses vars k n g

/-- The width is checked before the seed is looked at. -/
def formula (vars clauses k : Int) (seed : Option Int) : Except RequestError Formula.Built :=
  if k ≤ 0 ∨ vars < k then .error (.width k vars)
  else (rng.start seed).map fun g =>
    ofDraws vars.toNat (drawClauses rng vars.toNat k.toNat clauses.toNat g)

end Clausal.RandomClauses
