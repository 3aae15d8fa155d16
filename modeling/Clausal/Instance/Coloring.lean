import Clausal.Instance.Pigeonhole

namespace Clausal.Coloring

open Pigeonhole (pairsBelow)

/-- The variable that says that the vertex has the colour. -/
def number (colors : Nat) (vertex : Int) (color : Nat) : Int :=
  vertex * colors + color + 1

def insertVertex (v : Int) : List Int → List Int
  | [] => [v]
  | w :: ws =>
    if v < w then v :: w :: ws
    else if v = w then w :: ws
    else w :: insertVertex v ws

/-- The ends of the edges in ascending order, each of them once. -/
def vertices (edges : List (List Int)) : List Int :=
  edges.flatten.foldr insertVertex []

def vertexClauses (colors : Nat) (v : Int) : List (List Int) :=
  (List.range colors).map (number colors v) ::
    (pairsBelow colors).map fun (c, d) => [-number colors v c, -number colors v d]

def edgeClauses (colors : Nat) : List Int → Except InputError (List (List Int))
  | [v, w] => .ok ((List.range colors).map fun c => [-number colors v c, -number colors w c])
  | [] => .error (.tooFewParts 0)
  | [_] => .error (.tooFewParts 1)
  | _ => .error .tooManyParts

def clauses (edges : List (List Int)) (colors : Nat) : Except InputError (List (List Int)) := do
  let perEdge ← edges.mapM (edgeClauses colors)
  return (vertices edges).flatMap (vertexClauses colors) ++ perEdge.flatten

/-- A negative count of colours counts as none. -/
def formula (edges : List (List Int)) (colors : Int) : Formula.Built :=
  match clauses edges colors.toNat with
  | .error e => ⟨.error e, []⟩
  | .ok clauses => Formula.ofSigned clauses none

def edgesOfInput (edges : Listing (Listing Int)) : Except InputError (List (List Int)) :=
  (edges.toList (fun _ => .items [])).bind (fun edges =>
    edges.mapM (fun edge => edge.toList (fun _ => 0)))

/-- All edges are read before their ends are counted. -/
def ofInput (edges : Listing (Listing Int)) (colors : Int) : Formula.Built :=
  match edgesOfInput edges with
  | .error e => ⟨.error e, []⟩
  | .ok edges => formula edges colors

end Clausal.Coloring
