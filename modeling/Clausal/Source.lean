import Clausal.Failure

namespace Clausal

inductive Source where
  | pigeonhole (pigeons holes : Int)
  | coloring (edges : Listing (Listing Int)) (colors : Int)
  | random (vars clauses width : Int) (seed : Option Int)
  | text (s : String)
  | raw (clauses : List (Clause Variable)) (vars declared : Option (Listing Variable))
  | clauses (clauses : Listing (Listing Item)) (vars : Option (Listing Variable))

/-- A formula or the reason why there is none, and what was reported on the way. -/
structure Made where
  outcome : Except Failure (Formula Variable)
  events : List (Event Variable)

def Made.ofBuilt (b : Formula.Built) : Made :=
  ⟨b.outcome.mapError .input, b.events⟩

def Made.ofText (s : String) : Made :=
  ⟨(Dimacs.parseText s).mapError .malformed, []⟩

def Source.make {G : Type} (rng : RandomClauses.Rng G) : Source → Made
  | pigeonhole pigeons holes => .ofBuilt (Pigeonhole.formula pigeons holes)
  | coloring edges colors => .ofBuilt (Coloring.ofInput edges colors)
  | random vars count width seed =>
    match RandomClauses.formula rng vars count width seed with
    | .error e => ⟨.error (.random e), []⟩
    | .ok built => .ofBuilt built
  | text s => .ofText s
  | raw cs vs declared => .ofBuilt (Formula.ofRaw cs vs declared)
  | clauses cs vs => .ofBuilt (Formula.ofInput cs vs)

end Clausal
