import Clausal.Formula
import Clausal.Pairs

namespace Clausal

inductive Polarity where
  | unknown
  | positive
  | negative
  | mixed
  deriving DecidableEq

namespace Polarity

def ofSign (sign : Bool) : Polarity :=
  if sign then positive else negative

/-- The least upper bound: `unknown` is below and `mixed` above everything. -/
def join (p q : Polarity) : Polarity :=
  if p = q ∨ q = unknown then p
  else if p = unknown then q
  else mixed

def isPure : Polarity → Bool
  | positive | negative => true
  | _ => false

def name : Polarity → String
  | unknown => "unknown"
  | positive => "positive"
  | negative => "negative"
  | mixed => "mixed"

end Polarity

/-- The polarity of each variable, in order of first occurrence. -/
abbrev Polarities (V : Type) := List (V × Polarity)

variable {V : Type} [BEq V]

def Polarities.record (pols : Polarities V) (l : Literal V) : Polarities V :=
  put pols l.var (((find? pols l.var).getD .unknown).join (.ofSign l.sign))

def Polarities.isConsistent (pols : Polarities V) : Bool :=
  pols.all (fun entry => entry.2.isPure)

/-- The signs of a consistent formula, read as values. -/
def Polarities.assignment (pols : Polarities V) : Assignment V :=
  pols.map (fun entry => (entry.1, entry.2 = .positive))

def Formula.polarities (f : Formula V) : Polarities V :=
  f.clauses.foldl (fun pols c => c.foldl Polarities.record pols) []

def Clause.polarity (v : V) (c : Clause V) : Polarity :=
  c.foldl (fun pol l => if l.var == v then pol.join (.ofSign l.sign) else pol) .unknown

end Clausal
