import Clausal.Report
import Clausal.Source

namespace Clausal.Session

inductive Edit where
  | assign (v : Variable) (value : Bool)
  | evaluate (pairs : Listing Item)
  | freeVariables
  | reconcile
  | hasEmptyClause
  | clauseCount
  | variableCount
  | inspect
  | text
  | clauseText (place : Int)
  | hash
  | appendClause (c : Listing (Literal Variable))
  | appendLiteral (place : Int) (l : Literal Variable)
  | removeClause (place : Int)
  | setVariables (vs : Listing Variable)
  | clausePolarity (v : Variable) (place : Int)
  | variablePolarity (v : Variable)
  | unknownVariables
  | eliminateTautologies
  | propagateUnits
  | firstModel

inductive Reply where
  | nothing
  | truth (b : Bool)
  | count (n : Nat)
  | text (s : String)
  | form (s : Option String)
  | vars (vs : List Variable)
  | assignment (pairs : Option (Assignment Variable))
  | clause (c : Clause Variable)
  | polarity (p : Polarity)
  | polarities (pols : Polarities Variable)
  | result (r : Result Variable)
  | stats (s : Stats)

structure Edited where
  formula : Formula Variable
  reply : Except Failure Reply
  events : List (Event Variable) := []

/-- The position of a place in a list of the given length. Negative places count from the end. -/
def position? (length : Nat) (place : Int) : Option Nat :=
  let i := if place < 0 then place + length else place
  if 0 ≤ i ∧ i < length then some i.toNat else none

/-- One more than the largest place that can be asked for. -/
def placeLimit : Int := 0x8000000000000000

def absence (place : Int) : PlaceError :=
  if -placeLimit ≤ place ∧ place < placeLimit then .outOfRange else .tooLarge

def item? {A : Type} (xs : List A) (place : Int) : Option A :=
  (position? xs.length place).bind (fun i => xs[i]?)

def simplified (s : Simplified Variable) : Edited :=
  ⟨s.formula, .ok (.assignment s.decided), s.events⟩

def appendLiteral (f : Formula Variable) (place : Int) (l : Literal Variable) : Edited :=
  match position? f.clauses.length place with
  | some i =>
    ⟨{ f with clauses := f.clauses.modify i (fun c => c ++ [l]) }, .ok .nothing, []⟩
  | none => ⟨f, .error (.place (absence place)), []⟩

def removeClause (f : Formula Variable) (place : Int) : Edited :=
  match position? f.clauses.length place, item? f.clauses place with
  | some i, some c => ⟨{ f with clauses := f.clauses.eraseIdx i }, .ok (.clause c), []⟩
  | _, _ =>
    ⟨f, .error (.place (if f.clauses.isEmpty then .removalFromEmpty else .removalOutOfRange)), []⟩

def ofClause (f : Formula Variable) (place : Int) (reply : Clause Variable → Reply) : Edited :=
  match item? f.clauses place with
  | some c => ⟨f, .ok (reply c), []⟩
  | none => ⟨f, .error (.place (absence place)), []⟩

def withInput {A : Type} (f : Formula Variable) (input : Except InputError A) (act : A → Edited) :
    Edited :=
  match input with
  | .ok a => act a
  | .error e => ⟨f, .error (.input e), []⟩

def Edit.run (f : Formula Variable) : Edit → Edited
  | assign v value =>
    let (g, consistent) := f.assign v value
    ⟨g, .ok (.truth consistent), []⟩
  | evaluate pairs => withInput f (assignmentOfInput pairs) fun pairs =>
    match f.evaluate pairs with
    | .ok b => ⟨f, .ok (.truth b), []⟩
    | .error v => ⟨f, .error (.unassigned v), []⟩
  | freeVariables => ⟨f, .ok (.vars f.freeVariables), []⟩
  | reconcile => ⟨f.reconcile, .ok .nothing, []⟩
  | hasEmptyClause => ⟨f, .ok (.truth f.hasEmptyClause), []⟩
  | clauseCount => ⟨f, .ok (.count f.clauses.length), []⟩
  | variableCount => ⟨f, .ok (.count f.vars.length), []⟩
  | inspect => ⟨f, .ok (.text f.inspect), []⟩
  | text => ⟨f, .ok (.text f.text), []⟩
  | clauseText place => ofClause f place (fun c => .text c.text)
  | hash => ⟨f, .error .unhashable, []⟩
  | appendClause c => withInput f (c.toList (fun s => ⟨.text s, true⟩)) fun c =>
    ⟨{ f with clauses := f.clauses ++ [c] }, .ok .nothing, []⟩
  | appendLiteral place l => Session.appendLiteral f place l
  | removeClause place => Session.removeClause f place
  | setVariables vs => withInput f (vs.toList .text) fun vs =>
    ⟨{ f with vars := vs }, .ok .nothing, []⟩
  | clausePolarity v place => ofClause f place (fun c => .polarity (c.polarity v))
  | variablePolarity v =>
    let (pol, g) := f.variablePolarity v
    ⟨g, .ok (.polarity pol), []⟩
  | unknownVariables => ⟨f, .ok (.vars f.unknownVariables), f.unknownReport⟩
  | eliminateTautologies =>
    ⟨f.eliminateTautologies, .ok (.vars f.unknownVariables), f.unknownReport⟩
  | propagateUnits => simplified f.propagateUnits
  | firstModel => ⟨f, (f.firstModel.mapError .ofTable).map .assignment, []⟩

end Clausal.Session
