import Clausal.Formula

namespace Clausal

/-- What is neither a list nor a text. -/
inductive Scalar where
  | whole
  | truth
  | empty
  | real
  deriving DecidableEq

inductive InputError where
  | zeroLiteral
  | tooFewParts (n : Nat)
  | tooManyParts
  | notAPair (s : Scalar)
  | notAList (s : Scalar)
  deriving DecidableEq

inductive Item where
  | number (n : Int)
  | text (s : String)
  | scalar (s : Scalar)
  | tuple (parts : List Variable)
  | literal (l : Literal Variable)

/-- A text stands for the list of its characters. -/
inductive Listing (A : Type) where
  | items (xs : List A)
  | text (s : String)
  | scalar (s : Scalar)

def Listing.toList {A : Type} (ofText : String → A) : Listing A → Except InputError (List A)
  | items xs => .ok xs
  | text s => .ok (s.toList.map (fun c => ofText c.toString))
  | scalar s => .error (.notAList s)

theorem ok_of_bind {E A B : Type} {x : Except E A} {next : A → Except E B} {b : B}
    (h : x >>= next = .ok b) : ∃ a, x = .ok a ∧ next a = .ok b := by
  cases x with
  | error e => cases h
  | ok a => exact ⟨a, rfl, h⟩

namespace Item

/-- Of the two parts the second is the sign, which holds if it counts as true. -/
def ofParts : List Variable → Except InputError (Literal Variable)
  | [v, sign] => .ok ⟨v, sign.countsAsTrue⟩
  | [] => .error (.tooFewParts 0)
  | [_] => .error (.tooFewParts 1)
  | _ => .error .tooManyParts

def ofInt (n : Int) : Except InputError (Literal Variable) :=
  match Literal.ofInt? n with
  | some l => .ok l
  | none => .error .zeroLiteral

def toLiteral : Item → Except InputError (Literal Variable)
  | number n => ofInt n
  | text s => ofParts (s.toList.map (fun c => .text c.toString))
  | scalar s => .error (.notAPair s)
  | tuple parts => ofParts parts
  | literal l => .ok l

/-- A pair of a variable and a value has the form of a literal, but a number is no pair. -/
def toPair : Item → Except InputError (Variable × Bool)
  | number _ => .error (.notAPair .whole)
  | item => item.toLiteral.map (fun l => (l.var, l.sign))

end Item

def assignmentOfInput (pairs : Listing Item) : Except InputError (Assignment Variable) :=
  (pairs.toList .text).bind (fun items => items.mapM Item.toPair)

def clauseOfInput (clause : Listing Item) : Except InputError (Clause Variable) :=
  (clause.toList .text).bind (fun items => items.mapM Item.toLiteral)

namespace Formula

structure Built where
  outcome : Except InputError (Formula Variable)
  events : List (Event Variable)

def buildReported (clauses : List (Clause Variable)) (vars declared : Option (List Variable)) :
    Built :=
  ⟨.ok (build clauses vars declared), buildReport clauses vars⟩

def variablesOfInput : Option (Listing Variable) → Except InputError (Option (List Variable))
  | none => .ok none
  | some vs => (vs.toList .text).map some

/-- Every literal is read before the list of variables is looked at. -/
def ofInput (clauses : Listing (Listing Item)) (vars : Option (Listing Variable)) : Built :=
  let read := do
    let clauses ← clauses.toList Listing.text
    let clauses ← clauses.mapM clauseOfInput
    let vars ← variablesOfInput vars
    return (clauses.map distinct, vars)
  match read with
  | .error e => ⟨.error e, []⟩
  | .ok (clauses, vars) => buildReported clauses vars none

/-- A formula whose clauses are taken as they are. -/
def ofRaw (clauses : List (Clause Variable)) (vars declared : Option (Listing Variable)) :
    Built :=
  match variablesOfInput vars with
  | .error e => ⟨.error e, []⟩
  | .ok vars =>
    match variablesOfInput declared with
    | .error e => ⟨.error e, buildReport clauses vars⟩
    | .ok declared => buildReported clauses vars declared

def ofSigned (clauses : List (List Int)) (vars : Option (List Variable)) : Built :=
  match clauses.mapM (fun c => c.mapM Item.ofInt) with
  | .error e => ⟨.error e, []⟩
  | .ok clauses => buildReported (clauses.map distinct) vars none

end Formula
end Clausal
