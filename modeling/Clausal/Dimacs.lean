import Clausal.Formula.Input
import Clausal.Numeral
import Clausal.Text.Lines

namespace Clausal.Dimacs

open Text

inductive Fault where
  | notANumber
  | noTerminator
  | innerTerminator
  /-- A number could not be made a literal. -/
  | literal (e : InputError)

structure ParseError where
  fault : Fault
  lineNumber : Nat
  line : String

/-- The numbers before the zero that ends the clause. -/
def literalNumbers (numbers : List Int) : Except Fault (List Int) :=
  match numbers.getLast? with
  | some 0 =>
    if numbers.dropLast.contains 0 then .error .innerTerminator else .ok numbers.dropLast
  | _ => .error .noTerminator

def parseClause (line : List Char) : Except Fault (Clause Variable) :=
  match (words line).mapM Numeral.read? with
  | none => .error .notANumber
  | some numbers =>
    (literalNumbers numbers).bind fun ns => (ns.mapM Item.ofInt).mapError .literal

inductive LineKind where
  | skipped
  | stop
  | clause
  deriving DecidableEq

def lineKind : List Char → LineKind
  | [] => .skipped
  | ['%'] => .stop
  | c :: _ => if c == 'c' || c == 'p' then .skipped else .clause

/-- The clauses of the lines, of which the first has the given number. -/
def parseFrom (number : Nat) : List (List Char) → Except ParseError (List (Clause Variable))
  | [] => .ok []
  | l :: ls =>
    let line := trim l
    match lineKind line with
    | .skipped => parseFrom (number + 1) ls
    | .stop => .ok []
    | .clause =>
      match parseClause line with
      | .error fault => .error ⟨fault, number, String.ofList line⟩
      | .ok c => (parseFrom (number + 1) ls).map (c :: ·)

def parseLines (lines : List (List Char)) : Except ParseError (Formula Variable) :=
  (parseFrom 1 lines).map (fun clauses => .ofClauses clauses none)

def parseText (text : String) : Except ParseError (Formula Variable) :=
  parseLines (lines endsTextLine text.toList)

end Clausal.Dimacs
