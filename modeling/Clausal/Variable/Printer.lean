import Clausal.Numeral
import Clausal.Variable
import Clausal.Text.Quoted

namespace Clausal

def bracketed (items : List String) : String :=
  "[" ++ ", ".intercalate items ++ "]"

def truthText (b : Bool) : String :=
  if b then "True" else "False"

namespace Variable

/-- A tuple of one part keeps a comma behind it. -/
def tupled : List String → String
  | [item] => "(" ++ item ++ ",)"
  | items => "(" ++ ", ".intercalate items ++ ")"

mutual

def inspect : Variable → String
  | number n => Numeral.text n
  | text s => Text.quoted s
  | truth b => truthText b
  | empty => "None"
  | tuple parts => tupled (inspectParts parts)

def inspectParts : List Variable → List String
  | [] => []
  | x :: xs => inspect x :: inspectParts xs

end

/-- A text is shown without quotes, all else as in a list. -/
def display : Variable → String
  | text s => s
  | x => x.inspect

/-- The name in a formula: numbers and truth values carry an `x`. -/
def name (x : Variable) : String :=
  match x with
  | number _ | truth _ => "x" ++ x.display
  | _ => x.display

def inspectAll (xs : List Variable) : String :=
  bracketed (xs.map inspect)

end Variable
end Clausal
