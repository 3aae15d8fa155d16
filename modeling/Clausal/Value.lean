import Clausal.Decimal.Shortest
import Clausal.Variable.Printer

namespace Clausal

inductive Value where
  | plain (v : Variable)
  | real (x : Float)
  | tuple (parts : List Value)
  deriving Inhabited

namespace Value

mutual

def inspect : Value → String
  | plain v => v.inspect
  | real x => Decimal.shortest x
  | tuple parts => Variable.tupled (inspectParts parts)

def inspectParts : List Value → List String
  | [] => []
  | x :: xs => inspect x :: inspectParts xs

end

def display : Value → String
  | plain v => v.display
  | x => x.inspect

def kind : Value → String
  | plain (.number _) => "int"
  | plain (.text _) => "str"
  | plain (.truth _) => "bool"
  | plain .empty => "NoneType"
  | real _ => "float"
  | plain (.tuple _) | tuple _ => "tuple"

end Value
end Clausal
