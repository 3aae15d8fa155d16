import Clausal.Numeral

namespace Clausal.Decimal

open Text

/-- Digits of other scripts become ASCII digits; what is no digit stays as it is. -/
def plainDigit (c : Char) : Char :=
  match digit? c with
  | some d => Nat.digitChar d
  | none => c

def isDigit (c : Char) : Bool :=
  '0' ≤ c && c ≤ '9'

/-- Removes the underscores, each of which must stand between two digits. -/
def joinDigits? : List Char → Option (List Char)
  | [] => some []
  | ['_'] => none
  | c :: '_' :: d :: cs =>
    if isDigit c && isDigit d then (joinDigits? (d :: cs)).map (c :: ·) else none
  | c :: cs => if c == '_' then none else (joinDigits? cs).map (c :: ·)

def digitsValue (cs : List Char) : Nat :=
  Numeral.value (cs.map (fun c => c.toNat - '0'.toNat))

/-- The exponent after its mark, which needs at least one digit. -/
def exponent? : List Char → Option Int
  | [] => some 0
  | mark :: cs =>
    if mark == 'e' || mark == 'E' then
      let (negative, ds) := match cs with
        | '-' :: ds => (true, ds)
        | '+' :: ds => (false, ds)
        | ds => (false, ds)
      if ds.isEmpty || !ds.all isDigit then none
      else some (if negative then -(digitsValue ds : Int) else digitsValue ds)
    else none

/-- `n * 10 ^ e`. Beyond four hundred places all numbers are infinite or zero. -/
def scaled (n : Nat) (e : Int) : Float :=
  let places : Int := (Numeral.digits n).length + e
  if n = 0 || places < -400 then 0
  else if 400 < places then 1 / 0
  else if e < 0 then Float.ofScientific n true (-e).toNat
  else Float.ofScientific n false e.toNat

def readMagnitude? (cs : List Char) : Option Float :=
  let whole := cs.takeWhile isDigit
  let (part, rest) := match cs.dropWhile isDigit with
    | '.' :: rest => (rest.takeWhile isDigit, rest.dropWhile isDigit)
    | rest => ([], rest)
  if whole.isEmpty && part.isEmpty then none
  else (exponent? rest).map (fun e => scaled (digitsValue (whole ++ part)) (e - part.length))

def readWord? (cs : List Char) : Option Float :=
  let word := String.ofList (cs.map Char.toLower)
  if word == "inf" || word == "infinity" then some (1 / 0)
  else if word == "nan" then some (0 / 0)
  else none

def readUnsigned? (cs : List Char) : Option Float :=
  match readWord? cs with
  | some x => some x
  | none => readMagnitude? cs

def readFloat? (cs : List Char) : Option Float :=
  match joinDigits? ((trimWhere Numeral.isPadding cs).map plainDigit) with
  | none => none
  | some ('-' :: cs) => (readUnsigned? cs).map (fun x => -x)
  | some ('+' :: cs) => readUnsigned? cs
  | some cs => readUnsigned? cs

end Clausal.Decimal
