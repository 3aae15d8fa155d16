import Clausal.Text.Blank
import Clausal.Text.Digit

namespace Clausal.Numeral

open Text

def digits (n : Nat) : List Char :=
  if n < 10 then [Nat.digitChar n] else digits (n / 10) ++ [Nat.digitChar (n % 10)]

def write : Int → List Char
  | .ofNat n => digits n
  | .negSucc n => '-' :: digits (n + 1)

def text (n : Int) : String :=
  String.ofList (write n)

/-- The values of the digits. An underscore may stand between two of them. -/
def digitValues? : List Char → Option (List Nat)
  | [] => none
  | c :: cs =>
    match digit? c, cs with
    | none, _ => none
    | some d, [] => some [d]
    | some d, '_' :: rest => (digitValues? rest).map (d :: ·)
    | some d, rest => (digitValues? rest).map (d :: ·)

def value (ds : List Nat) : Nat :=
  ds.foldl (fun n d => 10 * n + d) 0

/-- The most digits that a numeral may have, leading zeros included. -/
def digitLimit : Nat := 4300

def readNat? (cs : List Char) : Option Nat :=
  match digitValues? cs with
  | some ds => if ds.length ≤ digitLimit then some (value ds) else none
  | none => none

/-- The blanks allowed around a numeral. Of the ASCII ones the separators are not. -/
def isPadding (c : Char) : Bool :=
  if c.toNat < 0x80 then (0x9 ≤ c.toNat && c.toNat ≤ 0xD) || c == ' ' else isBlank c

def readSigned? : List Char → Option Int
  | '-' :: cs => (readNat? cs).map (fun n => -(n : Int))
  | '+' :: cs => (readNat? cs).map Int.ofNat
  | cs => (readNat? cs).map Int.ofNat

def read? (cs : List Char) : Option Int :=
  readSigned? (trimWhere isPadding cs)

end Clausal.Numeral
