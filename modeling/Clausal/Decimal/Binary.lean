namespace Clausal.Decimal

def twoTo (n : Nat) : Nat :=
  Nat.pow 2 n

def tenTo (n : Nat) : Nat :=
  Nat.pow 10 n

inductive Magnitude where
  | notANumber
  | infinite
  /-- The value is `m * 2 ^ q`. The gap below it is half the gap above it where `narrow` says so. -/
  | finite (m : Nat) (q : Int) (narrow : Bool)

def isNegative (x : Float) : Bool :=
  x.toBits >>> 63 == 1

def magnitude (x : Float) : Magnitude :=
  let bits := x.toBits.toNat
  let e : Nat := bits / twoTo 52 % twoTo 11
  let f : Nat := bits % twoTo 52
  if e = 2047 then if f = 0 then .infinite else .notANumber
  else if e = 0 then .finite f (-1074) false
  else .finite (twoTo 52 + f) (e - 1075) (f = 0 && 1 < e)

/-- The whole number nearest to `num / den`; halfway between two it is the even one. -/
def roundDiv (num den : Nat) : Nat :=
  let quotient := num / den
  match compare (2 * (num % den)) den with
  | .lt => quotient
  | .gt => quotient + 1
  | .eq => if quotient % 2 = 0 then quotient else quotient + 1

/-- The text of a number with its sign, given the text of a finite magnitude. Not a number has no
sign. -/
def signedText (x : Float) (finite : Nat → Int → Bool → String) : String :=
  let sign := if isNegative x then "-" else ""
  match magnitude x with
  | .notANumber => "nan"
  | .infinite => sign ++ "inf"
  | .finite m q narrow => sign ++ finite m q narrow

end Clausal.Decimal
