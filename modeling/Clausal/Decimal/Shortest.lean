import Clausal.Decimal.Binary
import Clausal.Numeral

namespace Clausal.Decimal

structure Scaled where
  digits : Nat
  scale : Int

/-- The reals that read back as a number lie between `low / den` and `high / den`, the ends
included where `closed` says so; the number itself is `num / den`. -/
structure Interval where
  low : Nat
  num : Nat
  high : Nat
  den : Nat
  closed : Bool

/-- The ends are halfway to the neighbours, and belong to the number when its last bit is zero. -/
def Interval.around (m : Nat) (q : Int) (narrow : Bool) : Interval :=
  let unit := twoTo (q - 2).toNat
  { low := (if narrow then 4 * m - 1 else 4 * m - 2) * unit
    num := 4 * m * unit
    high := (4 * m + 2) * unit
    den := twoTo (2 - q).toNat
    closed := m % 2 = 0 }

namespace Interval

def holds (i : Interval) (d : Scaled) : Bool :=
  let n := d.digits * tenTo d.scale.toNat * i.den
  let shift := tenTo (-d.scale).toNat
  if i.closed then i.low * shift ≤ n && n ≤ i.high * shift
  else i.low * shift < n && n < i.high * shift

/-- The least power of ten above every binary fraction is among these. -/
def exponents : List Int :=
  (List.range 640).map (fun (i : Nat) => (i : Int) - 325)

/-- The least `k` with the number below `10 ^ k`. -/
def leading (i : Interval) : Int :=
  (exponents.find? (fun k => i.num * tenTo (-k).toNat < tenTo k.toNat * i.den)).getD 0

/-- The nearer of the two neighbours with `scale` that read back; halfway it is the even one. -/
def onGrid? (i : Interval) (scale : Int) : Option Scaled :=
  let num := i.num * tenTo (-scale).toNat
  let den := tenTo scale.toNat * i.den
  let below : Scaled := ⟨num / den, scale⟩
  let above : Scaled := ⟨num / den + 1, scale⟩
  if i.holds below && i.holds above then some ⟨roundDiv num den, scale⟩
  else if i.holds below then some below
  else if i.holds above then some above
  else none

def shortest? (i : Interval) : Option Scaled :=
  let k := i.leading
  (List.range 17).findSome? (fun (n : Nat) => i.onGrid? (k - (n + 1)))

end Interval

/-- Powers of ten from the fourth below one to the fifteenth are written without an exponent. -/
def layout (digits : List Char) (scale : Int) : List Char :=
  let point : Int := digits.length + scale
  if point ≤ -4 ∨ 16 < point then
    let e := point - 1
    let size := Numeral.digits e.natAbs
    let mantissa := match digits with
      | [d] => [d]
      | ds => ds.take 1 ++ '.' :: ds.drop 1
    mantissa ++ ['e', if e < 0 then '-' else '+'] ++ (if size.length < 2 then '0' :: size else size)
  else if point ≤ 0 then '0' :: '.' :: List.replicate (-point).toNat '0' ++ digits
  else if 0 ≤ scale then digits ++ List.replicate scale.toNat '0' ++ ['.', '0']
  else digits.take point.toNat ++ '.' :: digits.drop point.toNat

/-- Moves the zeros at the end of the digits into the scale. -/
def trimZeros (digits : List Char) (scale : Int) : List Char × Int :=
  let kept := (digits.reverse.dropWhile (· == '0')).reverse
  (kept, scale + (digits.length - kept.length : Nat))

def shortest (x : Float) : String :=
  signedText x fun m q narrow =>
    if m = 0 then "0.0"
    else match (Interval.around m q narrow).shortest? with
      | some d =>
        let (digits, scale) := trimZeros (Numeral.digits d.digits) d.scale
        String.ofList (layout digits scale)
      | none => ""

end Clausal.Decimal
