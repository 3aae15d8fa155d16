import Clausal.Decimal.Binary
import Clausal.Numeral

namespace Clausal.Decimal

/-- The value in hundredths, to the nearest and halfway to the even one. -/
def hundredths (m : Nat) (q : Int) : Nat :=
  roundDiv (100 * m * twoTo q.toNat) (twoTo (-q).toNat)

def twoPlaces (x : Float) : String :=
  signedText x fun m q _ =>
    let n := hundredths m q
    String.ofList (Numeral.digits (n / 100) ++
      ['.', Nat.digitChar (n / 10 % 10), Nat.digitChar (n % 10)])

end Clausal.Decimal
