namespace Clausal

inductive Variable where
  | number (n : Int)
  | text (s : String)
  | truth (b : Bool)
  | empty
  | tuple (parts : List Variable)
  deriving Inhabited

namespace Variable

/-- The number that a variable counts as. -/
def number? : Variable → Option Int
  | number n => some n
  | truth b => some b.toInt
  | _ => none

mutual

def same : Variable → Variable → Bool
  | number m, number n => m == n
  | number m, truth b => m == b.toInt
  | truth b, number n => b.toInt == n
  | truth a, truth b => a == b
  | text s, text t => s == t
  | empty, empty => true
  | tuple xs, tuple ys => sameParts xs ys
  | _, _ => false

def sameParts : List Variable → List Variable → Bool
  | [], [] => true
  | x :: xs, y :: ys => same x y && sameParts xs ys
  | _, _ => false

end

instance : BEq Variable := ⟨same⟩

mutual

theorem same_refl : ∀ x : Variable, same x x = true
  | number _ | text _ | truth _ | empty => by simp [same]
  | tuple xs => by simp only [same]; exact sameParts_refl xs

theorem sameParts_refl : ∀ xs : List Variable, sameParts xs xs = true
  | [] => by simp [sameParts]
  | x :: xs => by simp [sameParts, same_refl x, sameParts_refl xs]

end

mutual

theorem same_symm : ∀ {x y : Variable}, same x y = true → same y x = true
  | number _, y, h | text _, y, h | truth _, y, h | empty, y, h => by
    cases y <;> simp_all [same]
  | tuple xs, y, h => by
    cases y with
    | tuple ys => simp only [same] at h ⊢; exact sameParts_symm h
    | _ => simp [same] at h

theorem sameParts_symm : ∀ {xs ys : List Variable}, sameParts xs ys = true → sameParts ys xs = true
  | [], ys, h => by cases ys <;> simp_all [sameParts]
  | x :: xs, ys, h => by
    cases ys with
    | nil => simp [sameParts] at h
    | cons y ys =>
      simp only [sameParts, Bool.and_eq_true] at h ⊢
      exact ⟨same_symm h.1, sameParts_symm h.2⟩

end

theorem toInt_inj {a b : Bool} : a.toInt = b.toInt ↔ a = b := by
  cases a <;> cases b <;> decide

mutual

theorem same_trans : ∀ {x y z : Variable}, same x y = true → same y z = true → same x z = true
  | number m, y, z, h, k | text m, y, z, h, k | truth m, y, z, h, k => by
    cases y <;> cases z <;> simp_all [same, toInt_inj]
  | empty, y, z, h, k => by cases y <;> cases z <;> simp_all [same]
  | tuple xs, y, z, h, k => by
    cases y with
    | tuple ys =>
      cases z with
      | tuple zs => simp only [same] at h k ⊢; exact sameParts_trans h k
      | _ => simp [same] at k
    | _ => simp [same] at h

theorem sameParts_trans : ∀ {xs ys zs : List Variable},
    sameParts xs ys = true → sameParts ys zs = true → sameParts xs zs = true
  | [], ys, zs, h, k => by cases ys <;> cases zs <;> simp_all [sameParts]
  | x :: xs, ys, zs, h, k => by
    cases ys with
    | nil => simp [sameParts] at h
    | cons y ys =>
      cases zs with
      | nil => simp [sameParts] at k
      | cons z zs =>
        simp only [sameParts, Bool.and_eq_true] at h k ⊢
        exact ⟨same_trans h.1 k.1, sameParts_trans h.2 k.2⟩

end

instance : EquivBEq Variable where
  rfl := same_refl _
  symm := same_symm
  trans := same_trans

/-- The empty value, the number 0, the empty text and the empty tuple count as false. -/
def countsAsTrue : Variable → Bool
  | number n => n != 0
  | text s => s != ""
  | truth b => b
  | empty => false
  | tuple parts => !parts.isEmpty

mutual

/-- The order of variables: numbers by size, texts by character, tuples by their first parts that
differ and then by length. Nothing else has an order. -/
def less? : Variable → Variable → Option Bool
  | number m, number n => some (m < n)
  | number m, truth b => some (m < b.toInt)
  | truth a, number n => some (a.toInt < n)
  | truth a, truth b => some (a.toInt < b.toInt)
  | text s, text t => some (s < t)
  | tuple xs, tuple ys => lessParts? xs ys
  | _, _ => none

def lessParts? : List Variable → List Variable → Option Bool
  | [], ys => some (!ys.isEmpty)
  | _ :: _, [] => some false
  | x :: xs, y :: ys => if x == y then lessParts? xs ys else less? x y

end

end Variable
end Clausal
