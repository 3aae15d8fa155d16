import Clausal.Variable

namespace Clausal

structure Literal (V : Type) where
  var : V
  sign : Bool

/-- A clause holds when one of its literals does. -/
abbrev Clause (V : Type) := List (Literal V)

/-- Decided variables with their values, in the order of the decisions. -/
abbrev Assignment (V : Type) := List (V × Bool)

namespace Literal

variable {V : Type}

instance [BEq V] : BEq (Literal V) :=
  ⟨fun k l => k.var == l.var && k.sign == l.sign⟩

theorem beq_eq [BEq V] (k l : Literal V) :
    (k == l) = (k.var == l.var && k.sign == l.sign) := rfl

instance [BEq V] [EquivBEq V] : EquivBEq (Literal V) where
  rfl := by intro l; simp [beq_eq]
  symm := by
    intro k l h
    rw [beq_eq, Bool.and_eq_true] at h ⊢
    exact ⟨BEq.symm h.1, BEq.symm h.2⟩
  trans := by
    intro k l m h h'
    rw [beq_eq, Bool.and_eq_true] at h h' ⊢
    exact ⟨BEq.trans h.1 h'.1, BEq.trans h.2 h'.2⟩

def negate (l : Literal V) : Literal V :=
  { l with sign := !l.sign }

def holds (l : Literal V) (value : Bool) : Bool :=
  l.sign == value

/-- The literal of a signed number: the variable is its size. Zero has no sign to give. -/
def ofInt? (n : Int) : Option (Literal Variable) :=
  if n = 0 then none else some ⟨.number n.natAbs, 0 < n⟩

end Literal
end Clausal
