import Clausal.Distinct

namespace Clausal

variable {K A : Type} [BEq K]

/-- Replaces the value of a key that is present; a new key goes to the end. -/
def put : List (K × A) → K → A → List (K × A)
  | [], k, a => [(k, a)]
  | (k', a') :: rest, k, a => if k' == k then (k', a) :: rest else (k', a') :: put rest k a

def find? : List (K × A) → K → Option A
  | [], _ => none
  | (k', a) :: rest, k => if k' == k then some a else find? rest k

def tableOf (pairs : List (K × A)) : List (K × A) :=
  pairs.foldl (fun table pair => put table pair.1 pair.2) []

variable [EquivBEq K]

theorem find?_congr {k k' : K} (h : (k == k') = true) (table : List (K × A)) :
    find? table k = find? table k' := by
  induction table with
  | nil => rfl
  | cons entry rest ih => simp only [find?, BEq.congr_right h, ih]

theorem find?_put (table : List (K × A)) (k k' : K) (a : A) :
    find? (put table k a) k' = if k == k' then some a else find? table k' := by
  induction table with
  | nil => rfl
  | cons entry rest ih =>
    obtain ⟨x, b⟩ := entry
    simp only [put]
    cases hx : (x == k) with
    | true =>
      simp only [↓reduceIte, find?, BEq.congr_left hx]
      cases (k == k') <;> rfl
    | false =>
      simp only [Bool.false_eq_true, ↓reduceIte, find?, ih]
      cases hk : (k == k') with
      | false => rfl
      | true =>
        rw [BEq.congr_right hk] at hx
        simp [hx]

theorem map_fst_put (table : List (K × A)) (k : K) (a : A) :
    (put table k a).map Prod.fst =
      if (table.map Prod.fst).contains k then table.map Prod.fst
      else table.map Prod.fst ++ [k] := by
  induction table with
  | nil => rfl
  | cons entry rest ih =>
    obtain ⟨x, b⟩ := entry
    simp only [put, List.map_cons, List.contains_cons, BEq.comm (a := k)]
    cases hx : (x == k) with
    | true => simp
    | false =>
      simp only [Bool.false_eq_true, ↓reduceIte, List.map_cons, ih, Bool.false_or]
      split <;> rfl

theorem find?_of_mem {table : List (K × A)} (once : NoRepeat (table.map Prod.fst)) {k : K} {a : A}
    (h : (k, a) ∈ table) : find? table k = some a := by
  induction table with
  | nil => simp at h
  | cons entry rest ih =>
    obtain ⟨hx, hrest⟩ := List.pairwise_cons.mp once
    rcases List.mem_cons.mp h with rfl | h
    · simp [find?]
    · have : (entry.1 == k) = false := hx k (List.mem_map.mpr ⟨_, h, rfl⟩)
      simp [find?, this, ih hrest h]

end Clausal
