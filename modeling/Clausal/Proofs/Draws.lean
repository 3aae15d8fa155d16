import Clausal.Random.Sampling

namespace Clausal

namespace Random.Generator

variable {bound : Nat}

theorem next32_lt (g : Generator) : g.next32.1 < wordSize := by
  unfold next32
  cases g.half with
  | some n => exact n.toNat_lt
  | none => exact Nat.mod_lt _ (by decide)

/-- Also a draw that is repeated is below the bound, once it is scaled down. -/
theorem retry_lt (threshold attempts : Nat) {m : Nat} (g : Generator) (positive : 0 < bound)
    (small : m < wordSize * bound) :
    (g.retry bound threshold m attempts).1 < wordSize * bound := by
  induction attempts generalizing g m with
  | zero => exact small
  | succ attempts ih =>
    rw [retry]
    split
    · exact ih _ (Nat.mul_lt_mul_of_pos_right g.next32_lt positive)
    · exact small

theorem below_lt (g : Generator) (positive : 0 < bound) : (g.below bound).1 < bound := by
  unfold below
  split
  · exact positive
  · have small := retry_lt ((wordSize - bound) % bound) attemptLimit g.next32.2 positive
      (Nat.mul_lt_mul_of_pos_right g.next32_lt positive)
    dsimp only
    rw [Nat.shiftRight_eq_div_pow]
    exact Nat.div_lt_of_lt_mul small

end Random.Generator

namespace RandomClauses

/-- Distinct numbers below a bound, as many as given. -/
structure Sample (bound count : Nat) (xs : List Nat) : Prop where
  length : xs.length = count
  once : xs.Nodup
  below : ∀ x ∈ xs, x < bound

/-- The items drawn for a clause: a place and a bit for each of its literals. -/
structure Draw.Fits (vars k : Nat) (d : Draw) : Prop where
  places : Sample vars k d.places
  signs : d.signs.length = k
  bits : ∀ s ∈ d.signs, s = 0 ∨ s = 1

namespace Sample

variable {bound count : Nat} {xs ys : List Nat}

theorem perm (h : Sample bound count xs) (same : ys.Perm xs) : Sample bound count ys where
  length := same.length_eq.trans h.length
  once := same.nodup_iff.mpr h.once
  below := fun y hy => h.below y (same.mem_iff.mp hy)

theorem range (n : Nat) : Sample n n (List.range n) where
  length := List.length_range
  once := List.nodup_range
  below := fun _ => List.mem_range.mp

theorem drop (h : Sample bound count xs) (n : Nat) : Sample bound (count - n) (xs.drop n) where
  length := by rw [List.length_drop, h.length]
  once := h.once.sublist (List.drop_sublist n xs)
  below := fun x hx => h.below x (List.mem_of_mem_drop hx)

/-- What was drawn before is replaced by a number that could not be drawn before. -/
theorem extend (h : Sample bound count xs) {v : Nat} (small : v < bound + 1) :
    Sample (bound + 1) (count + 1) (xs ++ [if xs.contains v then bound else v]) := by
  have fresh : (if xs.contains v then bound else v) ∉ xs := by
    split
    · exact fun hm => Nat.lt_irrefl bound (h.below bound hm)
    · rename_i missing
      simpa using missing
  refine ⟨?_, ?_, ?_⟩
  · rw [List.length_append, h.length, List.length_singleton]
  · refine List.nodup_append.mpr ⟨h.once, by simp, ?_⟩
    intro x hx y hy same
    rw [same, List.mem_singleton.mp hy] at hx
    exact fresh hx
  · intro x hx
    rcases List.mem_append.mp hx with hx | hx
    · exact Nat.lt_succ_of_lt (h.below x hx)
    · rw [List.mem_singleton.mp hx]
      split
      · exact Nat.lt_succ_self bound
      · exact small

end Sample

/-- What random numbers are to be: distinct places below the number of all, and bits, in the number
that is asked for. -/
structure Rng.Fair {G : Type} (rng : Rng G) : Prop where
  places : ∀ vars k g, k ≤ vars → Sample vars k (rng.places vars k g).1
  length : ∀ k g, (rng.bits k g).1.length = k
  bits : ∀ k g, ∀ s ∈ (rng.bits k g).1, s = 0 ∨ s = 1

section Drawing

variable {G : Type} {rng : Rng G} {vars k : Nat}

theorem Rng.Fair.drawClause (fair : rng.Fair) (fits : k ≤ vars) (g : G) :
    (drawClause rng vars k g).1.Fits vars k :=
  ⟨fair.places vars k g fits, fair.length k _, fair.bits k _⟩

theorem Rng.Fair.drawClauses (fair : rng.Fair) (fits : k ≤ vars) (n : Nat) (g : G) :
    (drawClauses rng vars k n g).length = n ∧ ∀ d ∈ drawClauses rng vars k n g, d.Fits vars k := by
  induction n generalizing g with
  | zero => exact ⟨rfl, by simp [RandomClauses.drawClauses]⟩
  | succ n ih =>
    obtain ⟨length, rest⟩ := ih (RandomClauses.drawClause rng vars k g).2
    exact ⟨congrArg (· + 1) length, List.forall_mem_cons.mpr ⟨fair.drawClause fits g, rest⟩⟩

end Drawing

end RandomClauses

namespace Random

open RandomClauses

variable {start count : Nat} {chosen : List Nat}

theorem addPlace_sample (g : Generator) (h : Sample start count chosen) :
    Sample (start + 1) (count + 1) (addPlace chosen start g).1 :=
  h.extend (g.below_lt (Nat.succ_pos start))

theorem foldl_addPlace_sample (g : Generator) (h : Sample start count chosen) (n : Nat) :
    Sample (start + n) (count + n) ((List.range' start n).foldl
      (fun (chosen, g) last => addPlace chosen last g) (chosen, g)).1 := by
  induction n generalizing start count chosen g with
  | zero => exact h
  | succ n ih =>
    have rest := ih (addPlace chosen start g).2 (addPlace_sample g h)
    rwa [Nat.add_right_comm start, Nat.add_right_comm count] at rest

theorem perm_swapIfInBounds (xs : Array Nat) (i j : Nat) :
    (xs.swapIfInBounds i j).toList.Perm xs.toList := by
  unfold Array.swapIfInBounds
  split
  · split
    · exact (Array.swap_perm _ _).toList
    · exact .refl _
  · exact .refl _

theorem foldl_swap_perm (is : List Nat) (xs : Array Nat) (g : Generator) :
    (is.foldl
      (fun (xs, g) i =>
        let (j, g) := Generator.below g (i + 1)
        (xs.swapIfInBounds i j, g)) (xs, g)).1.toList.Perm xs.toList := by
  induction is generalizing xs g with
  | nil => exact .refl _
  | cons i is ih => exact (ih _ _).trans (perm_swapIfInBounds _ _ _)

theorem shuffle_perm (first : Nat) (xs : Array Nat) (g : Generator) :
    (shuffle first xs g).1.toList.Perm xs.toList :=
  foldl_swap_perm _ xs g

/-- Places are distinct whether they are drawn one by one or cut off from a shuffled list of all. -/
theorem drawPlaces_sample {count k : Nat} (g : Generator) (fits : k ≤ count) :
    Sample count k (drawPlaces count k g).1 := by
  have width : count - (count - k) = k := Nat.sub_sub_self fits
  unfold drawPlaces
  dsimp only
  split
  · have same := shuffle_perm (max (count - k) 1) (Array.range count) g
    rw [Array.toList_range] at same
    have drawn := ((Sample.range count).perm same).drop (count - k)
    rwa [width] at drawn
  · have bounds : (List.range count).drop (count - k) = List.range' (count - k) k := by
      rw [List.range_eq_range', List.drop_range', width, Nat.mul_one, Nat.zero_add]
    have nothing : Sample (count - k) 0 [] := ⟨rfl, .nil, by simp⟩
    rw [bounds]
    have drawn := foldl_addPlace_sample g nothing k
    rw [Nat.sub_add_cancel fits, Nat.zero_add] at drawn
    exact drawn.perm (shuffle_perm 1 _ _)

theorem drawBits_bits (g : Generator) (n : Nat) :
    (drawBits n g).1.length = n ∧ ∀ s ∈ (drawBits n g).1, s = 0 ∨ s = 1 := by
  induction n generalizing g with
  | zero => exact ⟨rfl, by simp [drawBits]⟩
  | succ n ih =>
    obtain ⟨length, bits⟩ := ih (g.below 2).2
    have either := Nat.le_one_iff_eq_zero_or_eq_one.mp (Nat.le_of_lt_succ (g.below_lt (by decide)))
    exact ⟨congrArg (· + 1) length, List.forall_mem_cons.mpr ⟨either, bits⟩⟩

theorem rng_fair (entropy : Nat) : (rng entropy).Fair where
  places _ _ g fits := drawPlaces_sample g fits
  length k g := (drawBits_bits g k).1
  bits k g := (drawBits_bits g k).2

end Random
end Clausal
