namespace Clausal

variable {α : Type} [BEq α]

/-- Keeps the first of equal items, in order. -/
def distinct : List α → List α
  | [] => []
  | x :: xs => x :: (distinct xs).filter (fun y => !x == y)

/-- No item equals an earlier one. -/
def NoRepeat (xs : List α) : Prop :=
  xs.Pairwise (fun x y => (x == y) = false)

theorem pairwise_distinct (xs : List α) : NoRepeat (distinct xs) := by
  induction xs with
  | nil => exact .nil
  | cons x xs ih =>
    refine List.pairwise_cons.mpr ⟨?_, ih.filter _⟩
    intro y hy
    simpa using (List.mem_filter.mp hy).2

theorem distinct_eq_self {xs : List α} (h : NoRepeat xs) : distinct xs = xs := by
  induction xs with
  | nil => rfl
  | cons x xs ih =>
    obtain ⟨hx, hxs⟩ := List.pairwise_cons.mp h
    rw [distinct, ih hxs, List.filter_eq_self.mpr fun y hy => by simp [hx y hy]]

theorem distinct_sublist (xs : List α) : (distinct xs).Sublist xs := by
  induction xs with
  | nil => exact .slnil
  | cons x xs ih => exact (List.filter_sublist.trans ih).cons_cons x

/-- Other items that are the same exactly where these are repeat each other where these do. -/
theorem distinct_map_of_same {β : Type} [BEq β] {g : α → β}
    (same : ∀ x y, (g x == g y) = (x == y)) (xs : List α) :
    distinct (xs.map g) = (distinct xs).map g := by
  induction xs with
  | nil => rfl
  | cons x xs ih =>
    rw [List.map_cons, distinct, ih, List.filter_map, distinct, List.map_cons]
    congr 2
    exact List.filter_congr fun y _ => congrArg (!·) (same x y)

theorem distinct_filter {p : α → Bool} (hp : ∀ {x y : α}, (x == y) = true → p x = p y)
    (xs : List α) : distinct (xs.filter p) = (distinct xs).filter p := by
  induction xs with
  | nil => rfl
  | cons x xs ih =>
    rw [distinct]
    cases hx : p x with
    | true =>
      rw [List.filter_cons_of_pos hx, List.filter_cons_of_pos hx, distinct, ih,
        List.filter_filter, List.filter_filter]
      simp only [Bool.and_comm]
    | false =>
      have other : ∀ y ∈ distinct xs, p y = (p y && !x == y) := by
        intro y _
        cases hxy : (x == y) with
        | false => simp
        | true => simp [← hp hxy, hx]
      rw [List.filter_cons_of_neg (by simp [hx]), List.filter_cons_of_neg (by simp [hx]), ih,
        List.filter_filter]
      exact List.filter_congr other

/-- A test that cannot tell equal items apart finds the same item whether or not items are
repeated. -/
theorem find?_distinct {p : α → Bool} (hp : ∀ {x y : α}, (x == y) = true → p x = p y)
    (xs : List α) : (distinct xs).find? p = xs.find? p := by
  induction xs with
  | nil => rfl
  | cons x xs ih =>
    rw [distinct, List.find?_cons, List.find?_cons]
    cases hx : p x with
    | true => rfl
    | false =>
      have other : (fun y => decide ((!x == y) = true ∧ p y = true)) = p := by
        funext y
        cases hxy : (x == y) with
        | false => simp
        | true => simp [← hp hxy, hx]
      rw [List.find?_filter, other, ih]

theorem distinct_map_distinct {β : Type} [BEq β] [EquivBEq β] {g : α → β}
    (hg : ∀ {x y : α}, (x == y) = true → (g x == g y) = true) (xs : List α) :
    distinct ((distinct xs).map g) = distinct (xs.map g) := by
  induction xs with
  | nil => rfl
  | cons x xs ih =>
    have apart : (((distinct xs).filter (fun y => !x == y)).map g).filter (fun z => !g x == z) =
        ((distinct xs).map g).filter (fun z => !g x == z) := by
      rw [List.filter_map, List.filter_map, List.filter_filter]
      congr 1
      apply List.filter_congr
      intro y _
      cases hxy : (x == y) with
      | false => simp
      | true => simp [hg hxy]
    have differs {z w : β} (h : (z == w) = true) : (!g x == z) = (!g x == w) := by
      rw [BEq.congr_right h]
    rw [distinct, List.map_cons, List.map_cons, distinct, distinct, ← distinct_filter differs,
      apart, distinct_filter differs, ih]

/-- A filter that cannot tell equal items apart keeps them all or none. -/
theorem contains_filter {p : α → Bool} (hp : ∀ {x y : α}, (x == y) = true → p x = p y)
    (xs : List α) (x : α) : (xs.filter p).contains x = (xs.contains x && p x) := by
  rw [Bool.eq_iff_iff, Bool.and_eq_true, List.contains_iff_exists_mem_beq,
    List.contains_iff_exists_mem_beq]
  constructor
  · rintro ⟨y, hy, hxy⟩
    obtain ⟨hm, hpy⟩ := List.mem_filter.mp hy
    exact ⟨⟨y, hm, hxy⟩, (hp hxy).trans hpy⟩
  · rintro ⟨⟨y, hm, hxy⟩, hpx⟩
    exact ⟨y, List.mem_filter.mpr ⟨hm, (hp hxy).symm.trans hpx⟩, hxy⟩

variable [EquivBEq α]

theorem contains_congr {x y : α} (h : (x == y) = true) (xs : List α) :
    xs.contains x = xs.contains y := by
  induction xs with
  | nil => rfl
  | cons z zs ih => simp [List.contains_cons, ih, BEq.congr_left h]

theorem contains_of_mem {x : α} {xs : List α} (h : x ∈ xs) : xs.contains x = true :=
  List.contains_iff_exists_mem_beq.mpr ⟨x, h, BEq.rfl⟩

theorem contains_filter_ne {x y : α} (xs : List α) :
    (xs.filter (fun z => !x == z)).contains y = (xs.contains y && !x == y) :=
  contains_filter (fun h => by rw [BEq.congr_right h]) xs y

theorem contains_distinct (xs : List α) (x : α) : (distinct xs).contains x = xs.contains x := by
  induction xs with
  | nil => rfl
  | cons y ys ih =>
    simp only [distinct, List.contains_cons, contains_filter_ne, ih]
    cases hx : (x == y) with
    | true => simp
    | false =>
      have : (y == x) = false := by rw [BEq.comm, hx]
      simp [this]

theorem exists_mem_distinct {x : α} {xs : List α} (h : x ∈ xs) :
    ∃ y ∈ distinct xs, (x == y) = true := by
  have kept : (distinct xs).contains x = true := by
    rw [contains_distinct]
    exact contains_of_mem h
  exact List.contains_iff_exists_mem_beq.mp kept

theorem contains_filter_contains (xs ys : List α) (x : α) :
    (xs.filter ys.contains).contains x = (xs.contains x && ys.contains x) :=
  contains_filter (fun h => contains_congr h ys) xs x

theorem contains_filter_not_contains (xs ys : List α) (x : α) :
    (xs.filter (fun y => !ys.contains y)).contains x = (xs.contains x && !ys.contains x) :=
  contains_filter (fun h => by rw [contains_congr h]) xs x

theorem distinct_append (xs ys : List α) :
    distinct (xs ++ ys) = distinct xs ++ (distinct ys).filter (fun y => !xs.contains y) := by
  induction xs with
  | nil => exact (List.filter_eq_self.mpr fun _ _ => rfl).symm
  | cons x xs ih =>
    rw [List.cons_append, distinct, ih, distinct, List.filter_append, List.filter_filter,
      List.cons_append]
    congr 2
    apply List.filter_congr
    intro y _
    rw [List.contains_cons, Bool.not_or, BEq.comm]

theorem contains_extend (xs ys : List α) (x : α) :
    (distinct xs ++ ys.filter (fun y => !xs.contains y)).contains x =
      (xs.contains x || ys.contains x) := by
  rw [List.contains_append, contains_distinct, contains_filter_not_contains]
  cases xs.contains x <;> simp

omit [EquivBEq α] in
theorem extend_eq_self {xs ys : List α} (once : NoRepeat xs)
    (known : ∀ y ∈ ys, xs.contains y = true) :
    distinct xs ++ ys.filter (fun y => !xs.contains y) = xs := by
  have added : ys.filter (fun y => !xs.contains y) = [] := by
    apply List.filter_eq_nil_iff.mpr
    intro y hy
    rw [known y hy]
    decide
  rw [distinct_eq_self once, added, List.append_nil]

theorem noRepeat_extend (xs : List α) {ys : List α} (h : NoRepeat ys) :
    NoRepeat (distinct xs ++ ys.filter (fun y => !xs.contains y)) := by
  refine List.pairwise_append.mpr ⟨pairwise_distinct xs, h.filter _, ?_⟩
  intro x hx y hy
  have held : xs.contains x = true := by
    rw [← contains_distinct]
    exact contains_of_mem hx
  have fresh := (List.mem_filter.mp hy).2
  cases hxy : (x == y) with
  | false => rfl
  | true =>
    rw [← contains_congr hxy, held] at fresh
    exact absurd fresh (by decide)

/-- A list without repetition fits into every list that covers it. -/
theorem length_le_of_covers {xs ys : List α} (unique : NoRepeat xs)
    (covers : ∀ x ∈ xs, ys.contains x = true) : xs.length ≤ ys.length := by
  induction xs generalizing ys with
  | nil => simp
  | cons x xs ih =>
    obtain ⟨hx, hxs⟩ := List.pairwise_cons.mp unique
    obtain ⟨z, hz, hxz⟩ := List.contains_iff_exists_mem_beq.mp (covers x (by simp))
    have hlt : (ys.filter (fun w => !x == w)).length < ys.length :=
      List.length_filter_lt_length_iff_exists.mpr ⟨z, hz, by simp [hxz]⟩
    have := @ih (ys.filter (fun w => !x == w)) hxs (fun w hw => by
      rw [contains_filter_ne, covers w (by simp [hw]), hx w hw]; rfl)
    simp only [List.length_cons]
    omega

theorem length_lt_of_covers {xs ys : List α} {y : α} (unique : NoRepeat xs)
    (covers : ∀ x ∈ xs, ys.contains x = true) (more : ys.contains y = true)
    (fresh : xs.contains y = false) : xs.length < ys.length := by
  have : NoRepeat (y :: xs) := List.pairwise_cons.mpr ⟨fun x hx => by
    cases h : (y == x) with
    | false => rfl
    | true =>
      rw [contains_congr h, contains_of_mem hx] at fresh
      exact absurd fresh (by decide), unique⟩
  exact length_le_of_covers this (fun x hx => by
    rcases List.mem_cons.mp hx with rfl | hx
    · exact more
    · exact covers x hx)

end Clausal
