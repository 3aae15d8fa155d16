import Mathlib.Data.List.Forall2

namespace Clausal

section Related

variable {A B : Type} {R : A → B → Prop} {xs : List A} {ys : List B}

theorem exists_forall₂_iff : (∃ ys, List.Forall₂ R xs ys) ↔ ∀ x ∈ xs, ∃ y, R x y := by
  induction xs with
  | nil => simp
  | cons x xs ih =>
    rw [List.forall_mem_cons, ← ih]
    simp only [List.forall₂_cons_left_iff]
    constructor
    · rintro ⟨_, y, ys, hy, hys, rfl⟩
      exact ⟨⟨y, hy⟩, ys, hys⟩
    · rintro ⟨⟨y, hy⟩, ys, hys⟩
      exact ⟨_, y, ys, hy, hys, rfl⟩

theorem exists_of_forall₂ (h : List.Forall₂ R xs ys) {y : B} (hy : y ∈ ys) : ∃ x ∈ xs, R x y := by
  induction h with
  | nil => cases hy
  | cons hxy _ ih =>
    rcases List.mem_cons.mp hy with rfl | hy
    · exact ⟨_, List.mem_cons_self, hxy⟩
    · obtain ⟨x, hx, hxy⟩ := ih hy
      exact ⟨x, List.mem_cons_of_mem _ hx, hxy⟩

end Related

theorem mapM_eq_some_iff {A B : Type} {step : A → Option B} {xs : List A} {ys : List B} :
    xs.mapM step = some ys ↔ List.Forall₂ (fun x y => step x = some y) xs ys := by
  induction xs generalizing ys with
  | nil => cases ys <;> simp
  | cons x xs ih =>
    rw [List.mapM_cons, List.forall₂_cons_left_iff]
    constructor
    · intro h
      obtain ⟨y, hx, h⟩ := Option.bind_eq_some_iff.mp h
      obtain ⟨ys, hxs, h⟩ := Option.bind_eq_some_iff.mp h
      cases h
      exact ⟨y, ys, hx, ih.mp hxs, rfl⟩
    · rintro ⟨y, ys, hx, hxs, rfl⟩
      simp [hx, ih.mpr hxs]

section Errors

variable {E A B : Type} {step : A → Except E B} {xs : List A}

theorem map_eq_ok_iff {x : Except E A} {f : A → B} {b : B} :
    x.map f = .ok b ↔ ∃ a, x = .ok a ∧ b = f a := by
  cases x <;> simp [Except.map, eq_comm]

theorem map_eq_error_iff {x : Except E A} {f : A → B} {e : E} :
    x.map f = .error e ↔ x = .error e := by
  cases x <;> simp [Except.map]

theorem mapM_eq_ok_iff {ys : List B} :
    xs.mapM step = .ok ys ↔ List.Forall₂ (fun x y => step x = .ok y) xs ys := by
  induction xs generalizing ys with
  | nil => cases ys <;> simp [pure, Except.pure]
  | cons x xs ih =>
    rw [List.mapM_cons, List.forall₂_cons_left_iff]
    constructor
    · intro h
      cases hx : step x with
      | error e =>
        rw [hx] at h
        cases h
      | ok y =>
        rw [hx] at h
        cases hxs : xs.mapM step with
        | error e =>
          rw [hxs] at h
          cases h
        | ok ys =>
          rw [hxs] at h
          cases h
          exact ⟨y, ys, rfl, ih.mp hxs, rfl⟩
    · rintro ⟨y, ys, hx, hxs, rfl⟩
      rw [hx, ih.mpr hxs]
      rfl

/-- Where every single step succeeds, so does the run through the list. -/
theorem mapM_ok {result : A → B} (h : ∀ x ∈ xs, step x = .ok (result x)) :
    xs.mapM step = .ok (xs.map result) := by
  rw [mapM_eq_ok_iff, List.forall₂_map_right_iff, List.forall₂_same]
  exact h

theorem exists_mapM_ok_iff : (∃ ys, xs.mapM step = .ok ys) ↔ ∀ x ∈ xs, ∃ y, step x = .ok y := by
  simp only [mapM_eq_ok_iff, exists_forall₂_iff]

/-- A run through a list fails at the first item whose step fails. -/
theorem mapM_eq_error_iff {e : E} :
    xs.mapM step = .error e ↔ ∃ before x after, xs = before ++ x :: after ∧
      (∀ y ∈ before, ∃ b, step y = .ok b) ∧ step x = .error e := by
  induction xs with
  | nil => simp [pure, Except.pure]
  | cons x xs ih =>
    rw [List.mapM_cons]
    constructor
    · intro h
      cases hx : step x with
      | error e' =>
        rw [hx] at h
        cases h
        exact ⟨[], x, xs, rfl, by simp, hx⟩
      | ok b =>
        rw [hx] at h
        cases hxs : xs.mapM step with
        | ok bs =>
          rw [hxs] at h
          cases h
        | error e' =>
          rw [hxs] at h
          cases h
          obtain ⟨before, y, after, rfl, fine, wrong⟩ := ih.mp hxs
          exact ⟨x :: before, y, after, rfl, List.forall_mem_cons.mpr ⟨⟨b, hx⟩, fine⟩, wrong⟩
    · rintro ⟨before, y, after, split, fine, wrong⟩
      cases before with
      | nil =>
        cases split
        rw [wrong]
        rfl
      | cons z before =>
        cases split
        obtain ⟨⟨b, hb⟩, fine⟩ := List.forall_mem_cons.mp fine
        rw [hb, ih.mpr ⟨before, y, after, rfl, fine, wrong⟩]
        rfl

end Errors

end Clausal
