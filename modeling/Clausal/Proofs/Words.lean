import Clausal.Text.Blank

namespace Clausal.Text

/-- The text consists of the words, which are set apart by blanks. There may be more blanks at both
ends. -/
inductive Spaced : List (List Char) → List Char → Prop where
  | nil : Spaced [] []
  | blank {c : Char} {ws : List (List Char)} {cs : List Char} (isBlank : isBlank c = true)
      (rest : Spaced ws cs) : Spaced ws (c :: cs)
  | word {w : List Char} {ws : List (List Char)} {cs : List Char} (given : w ≠ [])
      (solid : ∀ c ∈ w, isBlank c = false) (apart : ∀ c ∈ cs.head?, isBlank c = true)
      (rest : Spaced ws cs) : Spaced (w :: ws) (w ++ cs)

section Words

variable {word cs : List Char} {ws : List (List Char)}

theorem spaced_wordsFrom (solid : ∀ c ∈ word, isBlank c = false) :
    Spaced (wordsFrom word cs) (word ++ cs) := by
  induction cs generalizing word with
  | nil =>
    cases word with
    | nil => exact .nil
    | cons c word => exact .word (List.cons_ne_nil c word) solid (by simp) .nil
  | cons c cs ih =>
    rw [wordsFrom]
    cases hc : isBlank c with
    | true =>
      have behind : Spaced (wordsFrom [] cs) (c :: cs) := .blank hc (ih (by simp))
      cases word with
      | nil => simpa using behind
      | cons d word => exact .word (List.cons_ne_nil d word) solid (by simp [hc]) behind
    | false =>
      have longer : ∀ d ∈ word ++ [c], isBlank d = false := by
        intro d hd
        rcases List.mem_append.mp hd with hd | hd
        · exact solid d hd
        · rw [List.mem_singleton.mp hd, hc]
      simpa using ih longer

theorem wordsFrom_append (solid : ∀ c ∈ word, isBlank c = false) (before : List Char) :
    wordsFrom before (word ++ cs) = wordsFrom (before ++ word) cs := by
  induction word generalizing before with
  | nil => simp
  | cons c word ih =>
    obtain ⟨hc, hword⟩ := List.forall_mem_cons.mp solid
    simp [wordsFrom, hc, ih hword]

theorem words_of_spaced (h : Spaced ws cs) : words cs = ws := by
  induction h with
  | nil => rfl
  | blank hc _ ih => simpa [words, wordsFrom, hc] using ih
  | @word w ws cs given solid apart _ ih =>
    rw [words, wordsFrom_append solid, List.nil_append]
    cases cs with
    | nil =>
      rw [← ih]
      simp [words, wordsFrom, given]
    | cons c cs =>
      have hc : isBlank c = true := apart c rfl
      simp only [words, wordsFrom, hc, ↓reduceIte] at ih ⊢
      simpa [given] using ih

theorem words_eq_iff : words cs = ws ↔ Spaced ws cs := by
  constructor
  · rintro rfl
    exact spaced_wordsFrom (by simp)
  · exact words_of_spaced

theorem spaced_intercalate (each : ∀ w ∈ ws, w ≠ [] ∧ ∀ c ∈ w, isBlank c = false) :
    Spaced ws ([' '].intercalate ws) := by
  induction ws with
  | nil => exact .nil
  | cons w ws ih =>
    obtain ⟨⟨given, solid⟩, others⟩ := List.forall_mem_cons.mp each
    cases ws with
    | nil =>
      have alone : Spaced [w] (w ++ []) := .word given solid (by simp) .nil
      simpa using alone
    | cons v ws =>
      rw [List.intercalate_cons_cons, List.append_assoc]
      have space : isBlank ' ' = true := rfl
      exact .word given solid (by simp [space]) (.blank space (ih others))

end Words

section Joined

variable {c mark : Char} {sep : List Char} {ws vs : List (List Char)}

theorem mem_intercalate (h : c ∈ sep.intercalate ws) : c ∈ sep ∨ ∃ w ∈ ws, c ∈ w := by
  induction ws with
  | nil => simp at h
  | cons w ws ih =>
    cases ws with
    | nil => exact .inr ⟨w, List.mem_cons_self, by simpa using h⟩
    | cons v ws =>
      rw [List.intercalate_cons_cons, List.mem_append, List.mem_append] at h
      rcases h with (inside | between) | later
      · exact .inr ⟨w, List.mem_cons_self, inside⟩
      · exact .inl between
      · exact (ih later).imp_right fun ⟨u, hu, hc⟩ => ⟨u, List.mem_cons_of_mem _ hu, hc⟩

/-- Two texts are the same before the first mark, and behind it. -/
theorem append_mark_inj {before before' after after' : List Char} (h : mark ∉ before)
    (h' : mark ∉ before') (same : before ++ mark :: after = before' ++ mark :: after') :
    before = before' ∧ after = after' := by
  induction before generalizing before' with
  | nil =>
    cases before' with
    | nil => exact ⟨rfl, (List.cons.inj same).2⟩
    | cons c before' => exact absurd (List.cons.inj same).1 (List.ne_of_not_mem_cons h')
  | cons c before ih =>
    cases before' with
    | nil => exact absurd (List.cons.inj same).1.symm (List.ne_of_not_mem_cons h)
    | cons c' before' =>
      obtain ⟨rfl, rest⟩ := List.cons.inj same
      obtain ⟨rfl, after⟩ := ih (List.not_mem_of_not_mem_cons h)
        (List.not_mem_of_not_mem_cons h') rest
      exact ⟨rfl, after⟩

theorem intercalate_append (given : ws ≠ []) :
    sep.intercalate ws ++ sep = ws.flatMap (· ++ sep) := by
  induction ws with
  | nil => exact absurd rfl given
  | cons w ws ih =>
    cases ws with
    | nil => simp
    | cons v ws =>
      rw [List.flatMap_cons, ← ih (List.cons_ne_nil v ws), List.intercalate_cons_cons,
        List.append_assoc]

theorem flatMap_append_inj (marked : mark ∈ sep) (hw : ∀ w ∈ ws, mark ∉ w)
    (hv : ∀ v ∈ vs, mark ∉ v) (same : ws.flatMap (· ++ sep) = vs.flatMap (· ++ sep)) : ws = vs := by
  obtain ⟨pre, post, rfl, first⟩ := List.eq_append_cons_of_mem marked
  induction ws generalizing vs with
  | nil =>
    cases vs with
    | nil => rfl
    | cons v vs => simp at same
  | cons w ws ih =>
    cases vs with
    | nil => simp at same
    | cons v vs =>
      obtain ⟨wFree, hw⟩ := List.forall_mem_cons.mp hw
      obtain ⟨vFree, hv⟩ := List.forall_mem_cons.mp hv
      simp only [List.flatMap_cons, List.append_assoc, List.cons_append] at same
      rw [← List.append_assoc w, ← List.append_assoc v] at same
      obtain ⟨heads, rest⟩ := append_mark_inj (by simp [wFree, first]) (by simp [vFree, first]) same
      rw [List.append_cancel_right heads, ih hw hv (by simpa using rest)]

/-- Words are told apart by a separator if there is a mark in it that none of them holds. -/
theorem intercalate_inj (marked : mark ∈ sep) (hw : ∀ w ∈ ws, w ≠ [] ∧ mark ∉ w)
    (hv : ∀ v ∈ vs, v ≠ [] ∧ mark ∉ v) (same : sep.intercalate ws = sep.intercalate vs) :
    ws = vs := by
  have no_word {us : List (List Char)} (hu : ∀ u ∈ us, u ≠ [] ∧ mark ∉ u)
      (empty : sep.intercalate us = []) : us = [] := by
    cases us with
    | nil => rfl
    | cons u us =>
      have : u = [] := by cases us <;> simp_all
      exact absurd this (hu u List.mem_cons_self).1
  cases ws with
  | nil => exact (no_word hv same.symm).symm
  | cons w ws =>
    cases vs with
    | nil => exact no_word hw same
    | cons v vs =>
      refine flatMap_append_inj marked (fun u hu => (hw u hu).2) (fun u hu => (hv u hu).2) ?_
      rw [← intercalate_append (List.cons_ne_nil w ws),
        ← intercalate_append (List.cons_ne_nil v vs), same]

end Joined

theorem trimWhere_eq_self {p : Char → Bool} {cs : List Char} (h : ∀ c ∈ cs, p c = false) :
    trimWhere p cs = cs := by
  have kept {ds : List Char} (h : ∀ c ∈ ds, p c = false) : ds.dropWhile p = ds := by
    cases ds with
    | nil => rfl
    | cons d ds => simp [h d]
  rw [trimWhere, kept h, kept (by simpa using h), List.reverse_reverse]

end Clausal.Text
