import Clausal.CommandLine.Request
import Clausal.Formula.Input

namespace Clausal.CommandLine

/-- Whether the request names a source of the kind. -/
def Request.names (r : Request) : SourceName → Bool
  | .file => r.file.isSome
  | .bench => r.bench.isSome
  | .random => r.random.isSome

def Request.OneSource (r : Request) : Prop :=
  ∃ s, ∀ t, r.names t = true ↔ t = s

namespace Progress

/-- What the request names has been noted, and it is of one kind. -/
structure Noted (p : Progress) : Prop where
  names : ∀ s, p.request.names s = true ↔ s ∈ p.sources
  one : ∀ s ∈ p.sources, ∀ t ∈ p.sources, s = t

variable {p q : Progress}

theorem Noted.of_names {r : Request} (noted : p.Noted) (same : ∀ s, r.names s = p.request.names s) :
    { p with request := r }.Noted := by
  refine ⟨?_, noted.one⟩
  intro s
  rw [same]
  exact noted.names s

theorem Noted.claim {s : SourceName} {r : Request} (noted : p.Noted)
    (adds : ∀ t, r.names t = true ↔ p.request.names t = true ∨ t = s)
    (h : p.claim s r = .ok q) : q.Noted := by
  rw [Progress.claim] at h
  split at h
  · cases h
  · rename_i clear
    cases h
    have before : ∀ t ∈ p.sources, t = s := by
      intro t ht
      have free := List.find?_eq_none.mp clear t (by cases t <;> simp)
      simpa [ht] using free
    have all : ∀ t ∈ p.sources ++ [s], t = s := by
      intro t ht
      rcases List.mem_append.mp ht with ht | ht
      · exact before t ht
      · exact List.mem_singleton.mp ht
    constructor
    · intro t
      rw [adds, noted.names, List.mem_append, List.mem_singleton]
    · intro t ht u hu
      rw [all t ht, all u hu]

theorem Noted.leave (noted : p.Noted) (args : List String) : (p.leave args).Noted :=
  ⟨noted.names, noted.one⟩

/-- Only a directory and a family of instances are claimed; the other flags set what is not a
source. -/
theorem Noted.apply {f : Flag} {values : List String} (noted : p.Noted)
    (h : p.apply f values = .ok q) : q.Noted := by
  have kept {r : Request} (h : Except.ok { p with request := r } = Except.ok (ε := Halt) q)
      (same : ∀ s, r.names s = p.request.names s) : q.Noted := by
    cases h
    exact noted.of_names same
  unfold Progress.apply at h
  dsimp only at h
  split at h
  case h_1 => cases h
  case h_2 =>
    refine noted.claim ?_ h
    intro t
    cases t <;> simp [Request.names]
  case h_3 =>
    obtain ⟨m, -, h⟩ := ok_of_bind h
    obtain ⟨n, -, h⟩ := ok_of_bind h
    refine noted.claim ?_ h
    intro t
    cases t <;> simp [Request.names]
  case h_13 => cases h
  all_goals
    first
    | exact kept h fun s => by cases s <;> rfl
    | obtain ⟨n, -, h⟩ := ok_of_bind h
      exact kept h fun s => by cases s <;> rfl

theorem Noted.applyAll {fs : List Flag} (noted : p.Noted) (h : p.applyAll fs = .ok q) :
    q.Noted := by
  induction fs generalizing p with
  | nil =>
    cases h
    exact noted
  | cons f fs ih =>
    obtain ⟨p', applied, h⟩ := ok_of_bind h
    exact ih (noted.apply applied) h

theorem Noted.applyHollow {f : Flag} (noted : p.Noted) (h : p.applyHollow f = .ok q) :
    q.Noted := by
  unfold Progress.applyHollow at h
  split at h
  · exact noted.apply h
  · exact noted.apply h
  · cases h
    exact noted.of_names fun s => by cases s <;> rfl

theorem Noted.applyAttached {s : Spelled} {attached : String} (noted : p.Noted)
    (h : p.applyAttached s attached = .ok q) : q.Noted := by
  unfold Progress.applyAttached at h
  split at h
  · split at h
    · obtain ⟨fs, -, h⟩ := ok_of_bind h
      exact noted.applyAll h
    · cases h
  · split at h
    · exact noted.applyHollow h
    · exact noted.apply h
  · cases h

theorem Noted.takeFile {asked : Bool} {s : String} (noted : p.Noted)
    (h : p.takeFile asked s = .ok q) : q.Noted := by
  unfold Progress.takeFile at h
  split at h
  · cases h
    exact noted.leave [s]
  · refine noted.claim ?_ h
    intro t
    cases t <;> simp [Request.names]

theorem Noted.leave_if (noted : p.Noted) (asked : Bool) (args : List String) :
    (if asked then p.leave args else p).Noted := by
  cases asked with
  | true => exact noted.leave args
  | false => exact noted

/-- Whatever is followed, what is named has been noted. -/
theorem Noted.follow {asked : Bool} {waiting : Option (Flag × List String)} {words : List Word}
    (noted : p.Noted) (h : p.follow asked waiting words = .ok q) : q.Noted := by
  fun_induction Progress.follow p asked waiting words with
  | case1 =>
    cases h
    exact noted
  | case2 => cases h
  | case3 _ _ _ _ _ _ _ _ ih =>
    obtain ⟨p', applied, h⟩ := ok_of_bind h
    exact ih p' (noted.apply applied) h
  | case4 _ _ _ _ _ _ _ _ ih => exact ih noted h
  | case5 => cases h
  | case6 _ asked _ _ ih =>
    obtain ⟨p', taken, h⟩ := ok_of_bind h
    exact ih p' ((noted.takeFile taken).leave_if asked _) h
  | case7 _ _ _ _ _ ih =>
    obtain ⟨p', taken, h⟩ := ok_of_bind h
    exact ih p' (noted.takeFile taken) h
  | case8 _ asked _ ih => exact ih (noted.leave_if asked _) h
  | case9 _ _ s _ ih => exact ih (noted.leave [s]) h
  | case10 _ _ _ _ _ _ ih =>
    obtain ⟨p', applied, h⟩ := ok_of_bind h
    exact ih p' (noted.applyAttached applied) h
  | case11 _ _ _ _ _ _ ih =>
    obtain ⟨p', applied, h⟩ := ok_of_bind h
    exact ih p' (noted.apply applied) h
  | case12 _ _ _ _ _ _ ih => exact ih noted h

theorem Noted.start : ({} : Progress).Noted where
  names s := by cases s <;> decide
  one _ h := absurd h List.not_mem_nil

end Progress

/-- What is understood names one source. -/
theorem Request.oneSource_ofArguments {args : List String} {r : Request}
    (h : Request.ofArguments args = .ok r) : r.OneSource := by
  unfold Request.ofArguments at h
  split at h
  · cases h
  · obtain ⟨p, followed, h⟩ := ok_of_bind h
    have noted := Progress.Noted.start.follow followed
    split at h
    · cases h
    · rename_i sources
      split at h
      · cases h
        obtain ⟨s, hs⟩ := List.exists_mem_of_ne_nil p.sources (by simpa using sources)
        refine ⟨s, ?_⟩
        intro t
        rw [noted.names]
        constructor
        · intro ht
          exact noted.one t ht s hs
        · rintro rfl
          exact hs
      · cases h

end Clausal.CommandLine
