import Clausal.CommandLine.Request

namespace Clausal.CommandLine

/-- A flag without a value that changes nothing about the verdict. -/
inductive Switch where
  | showFormula
  | dimacsOutput
  | noVerify
  | verbose
  deriving DecidableEq

namespace Switch

def spelling : Switch → String
  | showFormula => "--show-formula"
  | dimacsOutput => "--dimacs-output"
  | noVerify => "--no-verify"
  | verbose => "-v"

def flag : Switch → Flag
  | showFormula => .showFormula
  | dimacsOutput => .dimacsOutput
  | noVerify => .noVerify
  | verbose => .verbose

def word (s : Switch) : Word :=
  .flag ⟨s.flag, isShort s.spelling.toList, none⟩

def turn (r : Request) : Switch → Request
  | showFormula => { r with showFormula := true }
  | dimacsOutput => { r with dimacsOutput := true }
  | noVerify => { r with noVerify := true }
  | verbose => { r with verbosity := r.verbosity + 1 }

theorem classifyOne_spelling (s : Switch) : classifyOne s.spelling = .ok s.word := by
  cases s with
  | showFormula => rfl
  | dimacsOutput => rfl
  | noVerify => rfl
  | verbose => rfl

theorem spelling_ne_separator (s : Switch) : (s.spelling == separator) = false := by
  cases s <;> decide

theorem arity_flag (s : Switch) : s.flag.arity = 0 := by
  cases s <;> rfl

theorem turn_file (s : Switch) (r : Request) (file : Option String) :
    s.turn { r with file := file } = { s.turn r with file := file } := by
  cases s <;> rfl

theorem foldl_turn_file (ss : List Switch) (r : Request) (file : Option String) :
    ss.foldl turn { r with file := file } = { ss.foldl turn r with file := file } := by
  induction ss generalizing r with
  | nil => rfl
  | cons s ss ih => rw [List.foldl_cons, turn_file, ih, List.foldl_cons]

theorem hollow_turn (s : Switch) (r : Request) : (s.turn r).hollow = r.hollow := by
  cases s <;> rfl

theorem hollow_foldl_turn (ss : List Switch) (r : Request) :
    (ss.foldl turn r).hollow = r.hollow := by
  induction ss generalizing r with
  | nil => rfl
  | cons s ss ih => rw [List.foldl_cons, ih, hollow_turn]

end Switch

section Reading

theorem classify_switches (ss : List Switch) (args : List String) :
    classify (ss.map Switch.spelling ++ args) =
      (classify args).map (ss.map Switch.word ++ ·) := by
  induction ss with
  | nil =>
    show classify args = (classify args).map ([] ++ ·)
    cases classify args <;> rfl
  | cons s ss ih =>
    rw [List.map_cons, List.cons_append, classify, s.spelling_ne_separator, s.classifyOne_spelling,
      ih]
    cases classify args <;> rfl

theorem ne_separator_of_value {path : String} (h : classifyOne path = .ok (.value path)) :
    (path == separator) = false := by
  cases same : path == separator with
  | false => rfl
  | true =>
    rw [eq_of_beq same] at h
    cases h

theorem classify_file (before after : List Switch) {path : String}
    (positional : classifyOne path = .ok (.value path)) :
    classify (before.map Switch.spelling ++ path :: after.map Switch.spelling) =
      .ok (before.map Switch.word ++ .value path :: after.map Switch.word) := by
  have behind : classify (after.map Switch.spelling) = .ok (after.map Switch.word) := by
    have := classify_switches after []
    rw [List.append_nil] at this
    rw [this]
    show Except.ok (after.map Switch.word ++ []) = _
    rw [List.append_nil]
  rw [classify_switches, classify, ne_separator_of_value positional, positional, behind]
  rfl

end Reading

namespace Progress

variable {p : Progress}

theorem apply_switch (s : Switch) (hollow : p.request.hollow = []) :
    p.apply s.flag [] = .ok { p with request := s.turn p.request } := by
  obtain ⟨request, sources, extras⟩ := p
  obtain ⟨file, bench, random, width, seed, _, _, _, _, _, _, _, _⟩ := request
  cases hollow
  cases s <;> rfl

/-- Flags are followed one by one, and the place of the file stays as it is. -/
theorem follow_switches (ss : List Switch) (words : List Word) (asked : Bool)
    (hollow : p.request.hollow = []) :
    p.follow asked none (ss.map Switch.word ++ words) =
      { p with request := ss.foldl Switch.turn p.request }.follow asked none words := by
  induction ss generalizing p with
  | nil => rfl
  | cons s ss ih =>
    have next : (s.turn p.request).hollow = [] := by rw [s.hollow_turn, hollow]
    rw [List.map_cons, List.cons_append, Switch.word, follow]
    simp only [s.arity_flag, ↓reduceIte, apply_switch s hollow]
    exact @ih { p with request := s.turn p.request } next

theorem follow_file (after : List Switch) (path : String) (hollow : p.request.hollow = [])
    (fresh : p.sources = []) :
    p.follow false none (.value path :: after.map Switch.word) =
      .ok { p with
        request := after.foldl Switch.turn { p.request with file := some path }
        sources := [.file] } := by
  have taken : p.takeFile false path =
      .ok { p with request := { p.request with file := some path }, sources := [.file] } := by
    rw [takeFile, claim, fresh]
    rfl
  have rest := @follow_switches
    { p with request := { p.request with file := some path }, sources := [.file] }
    after [] true hollow
  rw [List.append_nil] at rest
  cases after with
  | nil =>
    rw [List.map_nil, follow, taken]
    · rfl
    · simp
  | cons s after =>
    rw [follow, taken]
    · exact rest
    · simp [Switch.word]

end Progress

/-- The request is for one file, without a budget and without a comparison. -/
structure Request.AsksFor (r : Request) (path : String) : Prop where
  file : r.file = some path
  bench : r.bench = none
  random : r.random = none
  crossCheck : r.crossCheck = false
  decisions : r.maxDecisions = none
  time : r.timeout = none
  hollow : r.hollow = []

namespace Request

theorem AsksFor.turn {r : Request} {path : String} (h : r.AsksFor path) (s : Switch) :
    (s.turn r).AsksFor path := by
  obtain ⟨file, bench, random, crossCheck, decisions, time, hollow⟩ := h
  cases s <;> exact ⟨file, bench, random, crossCheck, decisions, time, hollow⟩

theorem asksFor_switches (ss : List Switch) {r : Request} {path : String} (h : r.AsksFor path) :
    (ss.foldl Switch.turn r).AsksFor path := by
  induction ss generalizing r with
  | nil => exact h
  | cons s ss ih => exact ih (h.turn s)

theorem dimacsOutput_switches (ss : List Switch) (r : Request) :
    (ss.foldl Switch.turn r).dimacsOutput = true ↔
      r.dimacsOutput = true ∨ .dimacsOutput ∈ ss := by
  induction ss generalizing r with
  | nil => simp
  | cons s ss ih =>
    rw [List.foldl_cons, ih, List.mem_cons]
    cases s <;> simp [Switch.turn]

/-- A path with flags before and behind it is understood. -/
theorem ofArguments_file (before after : List Switch) {path : String}
    (positional : classifyOne path = .ok (.value path)) :
    ofArguments (before.map Switch.spelling ++ path :: after.map Switch.spelling) =
      .ok ((before ++ after).foldl Switch.turn { file := some path }) := by
  have start : (before.foldl Switch.turn {}).hollow = [] := Switch.hollow_foldl_turn before {}
  rw [ofArguments, classify_file before after positional]
  dsimp only
  rw [Progress.follow_switches before _ false rfl, Progress.follow_file after path start rfl,
    List.foldl_append, Switch.foldl_turn_file before {} (some path)]
  rfl

end Request
end Clausal.CommandLine
