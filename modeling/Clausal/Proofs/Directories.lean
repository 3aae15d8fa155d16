import Clausal.Proofs.Clocks
import Clausal.Proofs.Endings

namespace Clausal.CommandLine

variable {G : Type} {host other : Host Id G} {r : Request} {clock : Nat → Float} {oracle : Oracle}
  {files : FileSystem Id}

def Request.alone (r : Request) (path : String) : Request :=
  { r with bench := none, random := none, file := some path }

namespace Ending

def code? : Ending → Option Nat
  | exit e => some e.code
  | broken _ => none

/-- How a call for a single file ends, by what became of this file in a directory. -/
def ofBench : Except Break (Option Status) → Ending
  | .error b => broken b
  | .ok none => exit .failed
  | .ok (some status) => exit (.ofStatus status)

theorem code?_ofBench_eq_none {outcome : Except Break (Option Status)} :
    (ofBench outcome).code? = none ↔ ∃ b, outcome = .error b := by
  rcases outcome with b | _ | status <;> simp [ofBench, code?]

theorem code?_ofBench_ok (status : Option Status) :
    ((ofBench (.ok status)).code? = some 10 ↔ status = some .satisfiable) ∧
      ((ofBench (.ok status)).code? = some 20 ↔ status = some .unsatisfiable) ∧
      ((ofBench (.ok status)).code? = some 1 ↔ status = none) := by
  rcases status with _ | _ | _ <;> decide

end Ending

def tallyLine (elapsed : Float) (total satisfiable unsatisfiable errors : Nat) : String :=
  countText total ++ " instances in " ++ Decimal.twoPlaces elapsed ++ "s: " ++
    countText satisfiable ++ " SAT, " ++ countText unsatisfiable ++ " UNSAT, " ++
    countText errors ++ " errors"

/-- What is printed and answered for the files at some paths, by the codes of the calls for them. -/
structure Tallies (elapsed : Float) (paths : List String) (code : String → Option Nat)
    (response : Response) : Prop where
  printed : response.output = [tallyLine elapsed paths.length (paths.countP (code · = some 10))
    (paths.countP (code · = some 20)) (paths.countP (code · = some 1))]
  total : paths.countP (code · = some 10) + paths.countP (code · = some 20) +
    paths.countP (code · = some 1) = paths.length
  ending : response.ending.code? = some (if paths.countP (code · = some 1) = 0 then 0 else 1)

def Host.loadAll (host : Host Id G) (paths : List String) : List Loaded :=
  paths.map fun path => (load host.toFileSystem path).run

/-- What becomes of one file of a directory. -/
def Request.outcomeAt (r : Request) (host : Host Id G) (path : String) :
    Except Break (Option Status) :=
  (r.benchOne host.clock (load host.toFileSystem path).run).1

theorem Request.ending_alone (unchecked : r.crossCheck = false) (path : String) :
    ((r.alone path).answer host oracle).ending = .ofBench (r.outcomeAt host path) := by
  have same : (r.alone path).settings = r.settings := rfl
  rw [Request.answer, Request.task_file rfl rfl rfl, Request.respond]
  unfold Request.outcomeAt Request.benchOne
  cases readFormula (load host.toFileSystem path).run with
  | error message => rfl
  | ok formula =>
    dsimp only
    rw [Request.runSingle, same]
    cases r.settings with
    | error b => rfl
    | ok settings =>
      dsimp only
      rcases solveUnder host.clock settings formula with ⟨message | result, log⟩
      · rfl
      · have without : (r.alone path).crossCheck = false := unchecked
        dsimp only
        rw [Request.checked, without]
        rfl

theorem timeout_of_check {settings : Settings} {options : Options}
    (h : settings.check = .ok options) : options.timeout = settings.timeout := by
  unfold Settings.check Options.withBudget at h
  split at h
  · cases h
  · cases h
  · cases h
    rfl

theorem Request.timeout_settings {settings : Settings} (h : r.settings = .ok settings)
    (untimed : r.timeout = none) : settings.timeout = none := by
  unfold Request.settings at h
  split at h
  · cases h
  · split at h
    · cases h
    · cases h
      simp [untimed]

theorem Request.benchOne_clock (untimed : r.timeout = none) (clock clock' : Nat → Float)
    (f : Loaded) : (r.benchOne clock f).1 = (r.benchOne clock' f).1 := by
  unfold Request.benchOne
  cases readFormula f with
  | error message => rfl
  | ok formula =>
    cases given : r.settings with
    | error b => rfl
    | ok settings =>
      dsimp only [solveUnder]
      cases checked : settings.check with
      | error e => rfl
      | ok options =>
        have untimed : options.timeout = none :=
          (timeout_of_check checked).trans (Request.timeout_settings given untimed)
        dsimp only
        rw [formula.solve_timed options untimed clock' clock]
        dsimp only [Run.timed]
        cases (formula.solve clock' options).outcome <;> rfl

theorem count_total (outcomes : List (Option Status)) :
    outcomes.count (some .satisfiable) + outcomes.count (some .unsatisfiable) +
      outcomes.count none = outcomes.length := by
  induction outcomes with
  | nil => rfl
  | cons status outcomes ih =>
    rcases status with _ | _ | _ <;> simp <;> omega

/-- In whichever order the files are looked at, as many have an outcome as have its code. -/
theorem countP_code {paths sorted : List String} {outcome : String → Except Break (Option Status)}
    {statuses : List (Option Status)} {n : Nat} {status : Option Status} (same : sorted.Perm paths)
    (all : sorted.map outcome = statuses.map .ok)
    (code : ∀ s, (Ending.ofBench (.ok s)).code? = some n ↔ s = status) :
    paths.countP (fun path => (Ending.ofBench (outcome path)).code? = some n) =
      statuses.count status := by
  let coded (o : Except Break (Option Status)) : Bool := (Ending.ofBench o).code? = some n
  calc paths.countP (coded ∘ outcome)
      = sorted.countP (coded ∘ outcome) := (same.countP_eq _).symm
    _ = (sorted.map outcome).countP coded := List.countP_map.symm
    _ = (statuses.map .ok).countP coded := by rw [all]
    _ = statuses.countP (coded ∘ .ok) := List.countP_map
    _ = statuses.count status := by
      rw [List.count]
      refine List.countP_congr ?_
      intro s _
      simp [coded, code]

theorem tallies_of_outcomes {paths sorted : List String}
    {outcome : String → Except Break (Option Status)} {statuses : List (Option Status)}
    (same : sorted.Perm paths) (all : sorted.map outcome = statuses.map .ok) (elapsed : Float)
    (log : List Record) : Tallies elapsed paths (fun path => (Ending.ofBench (outcome path)).code?)
      ⟨.exit (if statuses.contains none then .failed else .ok), [benchSummary elapsed statuses],
        log⟩ := by
  have length : statuses.length = paths.length := by
    rw [← same.length_eq, ← List.length_map (f := outcome), all, List.length_map]
  have satisfiable := countP_code same all fun s => (Ending.code?_ofBench_ok s).1
  have unsatisfiable := countP_code same all fun s => (Ending.code?_ofBench_ok s).2.1
  have errors := countP_code same all fun s => (Ending.code?_ofBench_ok s).2.2
  constructor
  · rw [satisfiable, unsatisfiable, errors, ← length]
    rfl
  · rw [satisfiable, unsatisfiable, errors, ← length]
    exact count_total statuses
  · rw [errors]
    by_cases wrong : none ∈ statuses
    · simp [wrong, List.count_eq_zero, Ending.code?, Exit.code]
    · simp [wrong, List.count_eq_zero, Ending.code?, Exit.code]

section Directory

variable {fs : List Loaded}

theorem Request.runBench_of_ok {statuses : List (Option Status)} (directory : String)
    (nonempty : fs ≠ [])
    (h : (r.benchAll host.clock fs).1 = .ok statuses) :
    ∃ log, r.runBench host directory fs =
      ⟨.exit (if statuses.contains none then .failed else .ok),
        [benchSummary host.elapsed statuses], log⟩ := by
  rw [Request.runBench, if_neg (by simpa using nonempty)]
  rcases all : r.benchAll host.clock fs with ⟨outcome, log⟩
  rw [all] at h
  cases h
  exact ⟨log, rfl⟩

theorem Request.runBench_of_error {b : Break} (directory : String) (nonempty : fs ≠ [])
    (h : (r.benchAll host.clock fs).1 = .error b) :
    (r.runBench host directory fs).output = [] ∧
      (r.runBench host directory fs).ending = .broken b := by
  rw [Request.runBench, if_neg (by simpa using nonempty)]
  rcases all : r.benchAll host.clock fs with ⟨outcome, log⟩
  rw [all] at h
  cases h
  exact ⟨rfl, rfl⟩

section Order

variable {paths sorted : List String} {directory : String}

theorem Request.benchAll_loadAll_eq_ok_iff {statuses : List (Option Status)} :
    (r.benchAll host.clock (host.loadAll paths)).1 = .ok statuses ↔
      paths.map (r.outcomeAt host) = statuses.map .ok := by
  rw [Request.benchAll_eq_ok_iff, Host.loadAll, List.map_map]
  rfl

theorem Host.loadAll_ne_nil (same : sorted.Perm paths) (nonempty : paths ≠ []) :
    host.loadAll sorted ≠ [] := by
  intro empty
  rw [List.map_eq_nil_iff.mp empty] at same
  exact nonempty same.nil_eq.symm

/-- If every file has an outcome, every call for one of them ends, and the counts are of these. -/
theorem Request.tallied (same : sorted.Perm paths) (nonempty : paths ≠ [])
    {statuses : List (Option Status)}
    (h : (r.benchAll host.clock (host.loadAll sorted)).1 = .ok statuses) :
    (∀ path ∈ paths, (Ending.ofBench (r.outcomeAt host path)).code? ≠ none) ∧
      Tallies host.elapsed paths (fun path => (Ending.ofBench (r.outcomeAt host path)).code?)
        (r.runBench host directory (host.loadAll sorted)) := by
  have all := Request.benchAll_loadAll_eq_ok_iff.mp h
  constructor
  · intro path hp unended
    obtain ⟨b, broken⟩ := Ending.code?_ofBench_eq_none.mp unended
    have looked : r.outcomeAt host path ∈ statuses.map .ok :=
      all ▸ List.mem_map_of_mem (same.mem_iff.mpr hp)
    obtain ⟨status, -, one⟩ := List.mem_map.mp looked
    rw [broken] at one
    cases one
  · obtain ⟨log, answered⟩ :=
      Request.runBench_of_ok directory (Host.loadAll_ne_nil same nonempty) h
    rw [answered]
    exact tallies_of_outcomes same all host.elapsed log

/-- If the run over the files is broken off, so is the call for one of them. -/
theorem Request.untallied (same : sorted.Perm paths) (nonempty : paths ≠ []) {b : Break}
    (h : (r.benchAll host.clock (host.loadAll sorted)).1 = .error b) :
    (∃ path ∈ paths, (Ending.ofBench (r.outcomeAt host path)).code? = none) ∧
      ¬ r.LimitsGiven ∧
      (r.runBench host directory (host.loadAll sorted)).output = [] ∧
      (r.runBench host directory (host.loadAll sorted)).ending.code? = none := by
  obtain ⟨f, hf, broken⟩ := Request.benchAll_error h
  obtain ⟨path, hp, rfl⟩ := List.mem_map.mp hf
  obtain ⟨output, ending⟩ :=
    Request.runBench_of_error directory (Host.loadAll_ne_nil same nonempty) h
  refine ⟨⟨path, same.mem_iff.mp hp, Ending.code?_ofBench_eq_none.mpr ⟨b, broken⟩⟩, ?_, output, ?_⟩
  · intro given
    obtain ⟨settings, ok⟩ := Request.settings_eq_ok_iff.mpr given
    rw [(Request.benchOne_error_iff.mp broken).2] at ok
    cases ok
  · rw [ending]
    rfl

end Order

theorem Request.answer_bench {directory : String} {paths : List String}
    (bench : r.bench = some directory) (named : directory ≠ "")
    (found : (pathsLike host.toFileSystem directory "*.cnf").run.run = .ok paths) :
    r.answer host oracle =
      r.runBench host directory (host.loadAll (paths.mergeSort fun a b => decide (a ≤ b))) := by
  rw [Request.answer, Request.task_bench bench named, found]
  rfl

/-- The code that the call for one file of a directory ends with, unless it is broken off. -/
def Request.codeAlone (r : Request) (host : Host Id G) (oracle : Oracle) (path : String) :
    Option Nat :=
  ((r.alone path).answer host oracle).ending.code?

theorem Request.codeAlone_eq (unchecked : r.crossCheck = false)
    (files : other.toFileSystem = host.toFileSystem)
    (timing : other.clock = host.clock ∨ r.timeout = none) :
    r.codeAlone other oracle = fun path => (Ending.ofBench (r.outcomeAt host path)).code? := by
  funext path
  rw [Request.codeAlone, Request.ending_alone unchecked]
  unfold Request.outcomeAt
  rw [files]
  rcases timing with clock | untimed
  · rw [clock]
  · rw [Request.benchOne_clock untimed other.clock host.clock]

/-- A directory with files is answered from the calls for its files, made with the same files under
the same clock, or under any clock if there is no time limit. Unless one of these is broken off, the
counts are of their codes, and the call ends with zero if none of them ends with one. Only a limit
without a value breaks a call for a file off, and then the directory prints nothing. -/
theorem directory_agrees (host : Host Id G) (oracle : Oracle) :
    (∀ args r, Request.ofArguments args = .ok r →
      run host oracle args = .answered (r.answer host oracle) (.ofVerbosity r.verbosity)) ∧
    ∀ (r : Request) (directory : String) (paths : List String) (other : Host Id G),
      r.bench = some directory → directory ≠ "" →
      (pathsLike host.toFileSystem directory "*.cnf").run.run = .ok paths → paths ≠ [] →
      r.crossCheck = false → other.toFileSystem = host.toFileSystem →
      (other.clock = host.clock ∨ r.timeout = none) →
      ((∀ path ∈ paths, r.codeAlone other oracle path ≠ none) →
        Tallies host.elapsed paths (r.codeAlone other oracle) (r.answer host oracle)) ∧
      (r.LimitsGiven → ∀ path ∈ paths, r.codeAlone other oracle path ≠ none) ∧
      ((∃ path ∈ paths, r.codeAlone other oracle path = none) →
        (r.answer host oracle).output = [] ∧ (r.answer host oracle).ending.code? = none) := by
  refine ⟨fun args r understood => run_of_understood understood host oracle, ?_⟩
  intro r directory paths other bench named found nonempty unchecked files timing
  rw [Request.codeAlone_eq unchecked files timing, Request.answer_bench bench named found]
  -- The files are looked at in the order of their paths, which no count sees.
  have same := List.mergeSort_perm paths fun a b => decide (a ≤ b)
  cases outcome : (r.benchAll host.clock
      (host.loadAll (paths.mergeSort fun a b => decide (a ≤ b)))).1 with
  | ok statuses =>
    obtain ⟨ended, tallies⟩ := Request.tallied same nonempty outcome
    refine ⟨fun _ => tallies, fun _ => ended, ?_⟩
    rintro ⟨path, hp, unended⟩
    exact absurd unended (ended path hp)
  | error b =>
    obtain ⟨⟨path, hp, unended⟩, lacking, broken⟩ := Request.untallied same nonempty outcome
    refine ⟨?_, fun given => absurd given lacking, fun _ => broken⟩
    intro ended
    exact absurd unended (ended path hp)

end Directory

/-- A directory with four names of formulas: one formula has a model, one has none, one file holds
no text, and one name is that of a directory. -/
def mixedFiles : FileSystem Id where
  read path :=
    if path = "d/a.cnf" then .ok "1 0\n".toUTF8.data.toList
    else if path = "d/b.cnf" then .ok "1 0\n-1 0\n".toUTF8.data.toList
    else if path = "d/c.cnf" then .ok [255]
    else if path = "d/e.cnf" then .error .isDirectory
    else .error .notFound
  list path :=
    if path = "d" then
      .ok [⟨"b.cnf", false⟩, ⟨"notes", false⟩, ⟨"e.cnf", true⟩, ⟨"a.cnf", false⟩, ⟨"c.cnf", false⟩]
    else .error .notFound
  exists? path := path == "d"

theorem mixed_directory_tallied :
    ∃ response, run (mixedFiles.host 0) tableOracle ["--bench", "d", "--max-decisions", "5"] =
        .answered response .quiet ∧
      response.output = [tallyLine 0 4 1 1 2] ∧ response.ending.code? = some 1 := by
  let r : Request := { bench := some "d", maxDecisions := some 5 }
  let slow : Host Id Random.Generator := { mixedFiles.host 0 with clock := fun _ => 3600 }
  have satisfiable : r.codeAlone slow tableOracle "d/a.cnf" = some 10 := by decide +kernel
  have unsatisfiable : r.codeAlone slow tableOracle "d/b.cnf" = some 20 := by decide +kernel
  have noText : r.codeAlone slow tableOracle "d/c.cnf" = some 1 := rfl
  have noFile : r.codeAlone slow tableOracle "d/e.cnf" = some 1 := rfl
  have found : (pathsLike mixedFiles "d" "*.cnf").run.run =
      .ok ["d/b.cnf", "d/e.cnf", "d/a.cnf", "d/c.cnf"] := eq_ok_of_toOption (by decide +kernel)
  obtain ⟨answered, agrees⟩ := directory_agrees (mixedFiles.host 0) tableOracle
  obtain ⟨tallied, ended, -⟩ :=
    agrees r "d" _ slow rfl (by decide) found (by decide) rfl rfl (.inr rfl)
  have tallies := tallied (ended ⟨by simp [r], by simp [r]⟩)
  refine ⟨_, answered _ r rfl, ?_, ?_⟩
  · rw [tallies.printed]
    simp [satisfiable, unsatisfiable, noText, noFile]
    rfl
  · rw [tallies.ending]
    simp [satisfiable, unsatisfiable, noText, noFile]

end Clausal.CommandLine
