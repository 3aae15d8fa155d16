import Clausal.CommandLine.Host
import Clausal.Proofs.Sources

namespace Clausal.CommandLine

variable {G : Type} {host : Host Id G} {r : Request} {clock : Nat → Float} {oracle : Oracle}
  {files : FileSystem Id}

/-- A limit that is looked at has a value. A refused limit on decisions hides the time limit. -/
def Request.LimitsGiven (r : Request) : Prop :=
  .maxDecisions ∉ r.hollow ∧ (.timeout ∈ r.hollow → ∃ n < 0, r.maxDecisions = some n)

def Response.Exits (response : Response) : Prop :=
  ∃ e : Exit, response.ending = .exit e ∧ e.code ∈ [0, 1, 10, 20]

def Task.loaded : Task → List Loaded
  | .file f => [f]
  | .bench _ (.ok files) => files
  | _ => []

def Request.answer (r : Request) (host : Host Id G) (oracle : Oracle) : Response :=
  r.respond host oracle (r.task host.toFileSystem).run

theorem Request.settings_eq_ok_iff : (∃ settings, r.settings = .ok settings) ↔ r.LimitsGiven := by
  unfold Request.settings Request.LimitsGiven
  by_cases decisions : .maxDecisions ∈ r.hollow
  · simp [decisions]
  by_cases time : .timeout ∈ r.hollow
  · cases limit : r.maxDecisions with
    | none => simp [decisions, time]
    | some n => by_cases negative : n < 0 <;> simp [decisions, time, negative]
  · simp [decisions, time]

section Single

variable {f : Formula Variable}

theorem Response.exits_failed (output : List String) (log : List Record) (message : String) :
    (Response.failed output log message).Exits :=
  ⟨.failed, rfl, by decide⟩

theorem Exit.code_ofStatus_mem (status : Status) : (ofStatus status).code ∈ [0, 1, 10, 20] := by
  cases status <;> decide

theorem Request.exits_checked (shown : List String) (result : Result Variable)
    (log : List Record) : (r.checked oracle f shown result log).Exits := by
  unfold Request.checked
  have answered : Response.Exits
      ⟨.exit (.ofStatus result.status), shown ++ [r.resultText result], log⟩ :=
    ⟨_, rfl, Exit.code_ofStatus_mem result.status⟩
  split
  · split
    · exact Response.exits_failed _ _ _
    · dsimp only
      split
      · exact answered
      · exact Response.exits_failed _ _ _
  · exact answered

theorem Request.runSingle_ending {b : Break} (h : r.settings = .error b) :
    (r.runSingle clock oracle f).ending = .broken b := by
  rw [Request.runSingle, h]

theorem Response.not_exits_of_broken {response : Response} {b : Break}
    (h : response.ending = .broken b) : ¬ response.Exits := by
  rintro ⟨e, exit, -⟩
  rw [h] at exit
  cases exit

theorem Request.exits_runSingle_iff : (r.runSingle clock oracle f).Exits ↔ r.LimitsGiven := by
  rw [← Request.settings_eq_ok_iff]
  cases given : r.settings with
  | error b =>
    refine iff_of_false (Response.not_exits_of_broken (Request.runSingle_ending given)) ?_
    rintro ⟨settings, h⟩
    cases h
  | ok settings =>
    refine iff_of_true ?_ ⟨settings, rfl⟩
    rw [Request.runSingle, given]
    dsimp only
    split
    · exact Response.exits_failed _ _ _
    · exact Request.exits_checked _ _ _

end Single

section Directory

variable {f : Loaded} {fs : List Loaded}

/-- Only limits without a value break a file off, and only once it has been read. -/
theorem Request.benchOne_error_iff {b : Break} :
    (r.benchOne clock f).1 = .error b ↔
      (∃ formula, readFormula f = .ok formula) ∧ r.settings = .error b := by
  unfold Request.benchOne
  cases readFormula f with
  | error message => simp
  | ok formula =>
    cases r.settings with
    | error b' => simp
    | ok settings =>
      dsimp only
      split <;> simp

theorem Request.benchAll_cons (r : Request) (clock : Nat → Float) (f : Loaded)
    (fs : List Loaded) : (r.benchAll clock (f :: fs)).1 =
      (r.benchOne clock f).1.bind fun status => (r.benchAll clock fs).1.map (status :: ·) := by
  rw [Request.benchAll]
  rcases r.benchOne clock f with ⟨b | status, log⟩
  · rfl
  · rfl

theorem Request.benchAll_eq_ok_iff {statuses : List (Option Status)} :
    (r.benchAll clock fs).1 = .ok statuses ↔
      fs.map (fun f => (r.benchOne clock f).1) = statuses.map .ok := by
  induction fs generalizing statuses with
  | nil => cases statuses <;> simp [Request.benchAll]
  | cons f fs ih =>
    rw [Request.benchAll_cons, List.map_cons]
    cases (r.benchOne clock f).1 with
    | error b => cases statuses <;> simp [Except.bind]
    | ok status =>
      cases statuses with
      | nil => cases (r.benchAll clock fs).1 <;> simp [Except.bind, Except.map]
      | cons s statuses =>
        rw [List.map_cons, List.cons.injEq, ← ih]
        cases (r.benchAll clock fs).1 <;> simp [Except.bind, Except.map]

theorem Request.exists_status {statuses : List (Option Status)}
    (h : (r.benchAll clock fs).1 = .ok statuses) (hf : f ∈ fs) :
    ∃ status, (r.benchOne clock f).1 = .ok status := by
  have mem : (r.benchOne clock f).1 ∈ statuses.map Except.ok := by
    rw [← Request.benchAll_eq_ok_iff.mp h]
    exact List.mem_map_of_mem hf
  obtain ⟨status, -, same⟩ := List.mem_map.mp mem
  exact ⟨status, same.symm⟩

theorem Request.benchAll_error {b : Break} (h : (r.benchAll clock fs).1 = .error b) :
    ∃ f ∈ fs, (r.benchOne clock f).1 = .error b := by
  induction fs with
  | nil => cases h
  | cons f fs ih =>
    rw [Request.benchAll_cons] at h
    cases one : (r.benchOne clock f).1 with
    | error b' =>
      rw [one] at h
      cases h
      exact ⟨f, List.mem_cons_self, one⟩
    | ok status =>
      rw [one] at h
      cases rest : (r.benchAll clock fs).1 with
      | error b' =>
        rw [rest] at h
        cases h
        obtain ⟨g, hg, broken⟩ := ih rest
        exact ⟨g, List.mem_cons_of_mem _ hg, broken⟩
      | ok statuses =>
        rw [rest] at h
        cases h

theorem Request.exists_benchAll_ok_iff (clock : Nat → Float) :
    (∃ statuses, (r.benchAll clock fs).1 = .ok statuses) ↔
      r.LimitsGiven ∨ ∀ f ∈ fs, ∃ message, readFormula f = .error message := by
  rw [← Request.settings_eq_ok_iff]
  cases outcome : (r.benchAll clock fs).1 with
  | ok statuses =>
    refine iff_of_true ⟨statuses, rfl⟩ ?_
    cases given : r.settings with
    | ok settings => exact .inl ⟨settings, rfl⟩
    | error b =>
      -- A formula would have asked for the limits and broken the run off.
      right
      intro f hf
      cases read : readFormula f with
      | error message => exact ⟨message, rfl⟩
      | ok formula =>
        obtain ⟨status, one⟩ := Request.exists_status outcome hf
        rw [Request.benchOne_error_iff.mpr ⟨⟨formula, read⟩, given⟩] at one
        cases one
  | error b =>
    obtain ⟨f, hf, one⟩ := Request.benchAll_error outcome
    obtain ⟨⟨formula, read⟩, given⟩ := Request.benchOne_error_iff.mp one
    refine iff_of_false ?_ ?_
    · rintro ⟨statuses, h⟩
      cases h
    · rintro (⟨settings, ok⟩ | unread)
      · rw [given] at ok
        cases ok
      · obtain ⟨message, wrong⟩ := unread f hf
        rw [read] at wrong
        cases wrong

theorem Request.exits_runBench_iff {directory : String} :
    (r.runBench host directory fs).Exits ↔
      r.LimitsGiven ∨ ∀ f ∈ fs, ∃ message, readFormula f = .error message := by
  unfold Request.runBench
  split
  · rename_i empty
    rw [List.isEmpty_iff.mp empty]
    exact iff_of_true (Response.exits_failed _ _ _) (.inr fun _ h => nomatch h)
  · rw [← Request.exists_benchAll_ok_iff host.clock]
    rcases r.benchAll host.clock fs with ⟨b | outcomes, log⟩
    · refine iff_of_false (Response.not_exits_of_broken rfl) ?_
      rintro ⟨statuses, h⟩
      cases h
    · refine iff_of_true ⟨_, rfl, ?_⟩ ⟨outcomes, rfl⟩
      cases outcomes.contains none <;> decide

end Directory

theorem Request.exits_respond_iff {task : Task}
    (known : ∀ vars clauses, task ≠ .random vars clauses) :
    (r.respond host oracle task).Exits ↔ task ≠ .nothing ∧
      (r.LimitsGiven ∨ ∀ f ∈ task.loaded, ∃ message, readFormula f = .error message) := by
  rcases task with f | ⟨directory, e | fs⟩ | ⟨vars, clauses⟩ | _
  · rw [Request.respond]
    cases read : readFormula f with
    | error message =>
      refine iff_of_true (Response.exits_failed _ _ _) ⟨nofun, .inr ?_⟩
      intro g hg
      rw [List.mem_singleton.mp hg]
      exact ⟨message, read⟩
    | ok formula =>
      dsimp only
      rw [Request.exits_runSingle_iff]
      constructor
      · intro given
        exact ⟨nofun, .inl given⟩
      · rintro ⟨-, given | unread⟩
        · exact given
        · obtain ⟨message, wrong⟩ := unread f List.mem_cons_self
          rw [read] at wrong
          cases wrong
  · exact iff_of_true (Response.exits_failed _ _ _) ⟨nofun, .inr nofun⟩
  · rw [Request.respond, Request.exits_runBench_iff]
    exact (and_iff_right nofun).symm
  · exact absurd rfl (known vars clauses)
  · refine iff_of_false (Response.not_exits_of_broken rfl) ?_
    rintro ⟨pathless, -⟩
    exact pathless rfl

/-- A file alone or a directory alone, where no family of instances is named. -/
theorem Request.OneSource.path_or_directory (one : r.OneSource) (h : r.random = none) :
    (∃ path, r.file = some path ∧ r.bench = none) ∨
      ∃ directory, r.bench = some directory ∧ r.file = none := by
  obtain ⟨s, only⟩ := one
  have named := (only s).mpr rfl
  cases s with
  | file =>
    obtain ⟨path, file⟩ := Option.isSome_iff_exists.mp named
    refine .inl ⟨path, file, ?_⟩
    simpa [Request.names] using only .bench
  | bench =>
    obtain ⟨directory, bench⟩ := Option.isSome_iff_exists.mp named
    refine .inr ⟨directory, bench, ?_⟩
    simpa [Request.names] using only .file
  | random => simp [Request.names, h] at named

theorem Request.task_file {path : String} (bench : r.bench = none) (random : r.random = none)
    (file : r.file = some path) : (r.task files).run = .file (load files path).run := by
  rw [Request.task, bench, random, file]
  rfl

theorem Request.task_nothing (bench : r.bench = some "") (random : r.random = none)
    (file : r.file = none) : (r.task files).run = .nothing := by
  rw [Request.task, bench, random, file]
  rfl

theorem Request.task_bench {directory : String} (bench : r.bench = some directory)
    (named : directory ≠ "") :
    (r.task files).run = .bench directory ((pathsLike files directory "*.cnf").run.run.map
      fun paths => (paths.mergeSort (fun a b => decide (a ≤ b))).map
        fun path => (load files path).run) := by
  have kept : r.bench.filter (· != "") = some directory := by simp [bench, named]
  rw [Request.task, kept]
  rw [Id.run_bind]
  cases (pathsLike files directory "*.cnf").run.run with
  | error e => rfl
  | ok paths => simp only [bind_pure_comp, Id.run_map, List.idRun_mapM, Except.map]

theorem Request.OneSource.task (one : r.OneSource) (files : FileSystem Id)
    (random : r.random = none) :
    (∀ vars clauses, (r.task files).run ≠ .random vars clauses) ∧
      ((r.task files).run = .nothing ↔ r.bench = some "") := by
  rcases one.path_or_directory random with ⟨path, file, bench⟩ | ⟨directory, bench, file⟩
  · rw [Request.task_file bench random file, bench]
    exact ⟨nofun, nofun, nofun⟩
  by_cases named : directory = ""
  · rw [named] at bench
    rw [Request.task_nothing bench random file]
    exact ⟨nofun, iff_of_true rfl bench⟩
  · rw [Request.task_bench bench named, bench]
    exact ⟨nofun, nofun, fun h => absurd (Option.some.inj h) named⟩

theorem run_of_understood {args : List String} (understood : Request.ofArguments args = .ok r)
    (host : Host Id G) (oracle : Oracle) :
    run host oracle args = .answered (r.answer host oracle) (.ofVerbosity r.verbosity) := by
  rw [run, understood]
  rfl

def noFiles : FileSystem Id where
  read _ := .error .notFound
  list _ := .error .notFound
  exists? _ := false

/-- Arguments that are understood name one source and are answered. Where this is a file or a
directory, the answer ends with an exit code, except for a directory that is named by the empty
string, and except where a limit is looked at that has no value: this takes a file that holds a
formula. -/
theorem exits_iff (host : Host Id G) (oracle : Oracle) :
    (∀ args r, Request.ofArguments args = .ok r → r.OneSource ∧
      run host oracle args = .answered (r.answer host oracle) (.ofVerbosity r.verbosity)) ∧
    ∀ r : Request, r.OneSource → r.random = none →
      ((r.answer host oracle).Exits ↔ r.bench ≠ some "" ∧
        (r.LimitsGiven ∨ ∀ f ∈ (r.task host.toFileSystem).run.loaded,
          ∃ message, readFormula f = .error message)) := by
  constructor
  · intro args r understood
    exact ⟨Request.oneSource_ofArguments understood, run_of_understood understood host oracle⟩
  · intro r one random
    obtain ⟨known, nothing⟩ := one.task host.toFileSystem random
    rw [Request.answer, Request.exits_respond_iff known, ne_eq, nothing]

/-- A file that cannot be read is reported even where the limit on decisions has no value. -/
theorem missing_file_exits :
    ∃ response level,
      run (noFiles.host 0) tableOracle ["--max-decisions=--", "absent.cnf"] =
        .answered response level ∧ response.Exits := by
  obtain ⟨r, understood, random, bench, file⟩ : ∃ r : Request,
      Request.ofArguments ["--max-decisions=--", "absent.cnf"] = .ok r ∧ r.random = none ∧
        r.bench = none ∧ r.file = some "absent.cnf" :=
    ⟨_, rfl, rfl, rfl, rfl⟩
  obtain ⟨answered, exits⟩ := exits_iff (noFiles.host 0) tableOracle
  obtain ⟨one, ran⟩ := answered _ r understood
  refine ⟨_, _, ran, (exits r one random).mpr ⟨by simp [bench], .inr ?_⟩⟩
  rw [Request.task_file bench random file]
  intro f hf
  rw [List.mem_singleton.mp hf]
  exact ⟨_, rfl⟩

/-- A directory that is named by the empty string counts as none, and then there is no path. -/
theorem unnamed_directory_breaks :
    run (noFiles.host 0) tableOracle ["--bench", ""] = .answered ⟨.broken .noPath, [], []⟩ .quiet ∧
    ¬ ∀ (G : Type) (host : Host Id G) (oracle : Oracle) (args : List String) (r : Request),
      Request.ofArguments args = .ok r → r.random = none →
        ∃ response level, run host oracle args = .answered response level ∧ response.Exits := by
  have broken : run (noFiles.host 0) tableOracle ["--bench", ""] =
      .answered ⟨.broken .noPath, [], []⟩ .quiet := rfl
  refine ⟨broken, ?_⟩
  intro all
  obtain ⟨response, level, answered, exits⟩ :=
    all _ (noFiles.host 0) tableOracle ["--bench", ""] _ rfl rfl
  rw [broken] at answered
  cases answered
  exact Response.not_exits_of_broken rfl exits

end Clausal.CommandLine
