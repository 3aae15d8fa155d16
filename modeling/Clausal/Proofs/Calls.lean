import Clausal.CommandLine.Host
import Clausal.Proofs.Arguments
import Clausal.Proofs.PrintedModels

namespace Clausal.CommandLine

open Text Dimacs

section Single

variable {m : Type → Type} {G : Type} {host : Host m G} {r : Request} {path : String}

theorem Request.AsksFor.settings (h : r.AsksFor path) :
    r.settings = .ok { options := { verify := !r.noVerify } } := by
  rw [Request.settings, h.hollow, h.decisions, h.time]
  rfl

theorem Request.AsksFor.runSingle (h : r.AsksFor path) (clock : Nat → Float) (oracle : Oracle)
    (f : Formula Variable) :
    ∃ result shown log, (f.solve clock { verify := !r.noVerify }).outcome = .ok result ∧
      r.runSingle clock oracle f =
        ⟨.exit (.ofStatus result.status), shown ++ [r.resultText result], log⟩ := by
  obtain ⟨result, solved⟩ : ∃ result,
      (f.solve clock { verify := !r.noVerify }).outcome = .ok result :=
    Formula.exists_result rfl rfl
  have under : solveUnder clock { options := { verify := !r.noVerify } } f =
      (.ok result, (f.solve clock { verify := !r.noVerify }).events.map Event.record) := by
    show ((f.solve clock { verify := !r.noVerify }).outcome.mapError _, _) = _
    rw [solved]
    rfl
  refine ⟨result, if r.showFormula then ["Formula: " ++ f.text] else [],
    (f.solve clock { verify := !r.noVerify }).events.map Event.record, solved, ?_⟩
  rw [Request.runSingle, h.settings]
  dsimp only
  rw [under]
  dsimp only
  rw [Request.checked, h.crossCheck]
  rfl

theorem Request.AsksFor.task (h : r.AsksFor path) [Monad m] [LawfulMonad m]
    (files : FileSystem m) {content : List UInt8}
    (stored : files.read path = pure (.ok content)) :
    r.task files = pure (.file ⟨path, .ok content⟩) := by
  have loaded : load files path = pure ⟨path, .ok content⟩ := by
    rw [load, stored, pure_bind]
  rw [Request.task, h.bench, h.random, h.file]
  show (do return Task.file (← load files path)) = _
  rw [loaded, pure_bind]

theorem code_ofStatus (status : Status) :
    ((Exit.ofStatus status).code = 10 ↔ status = .satisfiable) ∧
      ((Exit.ofStatus status).code = 20 ↔ status = .unsatisfiable) ∧
      (Exit.ofStatus status).code ≠ 1 := by
  cases status <;> decide

theorem readFormula_text (path text : String) :
    readFormula ⟨path, .ok text.toUTF8.data.toList⟩ =
      (parseLines (lines endsFileLine text.toList)).mapError
        (fun e => (Failure.malformed e).text) := by
  show (parseFile text.toUTF8.data.toList).mapError _ = _
  rw [parseFile_toUTF8]
  cases parseLines (lines endsFileLine text.toList) <;> rfl

/-- A file whose lines that count are clauses is answered by the verdict on these. -/
theorem Request.AsksFor.respond_of_readAs (h : r.AsksFor path) (host : Host m G)
    (oracle : Oracle) {text : String} {clauses : List (Clause Variable)}
    (read : ReadAs (lines endsFileLine text.toList) clauses) :
    ∃ result shown log, ((Formula.ofClauses clauses none).solve host.clock
        { verify := !r.noVerify }).outcome = .ok result ∧
      r.respond host oracle (.file ⟨path, .ok text.toUTF8.data.toList⟩) =
        ⟨.exit (.ofStatus result.status), shown ++ [r.resultText result], log⟩ := by
  obtain ⟨result, shown, log, solved, answered⟩ :=
    h.runSingle host.clock oracle (Formula.ofClauses clauses none)
  refine ⟨result, shown, log, solved, ?_⟩
  rw [Request.respond, readFormula_text, parseLines_of_readAs read]
  exact answered

theorem Request.respond_of_error {oracle : Oracle} {text : String} {e : ParseError}
    (wrong : parseLines (lines endsFileLine text.toList) = .error e) :
    (r.respond host oracle (.file ⟨path, .ok text.toUTF8.data.toList⟩)).ending = .exit .failed := by
  rw [Request.respond, readFormula_text, wrong]
  rfl

/-- What an answer says about the lines of a file. -/
structure Tells (r : Request) (ls : List (List Char)) (response : Response) (e : Exit) : Prop where
  ends : response.ending = .exit e
  satisfiable : e.code = 10 ↔
    ∃ clauses, ReadAs ls clauses ∧ ∃ a : Valuation Variable, a.Satisfies clauses
  unsatisfiable : e.code = 20 ↔
    ∃ clauses, ReadAs ls clauses ∧ ∀ a : Valuation Variable, ¬ a.Satisfies clauses
  failed : e.code = 1 ↔ ∃ l ∈ significant ls, ∃ fault, parseClause l.1 = .error fault
  printed : e.code = 10 → r.dimacsOutput = true → ∀ clauses, ReadAs ls clauses →
    ∃ literals, IsModel literals clauses ∧
      response.output.getLast? = some ("s SATISFIABLE\n" ++ Result.modelLine literals)

theorem Request.AsksFor.tells_of_readAs (h : r.AsksFor path) (host : Host m G) (oracle : Oracle)
    {text : String} {clauses : List (Clause Variable)}
    (read : ReadAs (lines endsFileLine text.toList) clauses) :
    ∃ e, Tells r (lines endsFileLine text.toList)
      (r.respond host oracle (.file ⟨path, .ok text.toUTF8.data.toList⟩)) e := by
  obtain ⟨result, shown, log, solved, answer⟩ := h.respond_of_readAs host oracle read
  obtain ⟨sat, unsat, fine⟩ := code_ofStatus result.status
  have model : result.status = .satisfiable ↔ ∃ a : Valuation Variable, a.Satisfies clauses := by
    rw [Formula.satisfiable_iff solved]
    exact exists_congr fun a => Valuation.satisfies_map_distinct
  have noModel : result.status = .unsatisfiable ↔
      ∀ a : Valuation Variable, ¬ a.Satisfies clauses := by
    rw [← not_exists, ← model]
    cases result.status <;> simp
  refine ⟨.ofStatus result.status, ?_, ?_, ?_, ?_, ?_⟩
  · rw [answer]
  · rw [sat, model]
    constructor
    · intro satisfied
      exact ⟨clauses, read, satisfied⟩
    · rintro ⟨clauses', read', satisfied⟩
      rwa [read.unique read'] at satisfied
  · rw [unsat, noModel]
    constructor
    · intro unsatisfied
      exact ⟨clauses, read, unsatisfied⟩
    · rintro ⟨clauses', read', unsatisfied⟩
      rwa [read.unique read'] at unsatisfied
  · refine iff_of_false fine ?_
    rintro ⟨l, hl, fault, wrong⟩
    obtain ⟨c, -, parsed⟩ := read.clause_of_mem hl
    rw [parsed] at wrong
    cases wrong
  · intro code dimacs clauses' read'
    rw [read.unique read']
    obtain ⟨literals, isModel, printed⟩ :=
      dimacsText?_ofClauses read.numbered rfl solved (sat.mp code)
    refine ⟨literals, isModel, ?_⟩
    rw [answer, Request.resultText, dimacs, printed]
    exact List.getLast?_concat

theorem Request.tells_of_error {oracle : Oracle} {text : String} {e : ParseError}
    (wrong : parseLines (lines endsFileLine text.toList) = .error e)
    {l : List Char × Nat} (hl : l ∈ significant (lines endsFileLine text.toList))
    (fault : parseClause l.1 = .error e.fault) :
    Tells r (lines endsFileLine text.toList)
      (r.respond host oracle (.file ⟨path, .ok text.toUTF8.data.toList⟩)) .failed := by
  have unread (clauses : List (Clause Variable)) :
      ¬ ReadAs (lines endsFileLine text.toList) clauses := by
    intro read
    obtain ⟨c, -, parsed⟩ := read.clause_of_mem hl
    rw [parsed] at fault
    cases fault
  refine ⟨respond_of_error wrong, ?_, ?_, ?_, ?_⟩
  · refine iff_of_false (by decide) ?_
    rintro ⟨clauses, read, -⟩
    exact unread clauses read
  · refine iff_of_false (by decide) ?_
    rintro ⟨clauses, read, -⟩
    exact unread clauses read
  · exact iff_of_true rfl ⟨l, hl, _, fault⟩
  · intro code
    exact absurd code (by decide)

theorem Request.AsksFor.tells (h : r.AsksFor path) (host : Host m G) (oracle : Oracle)
    (text : String) :
    ∃ e, Tells r (lines endsFileLine text.toList)
      (r.respond host oracle (.file ⟨path, .ok text.toUTF8.data.toList⟩)) e := by
  rcases readAs_or_error (lines endsFileLine text.toList) with
    ⟨clauses, read⟩ | ⟨e, wrong, l, hl, fault⟩
  · exact h.tells_of_readAs host oracle read
  · exact ⟨.failed, Request.tells_of_error wrong hl fault⟩

/-- A path with flags around it is a call for the file, and every call for a file with a text in
UTF-8 ends with an exit code that tells what the lines of the text are, and what models they
have. -/
theorem file_answered :
    (∀ (before after : List Switch) (path : String), classifyOne path = .ok (.value path) →
      ∃ r, Request.ofArguments
          (before.map Switch.spelling ++ path :: after.map Switch.spelling) = .ok r ∧
        r.AsksFor path ∧ (r.dimacsOutput = true ↔ .dimacsOutput ∈ before ++ after)) ∧
    ∀ (m : Type → Type) [Monad m] [LawfulMonad m] (G : Type) (host : Host m G) (oracle : Oracle)
      (args : List String) (r : Request) (path text : String),
      Request.ofArguments args = .ok r → r.AsksFor path →
      host.read path = pure (.ok text.toUTF8.data.toList) →
      ∃ response e, run host oracle args = pure (.answered response (.ofVerbosity r.verbosity)) ∧
        Tells r (lines endsFileLine text.toList) response e := by
  constructor
  · intro before after path positional
    refine ⟨_, Request.ofArguments_file before after positional, ?_, ?_⟩
    · exact Request.asksFor_switches _ ⟨rfl, rfl, rfl, rfl, rfl, rfl, rfl⟩
    · rw [Request.dimacsOutput_switches]
      simp
  · intro m _ _ G host oracle args r path text understood asks stored
    obtain ⟨e, tells⟩ := asks.tells host oracle text
    refine ⟨_, e, ?_, tells⟩
    rw [run, understood]
    show (do return Outcome.answered (r.respond host oracle (← r.task host.toFileSystem)) _) = _
    rw [asks.task host.toFileSystem stored, pure_bind]

/-- A comment, the problem line and two clauses, one of which repeats a literal; what stands behind
the percent sign does not count. -/
def smallText : String :=
  "c small\r\np cnf 3 2\n 3 -1 3 0\n\n-3 0\n%\n0\n"

def smallFiles : FileSystem Id where
  read path := if path = "small.cnf" then .ok smallText.toUTF8.data.toList else .error .notFound
  list _ := .error .notDirectory
  exists? path := path == "small.cnf"

theorem small_file_answered :
    ∃ response level literals,
      run (smallFiles.host 0) tableOracle ["-v", "small.cnf", "--dimacs-output", "-v"] =
        .answered response level ∧
      response.ending = .exit .satisfiable ∧
      IsModel literals [[⟨.number 3, true⟩, ⟨.number 1, false⟩, ⟨.number 3, true⟩],
        [⟨.number 3, false⟩]] ∧
      response.output.getLast? = some ("s SATISFIABLE\n" ++ Result.modelLine literals) := by
  obtain ⟨r, understood, asks, dimacs⟩ :=
    file_answered.1 [.verbose] [.dimacsOutput, .verbose] "small.cnf" rfl
  obtain ⟨response, e, ran, tells⟩ :=
    file_answered.2 Id _ (smallFiles.host 0) tableOracle _ r "small.cnf" smallText understood asks
      rfl
  have read : ReadAs (lines endsFileLine smallText.toList)
      [[⟨.number 3, true⟩, ⟨.number 1, false⟩, ⟨.number 3, true⟩], [⟨.number 3, false⟩]] := rfl
  have code : e.code = 10 := by
    refine tells.satisfiable.mpr ⟨_, read, ⟨fun _ => false, fun _ => rfl⟩, ?_⟩
    intro c hc
    rcases List.mem_cons.mp hc with rfl | hc
    · exact ⟨⟨.number 1, false⟩, by simp, rfl⟩
    · rw [List.mem_singleton.mp hc]
      exact ⟨⟨.number 3, false⟩, by simp, rfl⟩
  have exit : e = .satisfiable := by
    cases e <;> first | rfl | exact absurd code (by decide)
  obtain ⟨literals, isModel, printed⟩ := tells.printed code (dimacs.mpr (by decide)) _ read
  exact ⟨response, _, literals, ran, exit ▸ tells.ends, isModel, printed⟩

end Single

end Clausal.CommandLine
