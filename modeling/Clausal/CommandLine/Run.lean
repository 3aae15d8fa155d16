import Clausal.CommandLine.Pattern
import Clausal.CommandLine.Request
import Clausal.Report
import Clausal.Source

namespace Clausal.CommandLine

/-- The exit codes of a single formula; a directory without errors has the code zero. -/
inductive Exit where
  | ok
  | failed
  | misused
  | satisfiable
  | unsatisfiable
  deriving DecidableEq

def Exit.code : Exit → Nat
  | ok => 0
  | failed => 1
  | misused => 2
  | satisfiable => 10
  | unsatisfiable => 20

def Exit.ofStatus : Status → Exit
  | .satisfiable => satisfiable
  | .unsatisfiable => unsatisfiable

structure Loaded where
  path : String
  content : Except PathError (List UInt8)

inductive Task where
  | file (f : Loaded)
  | bench (directory : String) (files : Except PathError (List Loaded))
  | random (vars clauses : Int)
  /-- A directory without a name, and no file either. -/
  | nothing

def load {m : Type → Type} [Monad m] (files : FileSystem m) (path : String) : m Loaded := do
  let content ← files.read path
  return ⟨path, content⟩

/-- A directory is searched for formulas in the order of their paths. -/
def Request.task {m : Type → Type} [Monad m] (files : FileSystem m) (r : Request) : m Task := do
  match r.bench.filter (· != ""), r.random, r.file with
  | some directory, _, _ =>
    match ← (pathsLike files directory "*.cnf").run with
    | .error e => return .bench directory (.error e)
    | .ok paths =>
      let loaded ← (paths.mergeSort (fun a b => decide (a ≤ b))).mapM (load files)
      return .bench directory (.ok loaded)
  | none, some (vars, clauses), _ => return .random vars clauses
  | none, none, some path => return .file (← load files path)
  | none, none, none => return .nothing

/-- What breaks a call off: a value that is needed was not given. -/
inductive Break where
  /-- There is neither a directory nor a file. -/
  | noPath
  | noWidth
  | noDecisions
  | noTimeout

def Break.text : Break → String
  | noPath => "expected str, bytes or os.PathLike object, not NoneType"
  | noWidth => "'<' not supported between instances of 'int' and 'list'"
  | noDecisions => "'<' not supported between instances of 'list' and 'int'"
  | noTimeout => "'<=' not supported between instances of 'list' and 'int'"

/-- The limit on decisions is looked at first. If it is refused, no time limit is needed. -/
def Request.settings (r : Request) : Except Break Settings :=
  if r.hollow.contains .maxDecisions then .error .noDecisions
  else if r.hollow.contains .timeout && !r.maxDecisions.any (· < 0) then .error .noTimeout
  else .ok {
    options := { verify := !r.noVerify }
    maxDecisions := r.maxDecisions
    timeout := r.timeout.map .real }

/-- The verdict of a second method on whether a formula has a model. -/
abbrev Oracle := Formula Variable → Except Failure Bool

def tableOracle : Oracle := fun f =>
  (f.firstModel.mapError .ofTable).map Option.isSome

inductive Ending where
  | exit (e : Exit)
  | broken (b : Break)

/-- What goes to the standard output and to the log before a call ends. -/
structure Response where
  ending : Ending
  output : List String := []
  log : List Record := []

def errorRecord (message : String) : Record :=
  ⟨.error, message⟩

def Response.failed (output : List String) (log : List Record) (message : String) : Response :=
  ⟨.exit .failed, output, log ++ [errorRecord message]⟩

def disagreement (status : Status) (expected : Bool) : String :=
  "oracle disagrees: solver=" ++ status.text ++ " oracle=" ++
    (if expected then Status.satisfiable else .unsatisfiable).text

/-- A result as it is printed. A formula of numbers always has the form of signed numbers. -/
def Request.resultText (r : Request) (result : Result Variable) : String :=
  if r.dimacsOutput then result.dimacsText?.getD "" else result.text

def readFormula (f : Loaded) : Except String (Formula Variable) :=
  match f.content with
  | .error e => .error (e.text f.path)
  | .ok bytes => (Dimacs.parseFile bytes).mapError (fun e => (Failure.ofFile e).text)

def solveUnder (clock : Nat → Float) (settings : Settings) (f : Formula Variable) :
    Except String (Result Variable) × List Record :=
  match settings.check with
  | .error e => (.error e.text, [])
  | .ok options =>
    let run := f.solve clock options
    (run.outcome.mapError (fun e => (Failure.ofSolve e).text), run.events.map Event.record)

/-- The answer for a result that a second method agrees with, if it is asked. -/
def Request.checked (r : Request) (oracle : Oracle) (f : Formula Variable) (shown : List String)
    (result : Result Variable) (log : List Record) : Response :=
  let answer : Response :=
    ⟨.exit (.ofStatus result.status), shown ++ [r.resultText result], log⟩
  if r.crossCheck then
    match oracle f with
    | .error e => .failed shown log e.text
    | .ok expected =>
      if expected = (result.status = .satisfiable : Bool) then answer
      else .failed shown log (disagreement result.status expected)
  else answer

def Request.runSingle (r : Request) (clock : Nat → Float) (oracle : Oracle)
    (f : Formula Variable) : Response :=
  let shown := if r.showFormula then ["Formula: " ++ f.text] else []
  match r.settings with
  | .error b => ⟨.broken b, shown, []⟩
  | .ok settings =>
    match solveUnder clock settings f with
    | (.error message, log) => .failed shown log message
    | (.ok result, log) => r.checked oracle f shown result log

def fileName (path : String) : String :=
  (splitPath path).2

def Request.benchOne (r : Request) (clock : Nat → Float) (f : Loaded) :
    Except Break (Option Status) × List Record :=
  let warning (message : String) : Record := ⟨.warning, fileName f.path ++ ": " ++ message⟩
  match readFormula f with
  | .error message => (.ok none, [warning message])
  | .ok formula =>
    match r.settings with
    | .error b => (.error b, [])
    | .ok settings =>
      match solveUnder clock settings formula with
      | (.error message, log) => (.ok none, log ++ [warning message])
      | (.ok result, log) => (.ok (some result.status), log)

def Request.benchAll (r : Request) (clock : Nat → Float) :
    List Loaded → Except Break (List (Option Status)) × List Record
  | [] => (.ok [], [])
  | f :: fs =>
    match r.benchOne clock f with
    | (.error b, log) => (.error b, log)
    | (.ok status, log) =>
      let (statuses, more) := r.benchAll clock fs
      (statuses.map (status :: ·), log ++ more)

def benchSummary (elapsed : Float) (outcomes : List (Option Status)) : String :=
  countText outcomes.length ++ " instances in " ++ Decimal.twoPlaces elapsed ++ "s: " ++
    countText (outcomes.count (some .satisfiable)) ++ " SAT, " ++
    countText (outcomes.count (some .unsatisfiable)) ++ " UNSAT, " ++
    countText (outcomes.count none) ++ " errors"

/-- What a call takes from outside: the files, the clock of its searches, the seconds that a
directory takes, and random numbers. -/
structure Host (m : Type → Type) (G : Type) extends FileSystem m where
  clock : Nat → Float
  elapsed : Float
  rng : RandomClauses.Rng G

section Answer

variable {m : Type → Type} {G : Type} (host : Host m G)

def Request.runBench (r : Request) (directory : String) (files : List Loaded) : Response :=
  if files.isEmpty then .failed [] [] ("no .cnf files found in " ++ directory)
  else
    match r.benchAll host.clock files with
    | (.error b, log) => ⟨.broken b, [], log⟩
    | (.ok outcomes, log) =>
      ⟨.exit (if outcomes.contains none then .failed else .ok),
        [benchSummary host.elapsed outcomes], log⟩

def Request.runRandom (r : Request) (oracle : Oracle) (vars clauses : Int) : Response :=
  if r.hollow.contains .width then ⟨.broken .noWidth, [], []⟩
  else
    let made := (Source.random vars clauses r.width r.seed).make host.rng
    let log := made.events.map Event.record
    match made.outcome with
    | .error e => .failed [] log e.text
    | .ok formula =>
      let response := r.runSingle host.clock oracle formula
      { response with log := log ++ response.log }

def Request.respond (r : Request) (oracle : Oracle) : Task → Response
  | .nothing => ⟨.broken .noPath, [], []⟩
  | .bench directory (.error e) => .failed [] [] (e.text directory)
  | .bench directory (.ok files) => r.runBench host directory files
  | .random vars clauses => r.runRandom host oracle vars clauses
  | .file f =>
    match readFormula f with
    | .error message => .failed [] [] message
    | .ok formula => r.runSingle host.clock oracle formula

inductive Outcome where
  | help
  | usage (e : UsageError)
  | answered (response : Response) (threshold : Level)

def run [Monad m] (oracle : Oracle) (args : List String) : m Outcome := do
  match Request.ofArguments args with
  | .error .help => return .help
  | .error (.usage e) => return .usage e
  | .ok request =>
    let task ← request.task host.toFileSystem
    return .answered (request.respond host oracle task) (.ofVerbosity request.verbosity)

end Answer

end Clausal.CommandLine
