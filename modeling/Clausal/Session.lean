import Clausal.Session.Edit

namespace Clausal.Session

inductive PolaritySource where
  | current
  | saved (name : String)
  | given (pols : Polarities Variable)

inductive Command where
  | make (source : Source)
  | copyTo (target : String)
  | edit (e : Edit)
  /-- Compares with another formula; anything else is never the same. -/
  | sameAs (other : Option String)
  | polarities (save : Option String)
  | assignPure (source : PolaritySource)
  | solve (settings : Settings)
  | makeSolver (solver : String) (settings : Settings)
  | runSolver (solver : String)
  | solverStats (solver : String)
  | resultText
  | resultDimacs

/-- A solver for the formula at a place of the store, with the counters of its last run. -/
structure Solver where
  place : Nat
  options : Options
  stats : Stats := {}

/-- Names refer to places in the store of formulas. -/
structure Workspace where
  formulas : List (Formula Variable) := []
  names : List (String × Nat) := []
  polarities : List (String × Polarities Variable) := []
  solvers : List (String × Solver) := []
  lastResult : Option (Result Variable) := none

structure Answer where
  workspace : Workspace
  reply : Except Failure Reply
  events : List (Event Variable) := []

namespace Workspace

def formula? (w : Workspace) (name : String) : Option (Formula Variable) :=
  (find? w.names name).bind (fun place => w.formulas[place]?)

def store (w : Workspace) (name : String) (f : Formula Variable) : Workspace :=
  { w with formulas := w.formulas ++ [f], names := put w.names name w.formulas.length }

def replace (w : Workspace) (name : String) (f : Formula Variable) : Workspace :=
  match find? w.names name with
  | some place => { w with formulas := w.formulas.set place f }
  | none => w

def refuse (w : Workspace) (e : Failure) : Answer :=
  ⟨w, .error e, []⟩

def withFormula (w : Workspace) (name : String) (act : Formula Variable → Answer) : Answer :=
  match w.formula? name with
  | some f => act f
  | none => w.refuse (.unknownName name)

/-- Keeps the result of a run for later questions. -/
def conclude (w : Workspace) (run : Run Variable) : Answer :=
  match run.outcome with
  | .error e => ⟨w, .error (.ofSolve e), run.events⟩
  | .ok r => ⟨{ w with lastResult := some r }, .ok (.result r), run.events⟩

def applyEdit (w : Workspace) (name : String) (edited : Edited) : Answer :=
  ⟨w.replace name edited.formula, edited.reply, edited.events⟩

def polaritiesFrom (w : Workspace) (f : Formula Variable) :
    PolaritySource → Except Failure (Polarities Variable)
  | .current => .ok f.polarities
  | .saved name =>
    match find? w.polarities name with
    | some pols => .ok pols
    | none => .error (.unknownName name)
  | .given pols => .ok (tableOf pols)

def ofResult (w : Workspace) (reply : Result Variable → Reply) : Answer :=
  match w.lastResult with
  | some r => ⟨w, .ok (reply r), []⟩
  | none => w.refuse .noResult

def runSolver (clock : Nat → Float) (w : Workspace) (name : String) : Answer :=
  match find? w.solvers name with
  | none => w.refuse (.unknownName name)
  | some solver =>
    match w.formulas[solver.place]? with
    | none => w.refuse (.unknownName name)
    | some f =>
      let run := f.solve clock solver.options
      conclude { w with solvers := put w.solvers name { solver with stats := run.stats } } run

def makeSolver (w : Workspace) (name solver : String) (settings : Settings) : Answer :=
  match find? w.names name, settings.check with
  | none, _ => w.refuse (.unknownName name)
  | some _, .error e => w.refuse (.options e)
  | some place, .ok options =>
    ⟨{ w with solvers := put w.solvers solver { place := place, options := options } },
      .ok .nothing, []⟩

def step {G : Type} (clock : Nat → Float) (rng : RandomClauses.Rng G) (w : Workspace)
    (name : String) : Command → Answer
  | .make source =>
    let made := source.make rng
    match made.outcome with
    | .ok f => ⟨w.store name f, .ok .nothing, made.events⟩
    | .error e => ⟨w, .error e, made.events⟩
  | .copyTo target => w.withFormula name fun f =>
    ⟨w.store target f.copy, .ok .nothing, f.copyReport⟩
  | .edit e => w.withFormula name fun f => w.applyEdit name (e.run f)
  | .sameAs none => w.withFormula name fun _ => ⟨w, .ok (.truth false), []⟩
  | .sameAs (some other) => w.withFormula name fun f => w.withFormula other fun g =>
    ⟨w, .ok (.truth (f.sameClauses g)), []⟩
  | .polarities save => w.withFormula name fun f =>
    let pols := f.polarities
    let w := match save with
      | some key => { w with polarities := put w.polarities key pols }
      | none => w
    ⟨w, .ok (.polarities pols), []⟩
  | .assignPure source => w.withFormula name fun f =>
    match w.polaritiesFrom f source with
    | .ok pols => w.applyEdit name (simplified (f.assignPure pols))
    | .error e => w.refuse e
  | .solve settings => w.withFormula name fun f =>
    match settings.check with
    | .error e => w.refuse (.options e)
    | .ok options => w.conclude (f.solve clock options)
  | .makeSolver solver settings => w.makeSolver name solver settings
  | .runSolver solver => w.runSolver clock solver
  | .solverStats solver =>
    match find? w.solvers solver with
    | some s => ⟨w, .ok (.stats s.stats), []⟩
    | none => w.refuse (.unknownName solver)
  | .resultText => w.ofResult (fun r => .text r.text)
  | .resultDimacs => w.ofResult (fun r => .form r.dimacsText?)

end Workspace
end Clausal.Session
