import Clausal.CommandLine.Flag
import Clausal.Decimal.Reader
import Clausal.Text.Quoted

namespace Clausal.CommandLine

inductive SourceName where
  | file
  | bench
  | random
  deriving DecidableEq

structure Request where
  file : Option String := none
  bench : Option String := none
  random : Option (Int × Int) := none
  width : Int := 3
  seed : Option Int := none
  showFormula : Bool := false
  dimacsOutput : Bool := false
  crossCheck : Bool := false
  noVerify : Bool := false
  maxDecisions : Option Int := none
  timeout : Option Float := none
  verbosity : Nat := 0
  /-- The flags that were given without the value that they take. -/
  hollow : List Flag := []

inductive UsageError where
  | noSource
  | valuesMissing (f : Flag)
  | notWhole (f : Flag) (s : String)
  | notNumber (f : Flag) (s : String)
  | conflict (later earlier : SourceName)
  | unrecognized (args : List String)
  | ambiguous (a : Ambiguous)
  | valueRefused (f : Flag) (s : String)

def SourceName.label : SourceName → String
  | file => "file"
  | bench => Flag.bench.label
  | random => Flag.random.label

def UsageError.text : UsageError → String
  | noSource => "one of the arguments file --bench --random is required"
  | valuesMissing f =>
    let expected := match f.arity with
      | 1 => "one argument"
      | _ => "2 arguments"
    "argument " ++ f.label ++ ": expected " ++ expected
  | notWhole f s => "argument " ++ f.label ++ ": invalid int value: " ++ Text.quoted s
  | notNumber f s => "argument " ++ f.label ++ ": invalid float value: " ++ Text.quoted s
  | conflict later earlier =>
    "argument " ++ later.label ++ ": not allowed with argument " ++ earlier.label
  | unrecognized args => "unrecognized arguments: " ++ " ".intercalate args
  | ambiguous a =>
    "ambiguous option: " ++ a.arg ++ " could match " ++ ", ".intercalate a.spellings
  | valueRefused f s => "argument " ++ f.label ++ ": ignored explicit argument " ++ Text.quoted s

/-- The last line of the report on a wrong use, before the line feeds at its end. -/
def UsageError.report (e : UsageError) : String :=
  let reversed := ("dpll-sat: error: " ++ e.text).toList.reverse
  String.ofList ((reversed.dropWhile (· == '\n')).takeWhile (· != '\n')).reverse

inductive Halt where
  | help
  | usage (e : UsageError)

/-- The request so far, the sources named so far, and the arguments that have no place. -/
structure Progress where
  request : Request := {}
  sources : List SourceName := []
  extras : List String := []

namespace Progress

def claim (p : Progress) (s : SourceName) (request : Request) : Except Halt Progress :=
  match [SourceName.file, .bench, .random].find? (fun o => o ≠ s && p.sources.contains o) with
  | some earlier => .error (.usage (.conflict s earlier))
  | none => .ok { p with request := request, sources := p.sources ++ [s] }

def leave (p : Progress) (args : List String) : Progress :=
  { p with extras := p.extras ++ args }

def whole (f : Flag) (s : String) : Except Halt Int :=
  match Numeral.read? s.toList with
  | some n => .ok n
  | none => .error (.usage (.notWhole f s))

def number (f : Flag) (s : String) : Except Halt Float :=
  match Decimal.readFloat? s.toList with
  | some x => .ok x
  | none => .error (.usage (.notNumber f s))

/-- Follows a flag with its values. Of a flag that is given twice the last values count. -/
def apply (p : Progress) (f : Flag) (values : List String) : Except Halt Progress :=
  let r := { p.request with hollow := p.request.hollow.filter (· ≠ f) }
  let set (r : Request) : Except Halt Progress := .ok { p with request := r }
  match f, values with
  | .help, _ => .error .help
  | .bench, [s] => p.claim .bench { r with bench := some s }
  | .random, [s, t] => do
    let m ← whole f s
    let n ← whole f t
    p.claim .random { r with random := some (m, n) }
  | .width, [s] => do set { r with width := ← whole f s }
  | .seed, [s] => do set { r with seed := some (← whole f s) }
  | .maxDecisions, [s] => do set { r with maxDecisions := some (← whole f s) }
  | .timeout, [s] => do set { r with timeout := some (← number f s) }
  | .showFormula, _ => set { r with showFormula := true }
  | .dimacsOutput, _ => set { r with dimacsOutput := true }
  | .crossCheck, _ => set { r with crossCheck := true }
  | .noVerify, _ => set { r with noVerify := true }
  | .verbose, _ => set { r with verbosity := r.verbosity + 1 }
  | _, _ => .error (.usage (.valuesMissing f))

/-- Short flags run together behind one dash. All that is attached to the last flag is refused where
its first letter is no flag. -/
def runTogether (f : Flag) : List Char → Except Halt (List Flag)
  | [] => .ok [f]
  | c :: cs =>
    match Flag.ofSpelling? (String.ofList ['-', c]) with
    | none => .error (.usage (.valueRefused f (String.ofList (c :: cs))))
    | some g => (runTogether g cs).map (f :: ·)

def applyAll (p : Progress) : List Flag → Except Halt Progress
  | [] => .ok p
  | f :: fs => (p.apply f []).bind (fun p => p.applyAll fs)

/-- Follows a flag to which only the separator is attached, so that it has no value. A directory
without a name and the seed zero do as well. -/
def applyHollow (p : Progress) : Flag → Except Halt Progress
  | .bench => p.apply .bench [""]
  | .seed => p.apply .seed ["0"]
  | f => .ok { p with request := { p.request with hollow := f :: p.request.hollow } }

def applyAttached (p : Progress) (s : Spelled) (attached : String) : Except Halt Progress :=
  match s.flag.arity with
  | 0 =>
    if s.short && attached != "" then
      (runTogether s.flag attached.toList).bind p.applyAll
    else .error (.usage (.valueRefused s.flag attached))
  | 1 => if attached == separator then p.applyHollow s.flag else p.apply s.flag [attached]
  | _ => .error (.usage (.valuesMissing s.flag))

/-- Takes a value that no flag asks for. The first one names the file. -/
def takeFile (p : Progress) (fileAsked : Bool) (s : String) : Except Halt Progress :=
  if fileAsked then .ok (p.leave [s]) else p.claim .file { p.request with file := some s }

/-- Follows the words. A flag may wait for values, some of which have been read; the place of the
file may be taken. -/
def follow (p : Progress) (fileAsked : Bool) : Option (Flag × List String) → List Word →
    Except Halt Progress
  | none, [] => .ok p
  | some (f, _), [] => .error (.usage (.valuesMissing f))
  | some (f, values), .value s :: words =>
    let values := values ++ [s]
    if values.length = f.arity then do
      let p ← p.apply f values
      p.follow fileAsked none words
    else p.follow fileAsked (some (f, values)) words
  | some (f, _), _ :: _ => .error (.usage (.valuesMissing f))
  | none, .value s :: .separator :: words => do
    let p ← p.takeFile fileAsked s
    (if fileAsked then p.leave [separator] else p).follow true none words
  | none, .value s :: words => do
    let p ← p.takeFile fileAsked s
    p.follow true none words
  | none, .separator :: words =>
    (if fileAsked then p.leave [separator] else p).follow fileAsked none words
  | none, .unknown s :: words => (p.leave [s]).follow fileAsked none words
  | none, .flag s :: words =>
    match s.attached with
    | some attached => do
      let p ← p.applyAttached s attached
      p.follow fileAsked none words
    | none =>
      if s.flag.arity = 0 then do
        let p ← p.apply s.flag []
        p.follow fileAsked none words
      else p.follow fileAsked (some (s.flag, [])) words

end Progress

/-- A missing source is reported before arguments that have no place. -/
def Request.ofArguments (args : List String) : Except Halt Request :=
  match classify args with
  | .error a => .error (.usage (.ambiguous a))
  | .ok words => do
    let p ← Progress.follow {} false none words
    if p.sources.isEmpty then .error (.usage .noSource)
    else if p.extras.isEmpty then return p.request
    else .error (.usage (.unrecognized p.extras))

end Clausal.CommandLine
