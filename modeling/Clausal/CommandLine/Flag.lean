import Clausal.Text.Digit

namespace Clausal.CommandLine

inductive Flag where
  | help
  | bench
  | random
  | width
  | seed
  | showFormula
  | dimacsOutput
  | crossCheck
  | noVerify
  | maxDecisions
  | timeout
  | verbose
  deriving DecidableEq

namespace Flag

def spellings : List (String × Flag) := [
  ("-h", help), ("--help", help), ("--bench", bench), ("--random", random), ("--k", width),
  ("--seed", seed), ("--show-formula", showFormula), ("--dimacs-output", dimacsOutput),
  ("--cross-check", crossCheck), ("--no-verify", noVerify), ("--max-decisions", maxDecisions),
  ("--timeout", timeout), ("-v", verbose), ("--verbose", verbose)]

def arity : Flag → Nat
  | bench | width | seed | maxDecisions | timeout => 1
  | random => 2
  | _ => 0

def ofSpelling? (s : String) : Option Flag :=
  (spellings.find? (fun entry => entry.1 == s)).map Prod.snd

def label (f : Flag) : String :=
  "/".intercalate ((spellings.filter (fun entry => entry.2 = f)).map Prod.fst)

end Flag

/-- A flag in an argument, with what the argument holds behind it. -/
structure Spelled where
  flag : Flag
  /-- One dash and one letter. -/
  short : Bool
  attached : Option String

/-- Behind the separator there are only values. -/
def separator : String := "--"

inductive Word where
  | value (s : String)
  | separator
  | flag (s : Spelled)
  | unknown (s : String)

structure Ambiguous where
  arg : String
  spellings : List String

def isShort (cs : List Char) : Bool :=
  cs.getD 1 '-' != '-'

/-- A negative number, which is a value. A line feed may stand behind it. -/
def isNegativeNumber : List Char → Bool
  | '-' :: cs =>
    let digit (c : Char) : Bool := (Text.digit? c).isSome
    let body := if cs.getLast? = some '\n' then cs.dropLast else cs
    match body.dropWhile digit with
    | [] => !body.isEmpty
    | '.' :: places => !places.isEmpty && places.all digit
    | _ => false
  | _ => false

/-- The text before the first equals sign, and the text behind it if there is one. -/
def splitMark (cs : List Char) : List Char × Option String :=
  match cs.dropWhile (· != '=') with
  | [] => (cs, none)
  | _ :: rest => (cs.takeWhile (· != '='), some (String.ofList rest))

def candidates (cs : List Char) : List (String × Spelled) :=
  if isShort cs then
    (Flag.spellings.filter (fun entry => entry.1.toList == cs.take 2)).map fun (s, f) =>
      (s, ⟨f, true, some (String.ofList (cs.drop 2))⟩)
  else
    let (start, attached) := splitMark cs
    (Flag.spellings.filter (fun entry => start.isPrefixOf entry.1.toList)).map fun (s, f) =>
      (s, ⟨f, false, attached⟩)

/-- A word that begins with a dash and has more behind it. -/
def classifyDashed (arg : String) : Except Ambiguous Word :=
  let cs := arg.toList
  let (start, attached) := splitMark cs
  match Flag.ofSpelling? arg, attached, Flag.ofSpelling? (String.ofList start) with
  | some f, _, _ => .ok (.flag ⟨f, isShort cs, none⟩)
  | none, some _, some f => .ok (.flag ⟨f, isShort cs, attached⟩)
  | _, _, _ =>
    match candidates cs with
    | [(_, spelled)] => .ok (.flag spelled)
    | [] => .ok (if isNegativeNumber cs || cs.contains ' ' then .value arg else .unknown arg)
    | several => .error ⟨arg, several.map Prod.fst⟩

def classifyOne (arg : String) : Except Ambiguous Word :=
  match arg.toList with
  | '-' :: _ :: _ => classifyDashed arg
  | _ => .ok (.value arg)

def classify : List String → Except Ambiguous (List Word)
  | [] => .ok []
  | arg :: args =>
    if arg == separator then .ok (.separator :: args.map .value)
    else do
      let word ← classifyOne arg
      return word :: (← classify args)

end Clausal.CommandLine
