import Clausal.CommandLine.Files

namespace Clausal.CommandLine

/-- A part of a set: a character, or those from `low` to `high`; none if `high` comes first. -/
inductive SetItem where
  | one (c : Char)
  | range (low high : Char)

inductive Piece where
  | star
  | any
  | one (c : Char)
  | set (negated : Bool) (items : List SetItem)

def SetItem.holds (c : Char) : SetItem → Bool
  | one d => c == d
  | range low high => low ≤ c && c ≤ high

def SetItem.isEmpty : SetItem → Bool
  | one _ => false
  | range low high => high < low

/-- A hyphen between two characters makes a range of them. -/
def setItems : List Char → List SetItem
  | a :: '-' :: b :: cs => .range a b :: setItems cs
  | a :: cs => .one a :: setItems cs
  | [] => []

/-- The text of a set and what follows its bracket. A bracket that comes first belongs to the
set. -/
def closeSet? : List Char → Option (List Char × List Char)
  | ']' :: cs => (splitAtBracket cs).map (fun (inner, rest) => (']' :: inner, rest))
  | cs => splitAtBracket cs
where
  splitAtBracket (cs : List Char) : Option (List Char × List Char) :=
    match cs.dropWhile (· != ']') with
    | [] => none
    | _ :: rest => some (cs.takeWhile (· != ']'), rest)

/-- A set without its empty ranges. If an exclamation mark comes first then, it negates the set as
one in front of it does, and a hyphen behind it makes no range. -/
def Piece.ofItems (negated : Bool) (items : List SetItem) : Piece :=
  match negated, items.filter (fun item => !item.isEmpty) with
  | false, .one '!' :: items => .set true items
  | false, .range '!' high :: items => .set true (.one '-' :: .one high :: items)
  | _, items => .set negated items

/-- The set that an open bracket begins, and what follows it. A bracket that is not closed stands
for itself. -/
def readSet (cs : List Char) : Piece × List Char :=
  let (negated, inner) := match cs with
    | '!' :: inner => (true, inner)
    | inner => (false, inner)
  match closeSet? inner with
  | some (inner, rest) => (.ofItems negated (setItems inner), rest)
  | none => (.one '[', cs)

/-- The pieces of a pattern, at most as many as given. -/
def readPieces : Nat → List Char → List Piece
  | 0, _ | _, [] => []
  | n + 1, '*' :: cs => .star :: readPieces n cs
  | n + 1, '?' :: cs => .any :: readPieces n cs
  | n + 1, '[' :: cs =>
    let (piece, rest) := readSet cs
    piece :: readPieces n rest
  | n + 1, c :: cs => .one c :: readPieces n cs

/-- No pattern has more pieces than characters. -/
def pieces (pattern : String) : List Piece :=
  readPieces pattern.length pattern.toList

def Piece.holds (c : Char) : Piece → Bool
  | star => false
  | any => true
  | one d => c == d
  | set negated items => items.any (·.holds c) != negated

/-- Whether the pieces cover each tail of the characters, from all of them to none. -/
def coverTails (cs : List Char) : List Piece → List Bool
  | [] => cs.map (fun _ => false) ++ [true]
  | .star :: ps =>
    (coverTails cs ps).foldr (fun covered later => (covered || later.headD false) :: later) []
  | p :: ps =>
    List.zipWith (fun c covered => p.holds c && covered) cs (coverTails cs ps).tail ++ [false]

def covers (ps : List Piece) (cs : List Char) : Bool :=
  (coverTails cs ps).headD false

def isPattern (s : String) : Bool :=
  s.toList.any (fun c => c == '*' || c == '?' || c == '[')

def isHidden (s : String) : Bool :=
  s.startsWith "."

/-- Behind a directory there is a slash, unless it ends with one. -/
def joinPath (directory name : String) : String :=
  if directory == "" || directory.endsWith "/" then directory ++ name
  else directory ++ "/" ++ name

def trimSlashes (cs : List Char) : List Char :=
  let kept := (cs.reverse.dropWhile (· == '/')).reverse
  if kept.isEmpty then cs else kept

/-- What comes before the last slash, without its slashes, and the name behind it. -/
def splitPath (path : String) : String × String :=
  let reversed := path.toList.reverse
  let name := (reversed.takeWhile (· != '/')).reverse
  (String.ofList (trimSlashes (reversed.dropWhile (· != '/')).reverse), String.ofList name)

variable {m : Type → Type} [Monad m]

/-- A directory that cannot be listed has no entries, but its path must be one. -/
def entriesOf (files : FileSystem m) (directory : String) : ExceptT PathError m (List Entry) :=
  tryCatch (ExceptT.mk (files.list directory)) fun
    | .zeroCharacter => throw .zeroCharacter
    | _ => pure []

/-- The names in a directory that a pattern covers. Hidden names need a pattern that is hidden. -/
def namesLike (files : FileSystem m) (directory pattern : String) (directoriesOnly : Bool) :
    ExceptT PathError m (List String) := do
  let ps := pieces pattern
  let entries ← entriesOf files directory
  return (entries.filter fun e =>
    (e.isDirectory || !directoriesOnly) && (!isHidden e.name || isHidden pattern) &&
      covers ps e.name.toList).map Entry.name

def pathsIn (files : FileSystem m) (directory name : String) (directoriesOnly : Bool) :
    ExceptT PathError m (List String) := do
  let names ←
    if isPattern name then namesLike files directory name directoriesOnly
    else do
      let found ← files.exists? (joinPath directory name)
      pure (if found then [name] else [])
  return names.map (joinPath directory)

/-- The directories that a pattern covers, which is followed for at most as many parts as given. -/
def directoriesLike (files : FileSystem m) : Nat → String → ExceptT PathError m (List String)
  | 0, _ => pure []
  | depth + 1, pattern =>
    if isPattern pattern then do
      let (parent, name) := splitPath pattern
      let parents ← directoriesLike files depth parent
      let found ← parents.mapM (fun parent => pathsIn files parent name true)
      return found.flatten
    else pure [pattern]

/-- All paths in the directories that a pattern covers whose names are covered by another. -/
def pathsLike (files : FileSystem m) (directory pattern : String) :
    ExceptT PathError m (List String) := do
  let (parent, name) := splitPath (joinPath directory pattern)
  let parents ← directoriesLike files (directory.length + 1) parent
  let found ← parents.mapM (fun parent => pathsIn files parent name false)
  return found.flatten

end Clausal.CommandLine
