import Clausal.CommandLine.Host

open Clausal Clausal.CommandLine

/-- Why a file could not be read. The system numbers its errors; 21 stands for a directory. -/
def pathError : IO.Error → PathError
  | .noFileOrDirectory .. => .notFound
  | .inappropriateType _ code _ => if code = 21 then .isDirectory else .notDirectory
  | .invalidArgument .. => .nameTooLong
  | .permissionDenied .. => .denied
  | _ => .unreadable

def readPath (path : String) : IO (Except PathError (List UInt8)) := do
  if path.toList.contains '\x00' then return .error .zeroCharacter
  try
    let content ← IO.FS.readBinFile path
    return .ok content.toList
  catch e => return .error (pathError e)

def listPath (path : String) : IO (Except PathError (List Entry)) := do
  if path.toList.contains '\x00' then return .error .zeroCharacter
  try
    let directory ← IO.FS.realPath (if path == "" then "." else path)
    let entries ← directory.readDir
    let entries ← entries.toList.mapM fun e => do
      return Entry.mk e.fileName (← e.path.isDir)
    return .ok entries
  catch e => return .error (pathError e)

def existsPath (path : String) : IO Bool := do
  try
    let _ ← IO.FS.realPath path
    return true
  catch _ => return false

def fileSystem : FileSystem IO where
  read := readPath
  list := listPath
  exists? := existsPath

def logLine (r : Record) : String :=
  "[" ++ r.level.name ++ "] [" ++ logName ++ "] " ++ r.message

def main (args : List String) : IO UInt32 := do
  let entropy := (← IO.getRandomBytes 16).toList.foldl (fun n byte => 256 * n + byte.toNat) 0
  match ← run (fileSystem.host entropy) tableOracle args with
  | .help =>
    IO.println "usage: dpll-sat [options] (file | --bench DIR | --random VARS CLAUSES)"
    return 0
  | .usage e =>
    IO.eprintln e.report
    return 2
  | .answered response threshold =>
    for record in Record.kept threshold response.log do
      IO.eprintln (logLine record)
    for line in response.output do
      IO.println line
    match response.ending with
    | .exit e => return UInt32.ofNat e.code
    | .broken b =>
      IO.eprintln b.text
      return UInt32.ofNat Exit.failed.code
