import Clausal.Text.Quoted

namespace Clausal.CommandLine

inductive PathError where
  | notFound
  | isDirectory
  | notDirectory
  | nameTooLong
  | denied
  | unreadable
  /-- A path cannot hold the character with code zero. -/
  | zeroCharacter
  deriving DecidableEq

def PathError.text (path : String) : PathError → String
  | notFound => "[Errno 2] No such file or directory: " ++ Text.quoted path
  | isDirectory => "[Errno 21] Is a directory: " ++ Text.quoted path
  | notDirectory => "[Errno 20] Not a directory: " ++ Text.quoted path
  | nameTooLong => "[Errno 36] File name too long: " ++ Text.quoted path
  | denied => "[Errno 13] Permission denied: " ++ Text.quoted path
  | unreadable => "[Errno 5] Input/output error: " ++ Text.quoted path
  | zeroCharacter => "embedded null byte"

structure Entry where
  name : String
  isDirectory : Bool

/-- How files are asked for. The empty path is the current directory where entries are listed. -/
structure FileSystem (m : Type → Type) where
  read : String → m (Except PathError (List UInt8))
  list : String → m (Except PathError (List Entry))
  exists? : String → m Bool

/-- Files by their parts below the current directory; an entry without content is a directory. -/
structure FileTree where
  entries : List (List String × Option (List UInt8))

/-- Where a path leads: to a place below the current directory, or out of it, where nothing is
known but that there are directories. -/
inductive Place where
  | inside (parts : List String)
  | outside

inductive Node where
  | file (content : List UInt8)
  | directory

def parts (path : String) : List String :=
  path.splitOn "/"

def nameLimit : Nat := 255

def pathLimit : Nat := 4095

namespace FileTree

def ofPaths (files : List (String × Option (List UInt8))) : FileTree :=
  ⟨files.map fun (path, content) =>
    ((parts path).filter (fun part => part != "" && part != "."), content)⟩

def nodeAt? (t : FileTree) : Place → Option Node
  | .outside => some .directory
  | .inside parts =>
    match t.entries.find? (fun e => e.1 == parts) with
    | some (_, some content) => some (.file content)
    | _ =>
      if t.entries.any (fun e => parts.isPrefixOf e.1) || parts.isEmpty then some .directory
      else none

/-- One part of a path. Two dots lead one directory up. -/
def enter (place : Place) (part : String) : Option Place :=
  if part == "" || part == "." then some place
  else match place with
    | .inside ps =>
      if part == ".." then some (if ps.isEmpty then .outside else .inside ps.dropLast)
      else some (.inside (ps ++ [part]))
    | .outside => if part == ".." then some .outside else none

/-- Every part but the last must lead to a directory, and so must the last one before a slash. -/
def walk (t : FileTree) (place : Place) : List String → Except PathError Place
  | [] => .ok place
  | part :: rest =>
    match t.nodeAt? place with
    | some .directory =>
      if nameLimit < part.utf8ByteSize then .error .nameTooLong
      else match enter place part with
        | some next => t.walk next rest
        | none => .error .notFound
    | some (.file _) => .error .notDirectory
    | none => .error .notFound

/-- The place that a path names, and what is there. -/
def resolve (t : FileTree) (path : String) : Except PathError (Place × Node) :=
  if path.toList.contains '\x00' then .error .zeroCharacter
  else if path == "" then .error .notFound
  else if pathLimit < path.utf8ByteSize then .error .nameTooLong
  else
    match t.walk (if path.startsWith "/" then .outside else .inside []) (parts path) with
    | .error e => .error e
    | .ok place =>
      match t.nodeAt? place with
      | some node => .ok (place, node)
      | none => .error .notFound

def read (t : FileTree) (path : String) : Except PathError (List UInt8) :=
  match t.resolve path with
  | .ok (_, .file content) => .ok content
  | .ok (_, .directory) => .error .isDirectory
  | .error e => .error e

def namesBelow (t : FileTree) (place : List String) : List String :=
  (t.entries.filterMap fun e =>
    if place.isPrefixOf e.1 then e.1[place.length]? else none).eraseDups

/-- Outside of the current directory no entries are known. -/
def entriesAt (t : FileTree) : Place → List Entry
  | .outside => []
  | .inside place => (t.namesBelow place).map fun name =>
    ⟨name, match t.nodeAt? (.inside (place ++ [name])) with
      | some .directory => true
      | _ => false⟩

def list (t : FileTree) (path : String) : Except PathError (List Entry) :=
  match t.resolve (if path == "" then "." else path) with
  | .ok (place, .directory) => .ok (t.entriesAt place)
  | .ok (_, .file _) => .error .notDirectory
  | .error e => .error e

def fileSystem (t : FileTree) : FileSystem Id where
  read := t.read
  list := t.list
  exists? path := (t.resolve path).isOk

end FileTree
end Clausal.CommandLine
