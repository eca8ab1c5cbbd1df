import MultiCluster.Files.Path
import MultiCluster.Program

/-! A tree of files and directories without links, and what a program does with it: look something
up, make directories, write a file. Names longer than 255 bytes are refused. -/
namespace MultiCluster.Files

/-- The names that lead from the root to a file or directory. -/
abbrev Location := List String

inductive Entry where
  | directory
  /-- A file with its text; absent if its bytes are not UTF-8. -/
  | file (text : Option String)
  deriving DecidableEq, Repr

inductive Problem where
  | notFound
  | exists
  | notDirectory
  | isDirectory
  | nameTooLong
  | notText
  deriving DecidableEq, Repr

def Problem.message : Problem → String
  | .notFound => "No such file or directory (os error 2)"
  | .exists => "File exists (os error 17)"
  | .notDirectory => "Not a directory (os error 20)"
  | .isDirectory => "Is a directory (os error 21)"
  | .nameTooLong => "File name too long (os error 36)"
  | .notText => "stream did not contain valid UTF-8"

structure Tree where
  entries : List (Location × Entry)
  /-- Where paths that are not absolute begin. -/
  current : Location
  deriving DecidableEq, Repr

def maxNameBytes : Nat := 255

namespace Tree

def entry? (t : Tree) (l : Location) : Option Entry :=
  if l.isEmpty then some .directory else (t.entries.find? fun e => e.1 == l).map (·.2)

def isDirectory (t : Tree) (l : Location) : Bool := t.entry? l == some .directory

def put (l : Location) (e : Entry) (t : Tree) : Tree :=
  { t with entries := (t.entries.filter fun x => x.1 != l) ++ [(l, e)] }

/-- Put something at a location, with the directories above it. -/
def plant (l : Location) (e : Entry) (t : Tree) : Tree :=
  let above := (List.range l.length).map l.take
  (above.foldl (fun t p => if (t.entry? p).isNone then t.put p .directory else t) t).put l e

/-- Where one name leads from a location, if something is or could be there. -/
def next (t : Tree) (l : Location) (name : String) : Except Problem Location :=
  if !t.isDirectory l then .error .notDirectory
  else if name == "" || name == "." then .ok l
  else if name == ".." then .ok l.dropLast
  else if name.utf8ByteSize > maxNameBytes then .error .nameTooLong
  else .ok (l ++ [name])

def start (t : Tree) (path : String) : Location := if isAbsolute path then [] else t.current

/-- Follow names from a location, each of which must be there. -/
def follow (t : Tree) (l : Location) : List String → Except Problem Location
  | [] => .ok l
  | name :: rest => do
    let l ← t.next l name
    if (t.entry? l).isNone then throw .notFound
    t.follow l rest

def lookup (t : Tree) (path : String) : Except Problem Entry :=
  if path == "" then .error .notFound
  else do
    let l ← t.follow (t.start path) (Text.splitOn '/' path)
    match t.entry? l with
    | some e => pure e
    | none => throw .notFound

def isFile (t : Tree) (path : String) : Bool :=
  match t.lookup path with
  | .ok (.file _) => true
  | _ => false

def read (t : Tree) (path : String) : Except Problem String :=
  match t.lookup path with
  | .error p => .error p
  | .ok .directory => .error .isDirectory
  | .ok (.file none) => .error .notText
  | .ok (.file (some text)) => .ok text

/-- Follow names from a location and make the directories that are missing. -/
def makeFrom (t : Tree) (l : Location) : List String → Except Problem Location × Tree
  | [] => (if t.isDirectory l then .ok l else .error .exists, t)
  | name :: rest =>
    match t.next l name with
    | .error p => (.error p, t)
    | .ok l =>
      let t := if (t.entry? l).isNone then t.put l .directory else t
      t.makeFrom l rest

def makeDirectories (t : Tree) (path : String) : Except Problem Location × Tree :=
  t.makeFrom (t.start path) (Text.splitOn '/' path)

/-- Write a file of a name into a directory, which is made if it is missing. -/
def write (t : Tree) (directory name text : String) : Except Problem Unit × Tree :=
  match t.makeDirectories directory with
  | (.error p, t) => (.error p, t)
  | (.ok l, t) =>
    match t.next l name with
    | .error p => (.error p, t)
    | .ok l =>
      if t.isDirectory l then (.error .isDirectory, t)
      else (.ok (), t.put l (.file (some text)))

end Tree

structure Saving where
  directory : String
  name : String
  text : String
  deriving DecidableEq, Repr

def Saves : Interface where
  Request := Saving
  Answer _ := Except Problem Unit

def Tree.handler : Program.Handler Saves Tree := fun s t =>
  let (result, t) := t.write s.directory s.name s.text
  (some result, t)

end MultiCluster.Files
