import IntentPlan.Files.Path
import IntentPlan.Text.Lines
import IntentPlan.Text.Quoted
import IntentPlan.Text.Utf8

/-! # A tree of files

The files that a command can see, as a value.  Every operation on a path fails in the way in which
the first obstacle on its way demands.
-/

namespace IntentPlan

inductive FileNode where
  | directory
  | file (content : ByteArray)

/-- Directories and files under their names from the working directory on, or from the root. -/
structure Files where
  entries : List (List String × FileNode) := []

/-- Obstacles on the way to a file. -/
inductive FileCause where
  | notFound
  | exists
  | notDirectory
  | isDirectory
  | nameTooLong
deriving DecidableEq, Repr

inductive FileFault where
  | obstacle (cause : FileCause) (path : Path)
  | nullByte
deriving DecidableEq, Repr

def FileCause.words : FileCause → String
  | .notFound => "[Errno 2] No such file or directory"
  | .exists => "[Errno 17] File exists"
  | .notDirectory => "[Errno 20] Not a directory"
  | .isDirectory => "[Errno 21] Is a directory"
  | .nameTooLong => "[Errno 36] File name too long"

def FileFault.message : FileFault → String
  | .obstacle cause path => cause.words ++ ": " ++ Text.quoted path.toString
  | .nullByte => "embedded null byte"

/-- Why a file cannot be read as a text. -/
inductive ReadFault where
  | file (e : FileFault)
  | encoding (e : Text.Utf8Fault)
deriving DecidableEq, Repr

def utf8Message (e : Text.Utf8Fault) : String :=
  let place :=
    if e.length = 1 then
      s!"byte 0x{String.ofList (Text.hexDigits 2 e.first.toNat)} in position {e.start}"
    else s!"bytes in position {e.start}-{e.start + e.length - 1}"
  let cause := match e.cause with
    | .badStart => "invalid start byte"
    | .badContinuation => "invalid continuation byte"
    | .cutShort => "unexpected end of data"
  "'utf-8' codec can't decode " ++ place ++ ": " ++ cause

def ReadFault.message : ReadFault → String
  | .file e => e.message
  | .encoding e => utf8Message e

namespace Files

/-- The names of the directory above all others. -/
def root : List String := ["/"]

/-- The working directory and those above it. -/
def isAbove (names : List String) : Bool := names.all (· == "..")

/-- The names of the directory above another one. -/
def up (names : List String) : List String :=
  if names == root then root else if isAbove names then names ++ [".."] else names.dropLast

def node? (fs : Files) (names : List String) : Option FileNode :=
  if isAbove names || names == root then some .directory else fs.entries.lookup names

/-- What stands at the end of a path.  `nowhere` is a path through a missing directory, `blocked`
one through a file, and `tooLong` one to a name that no directory can hold. -/
inductive Place where
  | directory (names : List String)
  | file (names : List String) (content : ByteArray)
  | vacant (names : List String)
  | nowhere
  | blocked
  | tooLong

/-- The greatest number of bytes in a name, and the number of bytes that no path reaches. -/
def nameLimit : Nat := 255

def pathLimit : Nat := 4096

/-- Follows names from a directory. -/
def follow (fs : Files) (here : List String) : List String → Place
  | [] => .directory here
  | ".." :: rest => follow fs (up here) rest
  | name :: rest =>
    let there := here ++ [name]
    if nameLimit < name.utf8ByteSize then .tooLong
    else
      match fs.node? there, rest with
      | none, [] => .vacant there
      | none, _ => .nowhere
      | some (.file content), [] => .file there content
      | some (.file _), _ => .blocked
      | some .directory, rest => follow fs there rest

/-- What stands at a path, unless its names hold a character that ends it. -/
def place (fs : Files) (p : Path) : Except FileFault Place :=
  if p.parts.any fun part => part.toList.contains '\x00' then .error .nullByte
  else if pathLimit ≤ p.toString.utf8ByteSize then .ok .tooLong
  else .ok (fs.follow (if p.absolute then root else []) p.parts)

/-- The names of the file at a path, and no names where there is none. -/
def names (fs : Files) (p : Path) : List String :=
  match fs.place p with
  | .ok (.file names _) => names
  | _ => []

def set (fs : Files) (names : List String) (node : FileNode) : Files :=
  { entries := fs.entries.filter (fun entry => entry.1 != names) ++ [(names, node)] }

def read (fs : Files) (p : Path) : Except FileFault ByteArray := do
  match ← fs.place p with
  | .file _ content => .ok content
  | .directory _ => .error (.obstacle .isDirectory p)
  | .vacant _ | .nowhere => .error (.obstacle .notFound p)
  | .blocked => .error (.obstacle .notDirectory p)
  | .tooLong => .error (.obstacle .nameTooLong p)

/-- The text of a file, with every line break as one newline. -/
def readText (fs : Files) (p : Path) : Except ReadFault String :=
  match fs.read p with
  | .error e => .error (.file e)
  | .ok bytes =>
    match Text.decodeUtf8 bytes with
    | .error e => .error (.encoding e)
    | .ok s => .ok (String.ofList (Text.unifyNewlines s.toList))

def write (fs : Files) (p : Path) (content : ByteArray) : Except FileFault Files := do
  match ← fs.place p with
  | .file names _ | .vacant names => .ok (fs.set names (.file content))
  | .directory _ => .error (.obstacle .isDirectory p)
  | .nowhere => .error (.obstacle .notFound p)
  | .blocked => .error (.obstacle .notDirectory p)
  | .tooLong => .error (.obstacle .nameTooLong p)

def writeText (fs : Files) (p : Path) (s : String) : Except FileFault Files :=
  fs.write p s.toUTF8

/-- A directory at the path, which may be there already.  Its own directory has to be there. -/
def makeDirectory (fs : Files) (p : Path) : Except FileFault Files := do
  match ← fs.place p with
  | .directory _ => .ok fs
  | .vacant names => .ok (fs.set names .directory)
  | .file _ _ => .error (.obstacle .exists p)
  | .nowhere => .error (.obstacle .notFound p)
  | .blocked => .error (.obstacle .notDirectory p)
  | .tooLong => .error (.obstacle .nameTooLong p)

/-- A directory at the path together with the missing ones on the way to it. -/
def makeDirectories (fs : Files) (p : Path) : Except FileFault Files := do
  match ← fs.place p with
  | .nowhere =>
    if h : p.parts = [] then .error (.obstacle .notFound p)
    else
      have : p.parent.parts.length < p.parts.length := by
        have := List.length_pos_iff.2 h
        simp only [Path.parent, List.length_dropLast]; omega
      let fs ← makeDirectories fs p.parent
      fs.makeDirectory p
  | _ => fs.makeDirectory p
termination_by p.parts.length

/-- The files with their contents, in no particular order. -/
def contents (fs : Files) : List (List String × ByteArray) :=
  fs.entries.filterMap fun (names, node) =>
    match node with
    | .file content => some (names, content)
    | .directory => none

end Files

end IntentPlan
