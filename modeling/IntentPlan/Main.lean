import IntentPlan.Command

/-! # The command line

The files that the arguments name are read before the command runs, and what it changed is written
afterwards.  All records of a run bear the time of its start.
-/

namespace IntentPlan.Main

open IntentPlan.Command

def environment : IO (Assoc String) :=
  Config.settingNames.filterMapM fun name => do
    return (← IO.getEnv name).map fun value => (name, value)

/-- The text of names as they are kept in a tree of files. -/
def pathText (names : List String) : String :=
  match names with
  | "/" :: rest => "/" ++ String.intercalate "/" rest
  | names => String.intercalate "/" names

/-- What the disk holds under some names. -/
def readNode (names : List String) : IO (Option FileNode) := do
  let path := (← IO.currentDir) / pathText names
  if ← path.isDir then return some .directory
  else if ← path.pathExists then return some (.file (← IO.FS.readBinFile path))
  else return none

/-- The tree with all that the disk holds along some names. -/
def loadNames (fs : Files) (here : List String) : List String → IO Files
  | [] => return fs
  | ".." :: rest => loadNames fs (Files.up here) rest
  | name :: rest => do
    let there := here ++ [name]
    match ← readNode there with
    | some node => loadNames (fs.set there node) there rest
    | none => return fs

def load (fs : Files) (text : String) : IO Files :=
  let path := Path.ofString text
  loadNames fs (if path.absolute then Files.root else []) path.parts

/-- The files that the options name. -/
def namedFiles (o : Options) : List String :=
  [o.sourceFile, o.batchInput, o.planFile, o.explainPlanFile, o.batchReport,
    o.batchArtifactDir].filterMap given

/-- The files that the items of a batch name. -/
def itemFiles (fs : Files) (o : Options) : List String :=
  match given o.batchInput with
  | none => []
  | some input =>
    let path := Path.ofString input
    match fs.readText path with
    | .error _ => []
    | .ok text =>
      match itemsOf path text with
      | .error _ => []
      | .ok items => items.filterMap fun item =>
        match item with
        | .map fields => (Assoc.get? "path" fields).map Datum.display
        | _ => none

def loadAll (arguments : List String) : IO Files :=
  match Options.ofArguments arguments with
  | .error _ => return {}
  | .ok o => do
    let fs ← (namedFiles o).foldlM load {}
    (itemFiles fs o).foldlM load fs

/-- Writes what is new or changed. -/
def save (before after : Files) : IO Unit :=
  after.entries.forM fun (names, node) => do
    let path := (← IO.currentDir) / pathText names
    match node, before.node? names with
    | .directory, some .directory => return
    | .directory, _ => IO.FS.createDirAll path
    | .file content, some (.file old) =>
      if old.data != content.data then IO.FS.writeBinFile path content
    | .file content, _ => IO.FS.writeBinFile path content

/-- The time of day, as a file shows it that was made just now. -/
def now : IO Instant := do
  let (_, path) ← IO.FS.createTempFile
  let time := (← path.metadata).modified
  IO.FS.removeFile path
  return ⟨time.sec * 1000000 + (time.nsec.toNat / 1000 : Nat)⟩

def numberOf (bytes : ByteArray) : Nat :=
  bytes.toList.foldl (fun n b => 256 * n + b.toNat) 0

def session (files : Files) : IO Session := do
  let time ← now
  let start := numberOf (← IO.getRandomBytes 16)
  return {
    clock := .constant time
    ids := { item := fun n => String.ofList (Text.hexDigits 32 ((start + n) % Nat.pow 2 128)) }
    stopwatch := .constant 0.0
    files }

/-- Wrong arguments end a run with 2, and every other failure with 1. -/
def exitCode : Except Failure Unit → UInt32
  | .ok () => 0
  | .error (.usage .help) => 0
  | .error (.usage _) => 2
  | .error _ => 1

def usage : String :=
  "usage: intentc " ++ String.intercalate " " (Switch.all.map fun s => "[" ++ s.title ++ "]")

def complain : Except Failure Unit → IO Unit
  | .ok () => return
  | .error (.usage .help) => IO.println usage
  | .error (.usage e) => do
    IO.eprintln usage
    IO.eprintln ("intentc: error: " ++ e.message)
  | .error e => IO.eprintln e.message

end IntentPlan.Main

open IntentPlan IntentPlan.Main in
def main (arguments : List String) : IO UInt32 := do
  let files ← loadAll arguments
  let s ← session files
  let outcome := Command.execute (← environment) arguments s
  IO.print outcome.printed
  for record in outcome.records do
    IO.eprint (record.line s.clock.next.iso)
  save files outcome.files
  complain outcome.result
  return exitCode outcome.result
