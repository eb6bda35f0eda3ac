import IntentPlan.Session
import IntentPlan.Text.Blank
import IntentPlan.Toml.Reader

/-! # Release archives -/

namespace IntentPlan.Release

/-- What belongs to a release, if it is there. -/
def roots : List String := ["intentc", "app.py", "examples", "README.md", "pyproject.toml"]

def excludedNames : List String :=
  ["__pycache__", ".pytest_cache", ".mypy_cache", ".git", ".venv", "venv"]

def excludedSuffixes : List String := [".pyc", ".pyo"]

/-- Whether a path belongs into an archive: caches and environments do not. -/
def includes (p : Path) : Bool :=
  !(p.parts.any excludedNames.contains) && !(excludedSuffixes.contains p.suffix)

/-- An archive under its path, the names of its place, and the names of its members in order. -/
structure Archive where
  path : Path
  names : List String
  members : List String
deriving DecidableEq, Repr

inductive Error where
  | file (e : FileFault)
  | encoding (e : Text.Utf8Fault)
  | manifest (e : Toml.Error)
  | noTable (kind : String)
  | noVersion
deriving DecidableEq, Repr

def Error.message : Error → String
  | .file e => e.message
  | .encoding e => utf8Message e
  | .manifest e => e.message
  | .noTable kind => s!"'{kind}' object has no attribute 'get'"
  | .noVersion => "Unable to read [project].version from pyproject.toml"

def manifestPath : Path := .ofString "pyproject.toml"

/-- The version in the project table of a manifest. -/
def versionOf (manifest : Toml.Table) : Except Error String :=
  match Assoc.get? "project" manifest with
  | some (.table project) =>
    match Assoc.get? "version" project with
    | some (.text s) => if Text.allBlank s then .error .noVersion else .ok (Text.trim s)
    | _ => .error .noVersion
  | some v => .error (.noTable v.kindName)
  | none => .error .noVersion

def readVersion (fs : Files) : Except Error String :=
  match fs.read manifestPath with
  | .error e => .error (.file e)
  | .ok bytes =>
    match Text.decodeUtf8 bytes with
    | .error e => .error (.encoding e)
    | .ok s =>
      match Toml.read s with
      | .error e => .error (.manifest e)
      | .ok manifest => versionOf manifest

/-- The files at or below the roots that belong into an archive. -/
def members (fs : Files) : List String :=
  let names := (fs.contents.map Prod.fst).filter fun names =>
    roots.any (names.head? == some ·) && includes { parts := names }
  (names.map (String.intercalate "/")).mergeSort fun a b => !decide (b < a)

/-- Makes the archive of the current version.  Of its content only the names are kept. -/
def package : Work Error Archive := do
  (Work.changeFiles (·.makeDirectory (.ofString "dist"))).mapError .file
  let version ← ExceptT.mk fun s => (readVersion s.files, s)
  let path := Path.ofString s!"dist/intentc-{version}.zip"
  (Work.changeFiles (·.write path .empty)).mapError .file
  let members ← Work.lift fun s => (members s.files, s)
  let names ← Work.lift fun s => (s.files.names path, s)
  Work.print ("Release package created: " ++ path.toString)
  return { path, names, members }

end IntentPlan.Release
