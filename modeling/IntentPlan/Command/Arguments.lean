import IntentPlan.Assoc
import IntentPlan.Decimal.Reader
import IntentPlan.Journal
import IntentPlan.Text.Quoted

/-! # Arguments of the command line

All arguments are classified before any of them is taken.  A switch may be written in full, or by
any beginning that no other switch shares.
-/

namespace IntentPlan.Command

inductive Switch where
  | help
  | source
  | sourceFile
  | strictLexing
  | maxComplexity
  | validate
  | failOnInvalid
  | audit
  | explainPlan
  | explainPlanFile
  | planFile
  | listRules
  | batchInput
  | batchReport
  | batchFailFast
  | batchMinSuccessRate
  | batchArtifactDir
  | batchIncludeExplain
  | swarmWorkers
  | logLevel
deriving DecidableEq, Repr

namespace Switch

def spellings : Switch → List String
  | .help => ["-h", "--help"]
  | .source => ["--source"]
  | .sourceFile => ["--source-file"]
  | .strictLexing => ["--strict-lexing"]
  | .maxComplexity => ["--max-complexity"]
  | .validate => ["--validate"]
  | .failOnInvalid => ["--fail-on-invalid"]
  | .audit => ["--audit"]
  | .explainPlan => ["--explain-plan"]
  | .explainPlanFile => ["--explain-plan-file"]
  | .planFile => ["--plan-file"]
  | .listRules => ["--list-rules"]
  | .batchInput => ["--batch-input"]
  | .batchReport => ["--batch-report"]
  | .batchFailFast => ["--batch-fail-fast"]
  | .batchMinSuccessRate => ["--batch-min-success-rate"]
  | .batchArtifactDir => ["--batch-artifact-dir"]
  | .batchIncludeExplain => ["--batch-include-explain"]
  | .swarmWorkers => ["--swarm-workers"]
  | .logLevel => ["--log-level"]

def all : List Switch :=
  [.help, .source, .sourceFile, .strictLexing, .maxComplexity, .validate, .failOnInvalid, .audit,
    .explainPlan, .explainPlanFile, .planFile, .listRules, .batchInput, .batchReport,
    .batchFailFast, .batchMinSuccessRate, .batchArtifactDir, .batchIncludeExplain, .swarmWorkers,
    .logLevel]

/-- The name of a switch in messages. -/
def title (s : Switch) : String := String.intercalate "/" s.spellings

def takesValue : Switch → Bool
  | .source | .sourceFile | .maxComplexity | .explainPlanFile | .planFile | .batchInput
  | .batchReport | .batchMinSuccessRate | .batchArtifactDir | .swarmWorkers | .logLevel => true
  | _ => false

/-- All spellings, in the order of declaration. -/
def table : Assoc Switch := all.flatMap fun s => s.spellings.map fun spelling => (spelling, s)

end Switch

/-- What is wrong with arguments, or that help is asked for. -/
inductive UsageError where
  | help
  | ambiguous (text : String) (candidates : List String)
  | expectedValue (s : Switch)
  | ignoredValue (s : Switch) (value : String)
  | badInt (s : Switch) (value : String)
  | badFloat (s : Switch) (value : String)
  | badChoice (s : Switch) (value : String) (choices : List String)
  | unrecognized (texts : List String)
deriving DecidableEq, Repr

def UsageError.message : UsageError → String
  | .help => "help"
  | .ambiguous text candidates =>
    s!"ambiguous option: {text} could match " ++ String.intercalate ", " candidates
  | .expectedValue s => s!"argument {s.title}: expected one argument"
  | .ignoredValue s value =>
    s!"argument {s.title}: ignored explicit argument " ++ Text.quoted value
  | .badInt s value => s!"argument {s.title}: invalid int value: " ++ Text.quoted value
  | .badFloat s value => s!"argument {s.title}: invalid float value: " ++ Text.quoted value
  | .badChoice s value choices =>
    s!"argument {s.title}: invalid choice: " ++ Text.quoted value ++ " (choose from " ++
      String.intercalate ", " (choices.map Text.quoted) ++ ")"
  | .unrecognized texts => "unrecognized arguments: " ++ String.intercalate " " texts

/-- What an argument can be. -/
inductive Argument where
  | value (text : String)
  | divider
  | unknown (text : String)
  | switch (s : Switch) (spelling : String) (attached : Option String)
  /-- The short switch for help with letters right behind it. -/
  | cluster (letters : List Char)
deriving DecidableEq, Repr

/-- The text around its first equals sign. -/
def splitEquals (text : String) : Option (String × String) :=
  let cs := text.toList
  match cs.dropWhile (· != '=') with
  | [] => none
  | _ :: rest => some (String.ofList (cs.takeWhile (· != '=')), String.ofList rest)

/-- A minus before digits of any script, with at most one point among them and a digit after it. -/
def looksNegative (text : String) : Bool :=
  let isDigit (c : Char) : Bool := (Text.digitValue? c).isSome
  match text.toList with
  | '-' :: cs =>
    let cs := if cs.getLast? = some '\n' then cs.dropLast else cs
    match cs.dropWhile isDigit with
    | [] => !cs.isEmpty
    | '.' :: places => !places.isEmpty && places.all isDigit
    | _ => false
  | _ => false

/-- The switches that a text can be short for. -/
def candidates (text : String) : List Argument :=
  if text.startsWith "--" then
    let (start, attached) := match splitEquals text with
      | some (start, value) => (start, some value)
      | none => (text, none)
    Switch.table.filterMap fun (spelling, s) =>
      if spelling.startsWith start then some (.switch s spelling attached) else none
  else
    let short := String.ofList (text.toList.take 2)
    if short = "-h" then [.cluster (text.toList.drop 2)] else []

def Argument.spelling : Argument → String
  | .switch _ spelling _ => spelling
  | .value text | .unknown text => text
  | .divider => "--"
  | .cluster letters => String.ofList ('-' :: 'h' :: letters)

/-- An argument with a minus in front that is no spelling of a switch in full. -/
def classifyShort (text : String) : Except UsageError Argument :=
  match candidates text with
  | [argument] => .ok argument
  | [] =>
    if looksNegative text || text.toList.contains ' ' then .ok (.value text)
    else .ok (.unknown text)
  | several => .error (.ambiguous text (several.map Argument.spelling))

/-- The switch that a text names in full, with a value behind an equals sign or without one. -/
def exactSwitch? (text : String) : Option Argument :=
  match Assoc.get? text Switch.table with
  | some s => some (.switch s text none)
  | none =>
    match splitEquals text with
    | none => none
    | some (spelling, value) =>
      (Assoc.get? spelling Switch.table).map fun s => .switch s spelling (some value)

def classify (text : String) : Except UsageError Argument :=
  if !text.startsWith "-" || text = "-" then .ok (.value text)
  else
    match exactSwitch? text with
    | some argument => .ok argument
    | none => classifyShort text

/-- After a divider there are only values. -/
def classifyAll : List String → Except UsageError (List Argument)
  | [] => .ok []
  | text :: rest =>
    if text = "--" then .ok (.divider :: rest.map .value)
    else
      match classify text with
      | .error e => .error e
      | .ok argument =>
        match classifyAll rest with
        | .error e => .error e
        | .ok arguments => .ok (argument :: arguments)

/-- A setting that is read from a value.  The value `--` behind an equals sign leaves it without
any. -/
inductive Setting (α : Type) where
  | unset
  | empty
  | to (a : α)

structure Options where
  source : Option String := none
  sourceFile : Option String := none
  strictLexing : Bool := false
  maxComplexity : Setting Int := .unset
  validate : Bool := false
  failOnInvalid : Bool := false
  audit : Bool := false
  explainPlan : Bool := false
  explainPlanFile : Option String := none
  planFile : Option String := none
  listRules : Bool := false
  batchInput : Option String := none
  batchReport : Option String := none
  batchFailFast : Bool := false
  batchMinSuccessRate : Setting Float := .unset
  batchArtifactDir : Option String := none
  batchIncludeExplain : Bool := false
  swarmWorkers : Setting Int := .unset
  logLevel : Option Journal.Level := none

namespace Options

/-- Turns a switch without a value on. -/
def turnOn (o : Options) : Switch → Options
  | .strictLexing => { o with strictLexing := true }
  | .validate => { o with validate := true }
  | .failOnInvalid => { o with failOnInvalid := true }
  | .audit => { o with audit := true }
  | .explainPlan => { o with explainPlan := true }
  | .listRules => { o with listRules := true }
  | .batchFailFast => { o with batchFailFast := true }
  | .batchIncludeExplain => { o with batchIncludeExplain := true }
  | _ => o

def readInt (s : Switch) (value : String) : Except UsageError Int :=
  match Decimal.readInt value with
  | .ok n => .ok n
  | .error _ => .error (.badInt s value)

def readFloat (s : Switch) (value : String) : Except UsageError Float :=
  match Decimal.readFloat? value with
  | some x => .ok x
  | none => .error (.badFloat s value)

def readLevel (s : Switch) (value : String) : Except UsageError Journal.Level :=
  match Journal.Level.ofName? value with
  | some level => .ok level
  | none => .error (.badChoice s value (Journal.Level.all.map Journal.Level.name))

/-- Gives a switch its value. -/
def assign (o : Options) (s : Switch) (value : String) : Except UsageError Options :=
  match s with
  | .source => .ok { o with source := some value }
  | .sourceFile => .ok { o with sourceFile := some value }
  | .maxComplexity => do return { o with maxComplexity := .to (← readInt s value) }
  | .explainPlanFile => .ok { o with explainPlanFile := some value }
  | .planFile => .ok { o with planFile := some value }
  | .batchInput => .ok { o with batchInput := some value }
  | .batchReport => .ok { o with batchReport := some value }
  | .batchMinSuccessRate => do return { o with batchMinSuccessRate := .to (← readFloat s value) }
  | .batchArtifactDir => .ok { o with batchArtifactDir := some value }
  | .swarmWorkers => do return { o with swarmWorkers := .to (← readInt s value) }
  | .logLevel => do return { o with logLevel := some (← readLevel s value) }
  | _ => .ok o

/-- Takes the value of a switch away. -/
def clear (o : Options) : Switch → Options
  | .source => { o with source := none }
  | .sourceFile => { o with sourceFile := none }
  | .maxComplexity => { o with maxComplexity := .empty }
  | .explainPlanFile => { o with explainPlanFile := none }
  | .planFile => { o with planFile := none }
  | .batchInput => { o with batchInput := none }
  | .batchReport => { o with batchReport := none }
  | .batchMinSuccessRate => { o with batchMinSuccessRate := .empty }
  | .batchArtifactDir => { o with batchArtifactDir := none }
  | .swarmWorkers => { o with swarmWorkers := .empty }
  | .logLevel => { o with logLevel := none }
  | _ => o

/-- Gives a switch the value that is attached to it. -/
def attach (o : Options) (s : Switch) (value : String) : Except UsageError Options :=
  if value = "--" then .ok (o.clear s) else o.assign s value

end Options

/-- The letters behind the short switch for help: all have to be that switch again. -/
def clusterFault : List Char → UsageError
  | ['h'] => .help
  | 'h' :: rest => clusterFault rest
  | letters => .ignoredValue .help (String.ofList letters)

/-- Takes the arguments in order, and collects those that belong to no switch. -/
def take (o : Options) (extras : List String) :
    List Argument → Except UsageError (Options × List String)
  | [] => .ok (o, extras)
  | .value text :: rest => take o (extras ++ [text]) rest
  | .divider :: rest => take o (extras ++ ["--"]) rest
  | .unknown text :: rest => take o (extras ++ [text]) rest
  | .cluster letters :: _ => .error (clusterFault letters)
  | .switch .help _ none :: _ => .error .help
  | .switch .help "-h" (some value) :: _ => .error (clusterFault value.toList)
  | .switch s _ (some value) :: rest =>
    if s.takesValue then
      match o.attach s value with
      | .error e => .error e
      | .ok o => take o extras rest
    else .error (.ignoredValue s value)
  | .switch s _ none :: .value value :: rest =>
    if s.takesValue then
      match o.assign s value with
      | .error e => .error e
      | .ok o => take o extras rest
    else take (o.turnOn s) extras (.value value :: rest)
  | .switch s _ none :: rest =>
    if s.takesValue then .error (.expectedValue s) else take (o.turnOn s) extras rest

def Options.ofArguments (texts : List String) : Except UsageError Options :=
  match classifyAll texts with
  | .error e => .error e
  | .ok arguments =>
    match take {} [] arguments with
    | .error e => .error e
    | .ok (o, []) => .ok o
    | .ok (_, extras) => .error (.unrecognized extras)

end IntentPlan.Command
