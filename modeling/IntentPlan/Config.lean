import IntentPlan.Assoc
import IntentPlan.Decimal.Reader
import IntentPlan.Journal
import IntentPlan.Text.Case

/-! # Configuration -/

namespace IntentPlan

structure Config where
  /-- A character that no token can hold is an error. -/
  strictLexing : Bool := false
  /-- The greatest complexity of a valid intent. -/
  maxComplexity : Nat := 50
  /-- An intent with problems is not planned. -/
  validateBeforePlan : Bool := false
  logLevel : Journal.Level := .warning
deriving DecidableEq, Repr

/-- A configuration as it is asked for. -/
structure ConfigSpec where
  strictLexing : Bool := false
  maxComplexity : Int := 50
  validateBeforePlan : Bool := false
  logLevel : String := "WARNING"

inductive ConfigError where
  | negativeComplexity
  | unsupportedLevel (name : String)
  | complexityText (text : String)
deriving DecidableEq, Repr

def ConfigError.message : ConfigError → String
  | .negativeComplexity => "max_complexity must be >= 0"
  | .unsupportedLevel name =>
    s!"Unsupported log_level '{name}'. Supported: " ++
      String.intercalate ", " (Journal.Level.all.map Journal.Level.name)
  | .complexityText text => s!"INTENTC_MAX_COMPLEXITY must be an integer, got '{text}'"

namespace Config

/-- The name of a level without blanks around it, in upper case. -/
def levelName (s : String) : String := Text.upper (Text.trim s)

def build (spec : ConfigSpec) : Except ConfigError Config :=
  if spec.maxComplexity < 0 then .error .negativeComplexity
  else
    let name := levelName spec.logLevel
    match Journal.Level.ofName? name with
    | none => .error (.unsupportedLevel name)
    | some logLevel => .ok {
        strictLexing := spec.strictLexing
        maxComplexity := spec.maxComplexity.toNat
        validateBeforePlan := spec.validateBeforePlan
        logLevel }

/-- The names of the settings that an environment may have. -/
def settingNames : List String :=
  ["INTENTC_STRICT_LEXING", "INTENTC_MAX_COMPLEXITY", "INTENTC_VALIDATE_BEFORE_PLAN",
    "INTENTC_LOG_LEVEL"]

/-- A flag of the environment.  One that is blank is not set, and one that is set to anything but a
word of assent is off. -/
def flag (default : Bool) : Option String → Bool
  | none => default
  | some raw =>
    if Text.allBlank raw then default
    else ["1", "true", "yes", "on"].contains (Text.lower (Text.trim raw))

def complexityText (raw : Option String) : Except ConfigError Int :=
  let text := Text.trim (raw.getD "")
  if text.isEmpty then .ok 50
  else
    match Decimal.readInt text with
    | .ok n => .ok n
    | .error _ => .error (.complexityText text)

/-- The level of the environment, which is a warning if it is empty. -/
def levelText : Option String → String
  | none => "WARNING"
  | some raw => levelName (if raw.isEmpty then "WARNING" else raw)

def specOfEnvironment (env : Assoc String) : Except ConfigError ConfigSpec :=
  match complexityText (Assoc.get? "INTENTC_MAX_COMPLEXITY" env) with
  | .error e => .error e
  | .ok maxComplexity => .ok {
      strictLexing := flag false (Assoc.get? "INTENTC_STRICT_LEXING" env)
      maxComplexity
      validateBeforePlan := flag false (Assoc.get? "INTENTC_VALIDATE_BEFORE_PLAN" env)
      logLevel := levelText (Assoc.get? "INTENTC_LOG_LEVEL" env) }

def ofEnvironment (env : Assoc String) : Except ConfigError Config :=
  match specOfEnvironment env with
  | .error e => .error e
  | .ok spec => build spec

end Config

end IntentPlan
