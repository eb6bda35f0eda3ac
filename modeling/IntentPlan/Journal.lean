/-! # Records of what was done -/

namespace IntentPlan.Journal

inductive Level where
  | debug
  | info
  | warning
  | error
  | critical
deriving DecidableEq, Repr

namespace Level

def name : Level → String
  | .debug => "DEBUG"
  | .info => "INFO"
  | .warning => "WARNING"
  | .error => "ERROR"
  | .critical => "CRITICAL"

def rank : Level → Nat
  | .debug => 10
  | .info => 20
  | .warning => 30
  | .error => 40
  | .critical => 50

/-- The levels in the order of their names. -/
def all : List Level := [.critical, .debug, .error, .info, .warning]

def ofName? (s : String) : Option Level := all.find? fun level => level.name == s

end Level

structure Record where
  level : Level
  origin : String
  message : String
deriving DecidableEq, Repr

/-- The line of a record, after the time at which it was made. -/
def Record.line (time : String) (r : Record) : String :=
  time ++ " - " ++ r.level.name ++ " - " ++ r.origin ++ " - " ++ r.message ++ "\n"

/-- The records that are not below a level. -/
def visible (level : Level) (records : List Record) : List Record :=
  records.filter fun r => level.rank ≤ r.level.rank

end IntentPlan.Journal
