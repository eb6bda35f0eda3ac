import IntentPlan.Text.Quoted

/-! # What is wrong with a manifest -/

namespace IntentPlan.Toml

inductive Cause where
  | statement
  | afterStatement
  | keyStart
  | equals
  | value
  | date
  | tooManyDigits (digits : Nat)
  | unterminated
  | illegal (c : Char)
  | invalid (c : Char)
  | expected (closing : String)
  | backslash
  | hex
  | notScalar
  | array
  | inlineTable
  | tableEnd
  | arrayEnd
  | overwritten
  | duplicate (name : String)
  | declaredTwice (path : List String)
  | immutable (path : List String)
  | redefined (path : List String)
deriving DecidableEq, Repr

/-- A path in brackets; one of a single name has a comma behind it. -/
def pathText (path : List String) : String :=
  match path with
  | [name] => "(" ++ Text.quoted name ++ ",)"
  | names => "(" ++ String.intercalate ", " (names.map Text.quoted) ++ ")"

def Cause.words : Cause → String
  | .statement => "Invalid statement"
  | .afterStatement => "Expected newline or end of document after a statement"
  | .keyStart => "Invalid initial character for a key part"
  | .equals => "Expected '=' after a key in a key/value pair"
  | .value => "Invalid value"
  | .date => "Invalid date or datetime"
  | .tooManyDigits digits =>
    "Exceeds the limit (4300 digits) for integer string conversion: " ++
      s!"value has {digits} digits; use sys.set_int_max_str_digits() to increase the limit"
  | .unterminated => "Unterminated string"
  | .illegal c => "Illegal character " ++ Text.quoted (String.ofList [c])
  | .invalid c => "Found invalid character " ++ Text.quoted (String.ofList [c])
  | .expected closing => "Expected " ++ Text.quoted closing
  | .backslash => "Unescaped '\\' in a string"
  | .hex => "Invalid hex value"
  | .notScalar => "Escaped character is not a Unicode scalar value"
  | .array => "Unclosed array"
  | .inlineTable => "Unclosed inline table"
  | .tableEnd => "Expected ']' at the end of a table declaration"
  | .arrayEnd => "Expected ']]' at the end of an array declaration"
  | .overwritten => "Cannot overwrite a value"
  | .duplicate name => "Duplicate inline table key " ++ Text.quoted name
  | .declaredTwice path => s!"Cannot declare {pathText path} twice"
  | .immutable path => "Cannot mutate immutable namespace " ++ pathText path
  | .redefined path => "Cannot redefine namespace " ++ pathText path

/-- A cause, and how many characters are left from its place on. -/
structure Fault where
  cause : Cause
  left : Nat
deriving DecidableEq, Repr

/-- A cause with its place: line and column, or the end of the document. -/
structure Error where
  cause : Cause
  place : Option (Nat × Nat)
deriving DecidableEq, Repr

/-- The line and the column behind some characters. -/
def placeAfter (cs : List Char) : Nat × Nat :=
  (cs.count '\n' + 1, (cs.reverse.takeWhile (· != '\n')).length + 1)

/-- The place of a fault in a document. -/
def Fault.inDocument (cs : List Char) (e : Fault) : Error where
  cause := e.cause
  place := if e.left = 0 then none else some (placeAfter (cs.take (cs.length - e.left)))

def Error.message (e : Error) : String :=
  match e.cause, e.place with
  | .tooManyDigits _, _ => e.cause.words
  | _, none => e.cause.words ++ " (at end of document)"
  | _, some (line, column) => e.cause.words ++ s!" (at line {line}, column {column})"

end IntentPlan.Toml
