import IntentPlan.Datum.Literal
import IntentPlan.Declaration.Machine
import IntentPlan.Intent
import IntentPlan.Token.Scan

/-! # From sources to intents -/

namespace IntentPlan

/-- Why a tree is not an intent. -/
inductive LoweringError where
  | notDeclaration (kind : String)
  | noFields (kind : String)
  | notStrings (key : String)
  | notText (key : String)
  | unwritable (e : Datum.TextFault)
deriving DecidableEq, Repr

def LoweringError.message : LoweringError → String
  | .notDeclaration kind => s!"Invalid AST: expected IntentDeclaration, got {kind}"
  | .noFields kind => s!"'{kind}' object has no attribute 'get'"
  | .notStrings key => s!"'{key}' must be a list of strings"
  | .notText key => s!"'{key}' must be a string"
  | .unwritable e => e.message

/-- Why a source is not an intent. -/
inductive SourceError where
  | lex (e : Token.Notice)
  | parse (e : ParseError)
  | lowering (e : LoweringError)
deriving DecidableEq, Repr

def SourceError.message : SourceError → String
  | .lex e => e.message
  | .parse e => e.message
  | .lowering e => e.message

namespace Intent

/-- Texts under a key: none, one, or a list of anything, which is taken by its text. -/
def stringsAt (key : String) (body : Assoc Datum) : Except LoweringError (List String) :=
  match Assoc.get? key body with
  | none | some .null => .ok []
  | some (.str s) => .ok [s]
  | some (.list ds) => (ds.mapM Datum.text).mapError .unwritable
  | some _ => .error (.notStrings key)

def textAt (key : String) (body : Assoc Datum) : Except LoweringError (Option String) :=
  match Assoc.get? key body with
  | none | some .null => .ok none
  | some (.str s) => .ok (some s)
  | some _ => .error (.notText key)

/-- An architecture is a mapping; anything else but nothing is wrapped into one. -/
def architectureOf (body : Assoc Datum) : Option (Assoc Datum) :=
  match Assoc.get? "architecture" body with
  | none | some .null | some (.str "") => none
  | some (.map fields) => some fields
  | some d => some [("value", d)]

/-- The fields of the body below a declaration. -/
def bodyOf (node : Node) : Except LoweringError (Assoc Datum) :=
  match node.children with
  | child :: _ =>
    match child.value with
    | .map fields => .ok fields
    | d => .error (.noFields d.kindName)
  | [] => .ok []

/-- The intent that a tree declares.  The id of the intent is taken before its texts are looked at,
and the time after them. -/
def ofNode (node : Node) : Work LoweringError Intent := do
  if node.kind != Declaration.nodeKind then throw (.notDeclaration node.kind)
  let body ← Work.ofExcept (bodyOf node)
  let capabilities ← Work.ofExcept (stringsAt "capabilities" body)
  let constraints ← Work.ofExcept (stringsAt "constraints" body)
  let architecture := (architectureOf body).map Assoc.freeze
  let id ← Work.freshId
  let name ← Work.ofExcept (node.value.text.mapError .unwritable)
  let goal ← Work.ofExcept (textAt "goal" body)
  let successCriteria ← Work.ofExcept (textAt "success_criteria" body)
  let parsedAt ← Work.readClock
  return {
    id := "intent_" ++ id
    name, goal, capabilities, constraints, successCriteria, architecture, parsedAt
    lineCount := 0
    complexity :=
      complexityScore capabilities.length constraints.length architecture.isSome }

/-- The intent with the lines of the source it came from.  It is another intent, and has a copy of
the architecture. -/
def withLines (source : String) (i : Intent) : Intent :=
  { i with
    architecture := i.architecture.map Assoc.refreeze
    lineCount := Text.lineCount source }

/-- The intent that a source declares, without a record of success. -/
def ofSource (strict : Bool) (source : String) : Work SourceError Intent := do
  let tokens ← (Token.tokenize strict source).mapError .lex
  let declaration ← (Declaration.parse tokens).mapError .parse
  let intent ← (ofNode declaration.toNode).mapError .lowering
  return intent.withLines source

def parsedRecord (i : Intent) : Journal.Record :=
  ⟨.info, origin, s!"Parsed intent '{i.name}' (complexity {i.complexity})"⟩

def parse (strict : Bool) (source : String) : Work SourceError Intent := do
  let intent ← ofSource strict source
  Work.noteAll [intent.parsedRecord]
  return intent

/-- The message of a source that could not be parsed. -/
def parseMessage (e : SourceError) : String := "Intent parsing failed: " ++ e.message

end Intent

end IntentPlan
