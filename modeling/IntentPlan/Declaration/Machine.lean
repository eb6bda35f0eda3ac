import IntentPlan.Datum.Literal
import IntentPlan.Declaration
import IntentPlan.Declaration.Cursor
import IntentPlan.Session

/-! # Reading declarations

Values are read by a machine that takes one token a step and keeps, for every body that is still
open around the current place, what was read of it.  A token that no step allows is left in place.
-/

namespace IntentPlan.Declaration

/-- A body that is open around the current value: its fields so far, and the key of the value. -/
structure Frame where
  fields : Assoc Value
  key : String
deriving Repr

/-- What is to come.  After a value a comma may be passed over first. -/
inductive State where
  | openBody (frames : List Frame)
  | entry (fields : Assoc Value) (frames : List Frame)
  | afterEntry (fields : Assoc Value) (frames : List Frame)
  | colon (fields : Assoc Value) (key : String) (frames : List Frame)
  | value (frames : List Frame)
  | openItems (frames : List Frame)
  | item (texts : List String) (frames : List Frame)
  | afterItem (texts : List String) (frames : List Frame)
  | done (v : Value)
deriving Repr

namespace State

/-- A value is complete: it ends the reading, or takes its place in the body around it. -/
def complete (v : Value) : List Frame → State
  | [] => .done v
  | frame :: frames => .afterEntry (Assoc.put frame.key v frame.fields) frames

def stepEntry (fields : Assoc Value) (frames : List Frame) (t : Token) : Option State :=
  if t.kind = .brace && t.text = "\x7d" then some (complete (.body fields) frames)
  else if t.kind = .identifier || t.kind = .keyword then some (.colon fields t.text frames)
  else none

def stepItem (texts : List String) (frames : List Frame) (t : Token) : Option State :=
  if t.kind = .array && t.text = "]" then some (complete (.items texts) frames)
  else if t.kind = .string then some (.afterItem (texts ++ [t.text]) frames)
  else none

/-- The state after one more token, if it may stand here. -/
def step : State → Token → Option State
  | .openBody frames, t =>
    if t.kind = .brace && t.text = "\x7b" then some (.entry [] frames) else none
  | .entry fields frames, t => stepEntry fields frames t
  | .afterEntry fields frames, t =>
    if t.kind = .comma && t.text = "," then some (.entry fields frames)
    else stepEntry fields frames t
  | .colon fields key frames, t =>
    if t.kind = .colon then some (.value (⟨fields, key⟩ :: frames)) else none
  | .value frames, t =>
    if t.kind = .array && t.text = "[" then some (.item [] frames)
    else if t.kind = .brace && t.text = "\x7b" then some (.entry [] frames)
    else if t.kind = .string || t.kind = .identifier then some (complete (.text t.text) frames)
    else none
  | .openItems frames, t =>
    if t.kind = .array && t.text = "[" then some (.item [] frames) else none
  | .item texts frames, t => stepItem texts frames t
  | .afterItem texts frames, t =>
    if t.kind = .comma && t.text = "," then some (.item texts frames)
    else stepItem texts frames t
  | .done _, _ => none

/-- What a state that is not done waits for. -/
def wanted : State → Wanted
  | .openBody _ => .lexeme .brace "\x7b"
  | .entry _ _ | .afterEntry _ _ => .entryOrClose
  | .colon _ _ _ => .kind .colon
  | .value _ => .value
  | .openItems _ => .lexeme .array "["
  | .item _ _ | .afterItem _ _ => .kind .string
  | .done _ => .endOfInput

end State

/-- Steps until a value is complete, from a state with some tokens taken. -/
def run (state : State) (taken : List Token) : List Token → Cursor.Reading Value
  | [] =>
    match state with
    | .done v => (.ok v, ⟨taken, []⟩)
    | _ => (.error ((Cursor.mk taken []).fail state.wanted), ⟨taken, []⟩)
  | t :: rest =>
    match state with
    | .done v => (.ok v, ⟨taken, t :: rest⟩)
    | _ =>
      match state.step t with
      | some next => run next (t :: taken) rest
      | none => (.error ((Cursor.mk taken (t :: rest)).fail state.wanted), ⟨taken, t :: rest⟩)

def readValue (c : Cursor) : Cursor.Reading Value := run (.value []) c.taken c.rest

/-- A value that has to be a body. -/
def readBody (c : Cursor) : Cursor.Reading Value := run (.openBody []) c.taken c.rest

/-- A value that has to be an array. -/
def readItems (c : Cursor) : Cursor.Reading Value := run (.openItems []) c.taken c.rest

/-- A declaration up to the end of the tokens. -/
def read (c : Cursor) : Cursor.Reading Declaration :=
  match c.expect .keyword (some "intent") with
  | (.error e, c) => (.error e, c)
  | (.ok _, c) =>
    match c.expect .identifier none with
    | (.error e, c) => (.error e, c)
    | (.ok name, c) =>
      match readBody c with
      | (.error e, c) => (.error e, c)
      | (.ok body, c) =>
        if c.rest.isEmpty then (.ok ⟨name.text, body.fields⟩, c)
        else (.error (c.fail .endOfInput), c)

/-- The declaration that tokens spell. -/
def ofTokens (tokens : List Token) : Except ParseError Declaration :=
  (read (.ofTokens tokens)).1

/-- The record of a declaration that was read: its keys are sorted. -/
def record (d : Declaration) : Journal.Record :=
  let keys := (Assoc.keys d.body).mergeSort fun a b => !decide (b < a)
  ⟨.debug, "intentc.parsing.parser",
    s!"Parsed intent '{d.name}' with keys " ++ Datum.literalStrings keys⟩

def parse (tokens : List Token) : Work ParseError Declaration := do
  let d ← Work.ofExcept (ofTokens tokens)
  Work.noteAll [d.record]
  return d

end IntentPlan.Declaration
