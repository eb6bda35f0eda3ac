import IntentPlan.Token

/-! # A cursor in a list of tokens -/

namespace IntentPlan

/-- What a reader of tokens was waiting for. -/
inductive Wanted where
  | kind (k : Token.Kind)
  | lexeme (k : Token.Kind) (text : String)
  | entryOrClose
  | value
  | endOfInput
  | anything
deriving DecidableEq, Repr

/-- A token, or the end of the tokens, that is not what was wanted. -/
structure ParseError where
  wanted : Wanted
  got : Option Token
  pos : Position
deriving DecidableEq, Repr

def Wanted.describe : Wanted → String
  | .kind k => k.name
  | .lexeme k text => k.name ++ " '" ++ text ++ "'"
  | .entryOrClose => "identifier or brace '\x7d'"
  | .value => "value"
  | .endOfInput => "end of input"
  | .anything => "anything"

def ParseError.message (e : ParseError) : String :=
  let got := match e.got with
    | some t => t.describe
    | none => "end of input"
  s!"Parse error at {e.pos.toString}: " ++ match e.wanted with
    | .anything => "unexpected " ++ got
    | wanted => "expected " ++ wanted.describe ++ ", got " ++ got

/-- Tokens with a mark between those that were taken, the last of them first, and the rest. -/
structure Cursor where
  taken : List Token
  rest : List Token
deriving DecidableEq, Repr

namespace Cursor

def ofTokens (tokens : List Token) : Cursor := ⟨[], tokens⟩

def tokens (c : Cursor) : List Token := c.taken.reverse ++ c.rest

/-- How many tokens were taken. -/
def position (c : Cursor) : Nat := c.taken.length

def peek (c : Cursor) : Option Token := c.rest.head?

/-- The place after the last of all tokens, reckoned from the text of that token. -/
def endPosition (c : Cursor) : Position :=
  match c.tokens.getLast? with
  | none => .start
  | some t => ⟨t.pos.line, t.pos.column + t.text.length⟩

/-- The error at the cursor. -/
def fail (c : Cursor) (wanted : Wanted) : ParseError where
  wanted
  got := c.peek
  pos := match c.peek with
    | some t => t.pos
    | none => c.endPosition

/-- A reading of tokens: its result, and where it left the cursor, also when it failed. -/
abbrev Reading (α : Type) := Except ParseError α × Cursor

/-- Takes the next token. -/
def consume (c : Cursor) : Reading Token :=
  match c.rest with
  | [] => (.error (c.fail .anything), c)
  | t :: rest => (.ok t, ⟨t :: c.taken, rest⟩)

/-- Takes the next token if it is of a kind and, where one is given, has a text. -/
def expect (kind : Token.Kind) (text : Option String) (c : Cursor) : Reading Token :=
  let wanted := match text with
    | none => Wanted.kind kind
    | some text => Wanted.lexeme kind text
  match c.rest with
  | [] => (.error (c.fail wanted), c)
  | t :: rest =>
    if t.kind = kind && text.all (· == t.text) then (.ok t, ⟨t :: c.taken, rest⟩)
    else (.error (c.fail wanted), c)

/-- Whether the next token has a kind and a text. -/
def isAt (kind : Token.Kind) (text : String) (c : Cursor) : Bool :=
  c.peek.any fun t => t.kind = kind && t.text = text

end Cursor

end IntentPlan
