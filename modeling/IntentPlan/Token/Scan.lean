import IntentPlan.Session
import IntentPlan.Text.Quoted
import IntentPlan.Token.Piece

/-! # The tokens of a source

Tokens are the images of the pieces that make one.  Characters that belong to no piece of the
language, and texts without a closing quote, are passed over with a notice or refused.
-/

namespace IntentPlan.Token

/-- What is wrong with a piece. -/
inductive Fault where
  | unterminated
  | unexpected (c : Char)
deriving DecidableEq, Repr

/-- A fault and the place of its piece. -/
structure Notice where
  fault : Fault
  pos : Position
deriving DecidableEq, Repr

def Piece.fault? : Piece → Option Fault
  | .quoted _ _ false => some .unterminated
  | .stray c => some (.unexpected c)
  | _ => none

/-- Each piece with the place of its first character. -/
def locate (p : Position) : List Piece → List (Piece × Position)
  | [] => []
  | piece :: rest => (piece, p) :: locate (p.after piece.source) rest

def located (source : String) : List (Piece × Position) :=
  locate .start (pieces source.toList)

def tokenAt? : Piece × Position → Option Token
  | (piece, pos) => piece.token?.map fun (kind, text) => ⟨kind, text, pos⟩

def noticeAt? : Piece × Position → Option Notice
  | (piece, pos) => piece.fault?.map fun fault => ⟨fault, pos⟩

/-- The tokens of a source, whatever is wrong with it. -/
def scan (source : String) : List Token := (located source).filterMap tokenAt?

/-- All that is wrong with a source, in order. -/
def notices (source : String) : List Notice := (located source).filterMap noticeAt?

/-- Goes on with a scan at a place, up to the first piece with a fault. -/
def scanStrictFrom (p : Position) (cs : List Char) : Except Notice (List Token) :=
  match cs with
  | [] => .ok []
  | c :: rest =>
    match noticeAt? ((splitPiece c rest).1, p) with
    | some notice => .error notice
    | none => do
      let tokens ← scanStrictFrom (p.after (splitPiece c rest).1.source) (splitPiece c rest).2
      return (tokenAt? ((splitPiece c rest).1, p)).toList ++ tokens
termination_by cs.length
decreasing_by exact Nat.lt_succ_of_le (length_splitPiece c rest)

/-- The tokens of a source with nothing wrong in it, or the first thing that is wrong. -/
def scanStrict (source : String) : Except Notice (List Token) :=
  scanStrictFrom .start source.toList

namespace Notice

/-- The notice as an error. -/
def message (n : Notice) : String :=
  s!"Lex error at {n.pos.toString}: " ++ match n.fault with
    | .unterminated => "unterminated string literal"
    | .unexpected c => "unexpected character " ++ Text.quoted (String.ofList [c])

/-- The notice as a warning. -/
def warning (n : Notice) : String :=
  match n.fault with
  | .unterminated => s!"Unterminated string starting at {n.pos.toString}"
  | .unexpected c =>
    "Dropping unexpected character " ++ Text.quoted (String.ofList [c]) ++
      s!" at {n.pos.toString}"

def isDrop (n : Notice) : Bool := n.fault != .unterminated

end Notice

/-- The name under which scanning makes its records. -/
def origin : String := "intentc.parsing.lexer"

def summaryRecord (tokens dropped : Nat) : Journal.Record :=
  ⟨.debug, origin, s!"Tokenized {tokens} tokens ({dropped} characters dropped)"⟩

/-- The records of a scan that was not refused. -/
def records (source : String) : List Journal.Record :=
  (notices source).map (fun n => ⟨.warning, origin, n.warning⟩) ++
    [summaryRecord (scan source).length ((notices source).countP Notice.isDrop)]

/-- Scans a source and makes records of what was passed over. -/
def tokenize (strict : Bool) (source : String) : Work Notice (List Token) := do
  let tokens ← Work.ofExcept (if strict then scanStrict source else .ok (scan source))
  Work.noteAll (records source)
  return tokens

end IntentPlan.Token
