/-! # Tokens -/

namespace IntentPlan

/-- A place in a source: lines and columns are counted from one. -/
structure Position where
  line : Int
  column : Int
deriving DecidableEq, Repr

namespace Position

def start : Position := ⟨1, 1⟩

/-- The place after one character. -/
def next (p : Position) (c : Char) : Position :=
  if c = '\n' then ⟨p.line + 1, 1⟩ else ⟨p.line, p.column + 1⟩

/-- The place after some characters. -/
def after (p : Position) (cs : List Char) : Position := cs.foldl next p

def toString (p : Position) : String := s!"{p.line}:{p.column}"

end Position

namespace Token

/-- The kinds of tokens that the language has, and kinds of any other name. -/
inductive Kind where
  | keyword
  | identifier
  | string
  | array
  | brace
  | colon
  | comma
  | other (name : String)
deriving DecidableEq, Repr

namespace Kind

def name : Kind → String
  | .keyword => "keyword"
  | .identifier => "identifier"
  | .string => "string"
  | .array => "array"
  | .brace => "brace"
  | .colon => "colon"
  | .comma => "comma"
  | .other name => name

def ofName (s : String) : Kind :=
  let known : List Kind := [.keyword, .identifier, .string, .array, .brace, .colon, .comma]
  (known.find? fun k => k.name == s).getD (.other s)

end Kind

/-- The words that are keywords wherever they stand. -/
def keywords : List String :=
  ["intent", "goal", "capabilities", "constraints", "architecture", "success_criteria"]

end Token

structure Token where
  kind : Token.Kind
  text : String
  pos : Position
deriving DecidableEq, Repr

namespace Token

/-- A token inside a message. -/
def describe (t : Token) : String := t.kind.name ++ " '" ++ t.text ++ "'"

end Token

end IntentPlan
