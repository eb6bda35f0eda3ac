import IntentPlan.Token

/-! # The pieces of a source

A source falls into pieces, one after the other, without gaps.  Each piece knows the characters it
covers, so that the pieces of a source put together are the source.
-/

namespace IntentPlan.Token

def isWordStart (c : Char) : Bool :=
  c = '_' || ('a' ≤ c && c ≤ 'z') || ('A' ≤ c && c ≤ 'Z')

def isWordChar (c : Char) : Bool := isWordStart c || ('0' ≤ c && c ≤ '9')

/-- White space between tokens. -/
def isSpace (c : Char) : Bool := c = ' ' || c = '\t' || c = '\r' || c = '\n'

def isQuote (c : Char) : Bool := c = '\'' || c = '"'

/-- The kind of a character that is a token by itself. -/
def punctuation? (c : Char) : Option Kind :=
  if c = '\x7b' || c = '\x7d' then some .brace
  else if c = '[' || c = ']' then some .array
  else if c = ':' then some .colon
  else if c = ',' then some .comma
  else none

/-- A character of a quoted text, as it is or after a backslash.  A backslash that is the very last
character of the source stands for itself. -/
inductive Glyph where
  | plain (c : Char)
  | escaped (c : Char)
deriving DecidableEq, Repr

namespace Glyph

/-- The character that is meant. -/
def char : Glyph → Char
  | .plain c | .escaped c => c

/-- The characters that are written. -/
def source : Glyph → List Char
  | .plain c => [c]
  | .escaped c => ['\\', c]

end Glyph

inductive Piece where
  | space (c : Char)
  | comment (body : List Char)
  | mark (kind : Kind) (c : Char)
  | quoted (quote : Char) (glyphs : List Glyph) (closed : Bool)
  | word (c : Char) (more : List Char)
  | stray (c : Char)
deriving DecidableEq, Repr

namespace Piece

/-- The characters that a piece covers. -/
def source : Piece → List Char
  | .space c | .mark _ c | .stray c => [c]
  | .comment body => '#' :: body
  | .quoted quote glyphs closed =>
    quote :: (glyphs.flatMap Glyph.source ++ if closed then [quote] else [])
  | .word c more => c :: more

/-- The kind and the text of the token that a piece makes, if it makes one. -/
def token? : Piece → Option (Kind × String)
  | .space _ | .comment _ | .stray _ => none
  | .mark kind c => some (kind, String.ofList [c])
  | .quoted _ glyphs _ => some (.string, String.ofList (glyphs.map Glyph.char))
  | .word c more =>
    let text := String.ofList (c :: more)
    some (if text ∈ keywords then .keyword else .identifier, text)

end Piece

/-- The glyphs up to the quote that closes a text, whether there is one, and what follows it. -/
def splitQuoted (quote : Char) : List Char → List Glyph × Bool × List Char
  | [] => ([], false, [])
  | '\\' :: c :: rest =>
    let (glyphs, closed, after) := splitQuoted quote rest
    (.escaped c :: glyphs, closed, after)
  | c :: rest =>
    if c = quote then ([], true, rest)
    else
      let (glyphs, closed, after) := splitQuoted quote rest
      (.plain c :: glyphs, closed, after)

/-- The piece that starts with a character, and what follows it. -/
def splitPiece (c : Char) (rest : List Char) : Piece × List Char :=
  if isSpace c then (.space c, rest)
  else if c = '#' then (.comment (rest.takeWhile (· != '\n')), rest.dropWhile (· != '\n'))
  else match punctuation? c with
    | some kind => (.mark kind c, rest)
    | none =>
      if isQuote c then
        let (glyphs, closed, after) := splitQuoted c rest
        (.quoted c glyphs closed, after)
      else if isWordStart c then
        (.word c (rest.takeWhile isWordChar), rest.dropWhile isWordChar)
      else (.stray c, rest)

theorem length_splitQuoted (quote : Char) (cs : List Char) :
    (splitQuoted quote cs).2.2.length ≤ cs.length := by
  fun_induction splitQuoted quote cs <;> simp_all <;> omega

theorem length_splitPiece (c : Char) (rest : List Char) :
    (splitPiece c rest).2.length ≤ rest.length := by
  unfold splitPiece
  split
  · simp
  · split
    · exact (List.dropWhile_sublist _).length_le
    · split
      · simp
      · split
        · exact length_splitQuoted c rest
        · split
          · exact (List.dropWhile_sublist _).length_le
          · simp

/-- The pieces of a source. -/
def pieces (cs : List Char) : List Piece :=
  match cs with
  | [] => []
  | c :: rest => (splitPiece c rest).1 :: pieces (splitPiece c rest).2
termination_by cs.length
decreasing_by exact Nat.lt_succ_of_le (length_splitPiece c rest)

end IntentPlan.Token
