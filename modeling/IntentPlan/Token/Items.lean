import IntentPlan.Datum.Literal
import IntentPlan.Token.Scan

/-! # Scanning a list of data

A list in the place of a source is scanned as if its items were characters.  What is no token is
passed over with a notice.  Items that are no texts are refused, and so is every word, since items
of a list cannot be put together to one.
-/

namespace IntentPlan.Token.Items

inductive Fault where
  /-- A list or a mapping cannot be looked up. -/
  | notSought (kind : String)
  /-- What is no text cannot be compared with letters. -/
  | notCompared (kind : String)
  /-- What is no text cannot be part of a quoted text. -/
  | notJoined (index : Nat) (kind : String)
deriving DecidableEq, Repr

def Fault.message : Fault → String
  | .notSought kind => s!"unhashable type: '{kind}'"
  | .notCompared kind => s!"'<=' not supported between instances of 'str' and '{kind}'"
  | .notJoined index kind => s!"sequence item {index}: expected str instance, {kind} found"

/-- Whether a text lies between two others in the order of texts. -/
def within (low high s : String) : Bool := !decide (s < low) && !decide (high < s)

def startsWord (s : String) : Bool := s == "_" || within "a" "z" s || within "A" "Z" s

def continuesWord (s : String) : Bool := startsWord s || within "0" "9" s

/-- The fault of a word, of which the items after the first are given. -/
def wordFault : List Datum → Fault
  | .str s :: rest => if continuesWord s then wordFault rest else .notSought "list"
  | [] => .notSought "list"
  | d :: _ => .notCompared d.kindName

/-- The kind of a text that is a token by itself. -/
def mark? (s : String) : Option Kind :=
  match s.toList with
  | [c] => punctuation? c
  | _ => none

/-- The texts put together; `index` is the number of those before them. -/
def joined (index : Nat) : List Datum → Except Fault String
  | [] => .ok ""
  | .str s :: rest => (joined (index + 1) rest).map (s ++ ·)
  | d :: _ => .error (.notJoined index d.kindName)

/-- The place after an item. -/
def next (p : Position) : Datum → Position
  | .str "\n" => ⟨p.line + 1, 1⟩
  | _ => ⟨p.line, p.column + 1⟩

/-- Where a scan is.  Of a quoted text the items so far are kept, the last of them first. -/
inductive Mode where
  | between
  | comment
  | quoted (quote : String) (start : Position) (texts : List Datum)

/-- The token of a quoted text. -/
def quotedToken (start : Position) (texts : List Datum) : Except Fault Token :=
  (joined 0 texts.reverse).map fun text => ⟨.string, text, start⟩

def dropRecord (s : String) (p : Position) : Journal.Record :=
  ⟨.warning, origin, "Dropping unexpected character " ++ Text.quoted s ++ s!" at {p.toString}"⟩

/-- Goes on with a scan that has made `tokens` and passed over `dropped` items. -/
def scanFrom (tokens : List Token) (dropped : Nat) (p : Position) :
    Mode → List Datum → Work Fault (List Token)
  | .quoted _ start texts, [] => do
    Work.noteAll [⟨.warning, origin, (Notice.mk .unterminated start).warning⟩]
    let tokens := tokens ++ [← Work.ofExcept (quotedToken start texts)]
    Work.noteAll [summaryRecord tokens.length dropped]
    return tokens
  | _, [] => do
    Work.noteAll [summaryRecord tokens.length dropped]
    return tokens
  | .quoted quote start texts, .str "\\" :: d :: rest =>
    scanFrom tokens dropped (next (next p (.str "\\")) d) (.quoted quote start (d :: texts)) rest
  | .quoted quote start texts, d :: rest => do
    if (match d with | .str s => s == quote | _ => false) then
      let token ← Work.ofExcept (quotedToken start texts)
      scanFrom (tokens ++ [token]) dropped (next p d) .between rest
    else scanFrom tokens dropped (next p d) (.quoted quote start (d :: texts)) rest
  | .comment, .str "\n" :: rest => scanFrom tokens dropped (next p (.str "\n")) .between rest
  | .comment, _ :: rest => scanFrom tokens dropped p .comment rest
  | .between, .str s :: rest => do
    let after := next p (.str s)
    if [" ", "\t", "\r", "\n"].contains s then scanFrom tokens dropped after .between rest
    else if s = "#" then scanFrom tokens dropped p .comment rest
    else
      match mark? s with
      | some kind => scanFrom (tokens ++ [⟨kind, s, p⟩]) dropped after .between rest
      | none =>
        if s = "'" || s = "\"" then scanFrom tokens dropped after (.quoted s p []) rest
        else if startsWord s then throw (wordFault rest)
        else do
          Work.noteAll [dropRecord s p]
          scanFrom tokens (dropped + 1) after .between rest
  | .between, d :: _ =>
    match d with
    | .list _ | .map _ => throw (.notSought d.kindName)
    | d => throw (.notCompared d.kindName)

/-- The tokens of a list. -/
def scan (items : List Datum) : Work Fault (List Token) := scanFrom [] 0 .start .between items

end IntentPlan.Token.Items
