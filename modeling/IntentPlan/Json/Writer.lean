import IntentPlan.Datum
import IntentPlan.Decimal.Layout
import IntentPlan.Text.Quoted

/-! # Writing data files

Two blanks a level, one item a line, and nothing outside ASCII.
-/

namespace IntentPlan.Json

open IntentPlan.Text IntentPlan.Decimal

def unitEscape (n : Nat) : List Char := '\\' :: 'u' :: hexDigits 4 n

/-- A character inside a quoted text; above the basic plane it takes two escapes. -/
def escapeChar (c : Char) : List Char :=
  if c = '"' then ['\\', '"']
  else if c = '\\' then ['\\', '\\']
  else if c = '\n' then ['\\', 'n']
  else if c = '\r' then ['\\', 'r']
  else if c = '\t' then ['\\', 't']
  else if c = '\x08' then ['\\', 'b']
  else if c = '\x0c' then ['\\', 'f']
  else if 0x20 ≤ c.toNat && c.toNat ≤ 0x7E then [c]
  else if c.toNat < 0x10000 then unitEscape c.toNat
  else
    let n := c.toNat - 0x10000
    unitEscape (0xD800 + n / 0x400) ++ unitEscape (0xDC00 + n % 0x400)

def quote (s : String) : String := String.ofList ('"' :: s.toList.flatMap escapeChar ++ ['"'])

def indent (level : Nat) : String := "\n" ++ String.ofList (List.replicate (2 * level) ' ')

/-- Items between brackets, each on a line of its own. -/
def block (level : Nat) (opening closing : String) : List String → String
  | [] => opening ++ closing
  | items =>
    opening ++ indent (level + 1) ++ String.intercalate ("," ++ indent (level + 1)) items ++
      indent level ++ closing

mutual

def writeAt (level : Nat) : Datum → String
  | .null => "null"
  | .bool true => "true"
  | .bool false => "false"
  | .int n => toString n
  | .float x => Layout.data.float x
  | .str s => quote s
  | .list items => block level "[" "]" (writeItems (level + 1) items)
  | .map fields => block level "\x7b" "\x7d" (writeFields (level + 1) fields)

def writeItems (level : Nat) : List Datum → List String
  | [] => []
  | d :: rest => writeAt level d :: writeItems level rest

def writeFields (level : Nat) : List (String × Datum) → List String
  | [] => []
  | (k, d) :: rest => (quote k ++ ": " ++ writeAt level d) :: writeFields level rest

end

def write (d : Datum) : String := writeAt 0 d

end IntentPlan.Json
