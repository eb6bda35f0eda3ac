import IntentPlan.Json.Reader
import IntentPlan.Toml
import IntentPlan.Toml.Fault

/-! # Texts and keys of a manifest -/

namespace IntentPlan.Toml

def isGap (c : Char) : Bool := c = ' ' || c = '\t'

def skipGap (cs : List Char) : List Char := cs.dropWhile isGap

def isControl (c : Char) : Bool := c.toNat < 0x20 || c.toNat = 0x7F

/-- Characters that no comment and no text on one line may hold. -/
def isIllegal (c : Char) : Bool := isControl c && c != '\t'

/-- Characters that no text on several lines may hold. -/
def isIllegalInLines (c : Char) : Bool := isIllegal c && c != '\n'

theorem length_skipGap (cs : List Char) : (skipGap cs).length ≤ cs.length :=
  (List.dropWhile_sublist _).length_le

/-! ## Escapes -/

def simpleEscape? : Char → Option Char
  | 'b' => some '\x08'
  | 't' => some '\t'
  | 'n' => some '\n'
  | 'f' => some '\x0c'
  | 'r' => some '\r'
  | '"' => some '"'
  | '\\' => some '\\'
  | _ => none

def hexNumber? (cs : List Char) : Option Nat :=
  cs.foldlM (fun n c => (Json.hexValue? c).map (16 * n + ·)) 0

/-- The character whose number the next `count` digits are. -/
def readHex (count : Nat) (cs : List Char) : Except Fault (List Char × List Char) :=
  match if cs.length < count then none else hexNumber? (cs.take count) with
  | none => .error ⟨.hex, cs.length⟩
  | some n =>
    if n.isValidChar then .ok ([Char.ofNat n], cs.drop count)
    else .error ⟨.notScalar, cs.length - count⟩

/-- Passes over the end of a line, which nothing but blanks may stand before, and over all blanks
and line breaks behind it. -/
def skipFold (cs : List Char) : Except Fault (List Char) :=
  match skipGap cs with
  | [] => .ok []
  | '\n' :: rest => .ok (rest.dropWhile fun c => isGap c || c = '\n')
  | rest => .error ⟨.backslash, rest.length⟩

/-- What a backslash and the characters behind it stand for.  In a text on several lines it may
stand at the end of a line. -/
def readEscape (lines : Bool) (cs : List Char) : Except Fault (List Char × List Char) :=
  match cs with
  | [] => .error ⟨.backslash, 0⟩
  | c :: rest =>
    if lines && (isGap c || c = '\n') then
      match skipFold cs with
      | .error e => .error e
      | .ok rest => .ok ([], rest)
    else if c = 'u' then readHex 4 rest
    else if c = 'U' then readHex 8 rest
    else
      match simpleEscape? c with
      | some e => .ok ([e], rest)
      | none => .error ⟨.backslash, rest.length⟩

theorem length_of_readHex {count : Nat} {cs text rest : List Char}
    (h : readHex count cs = .ok (text, rest)) : rest.length ≤ cs.length := by
  unfold readHex at h
  split at h
  · cases h
  · split at h
    · simp only [Except.ok.injEq, Prod.mk.injEq] at h
      rw [← h.2, List.length_drop]; omega
    · cases h

theorem length_of_skipFold {cs rest : List Char} (h : skipFold cs = .ok rest) :
    rest.length ≤ cs.length := by
  have hgap := length_skipGap cs
  unfold skipFold at h
  split at h
  · simp only [Except.ok.injEq] at h; simp [← h]
  · rename_i after hs
    simp only [Except.ok.injEq] at h
    rw [hs, List.length_cons] at hgap
    have := (List.dropWhile_sublist (fun c => isGap c || c = '\n') (l := after)).length_le
    rw [← h]; omega
  · cases h

theorem length_of_readEscape {lines : Bool} {cs text rest : List Char}
    (h : readEscape lines cs = .ok (text, rest)) : rest.length ≤ cs.length := by
  unfold readEscape at h
  split at h
  · cases h
  · rename_i c after
    split at h
    · split at h
      · cases h
      · rename_i folded hf
        simp only [Except.ok.injEq, Prod.mk.injEq] at h
        rw [← h.2]; exact length_of_skipFold hf
    · split at h
      · exact Nat.le_succ_of_le (length_of_readHex h)
      · split at h
        · exact Nat.le_succ_of_le (length_of_readHex h)
        · split at h
          · simp only [Except.ok.injEq, Prod.mk.injEq] at h
            simp [← h.2]
          · cases h

/-! ## Texts -/

/-- A text behind its opening quote, on one line or on several; `text` is what was read of it,
backwards.  On several lines it ends with three quotes. -/
def readBasic (lines : Bool) (text : List Char) (cs : List Char) :
    Except Fault (List Char × List Char) :=
  match cs with
  | [] => .error ⟨.unterminated, 0⟩
  | '"' :: rest =>
    if !lines then .ok (text.reverse, rest)
    else if rest.take 2 == ['"', '"'] then .ok (text.reverse, rest.drop 2)
    else readBasic lines ('"' :: text) rest
  | '\\' :: rest =>
    match _h : readEscape lines rest with
    | .error e => .error e
    | .ok (escaped, after) => readBasic lines (escaped ++ text) after
  | c :: rest =>
    if if lines then isIllegalInLines c else isIllegal c then .error ⟨.illegal c, cs.length⟩
    else readBasic lines (c :: text) rest
termination_by cs.length
decreasing_by
  · simp
  · exact Nat.lt_succ_of_le (length_of_readEscape _h)
  · simp

/-- The characters before the first place where others stand, and those behind them. -/
def splitAtFirst (closing : List Char) : List Char → Option (List Char × List Char)
  | [] => if closing.isEmpty then some ([], []) else none
  | c :: rest =>
    if closing.isPrefixOf (c :: rest) then some ([], (c :: rest).drop closing.length)
    else (splitAtFirst closing rest).map fun (before, after) => (c :: before, after)

/-- A text without escapes, up to the characters that close it. -/
def readLiteral (illegal : Char → Bool) (closing : List Char) (cs : List Char) :
    Except Fault (List Char × List Char) :=
  match splitAtFirst closing cs with
  | none => .error ⟨.expected (String.ofList closing), 0⟩
  | some (text, rest) =>
    match text.find? illegal with
    | some c => .error ⟨.invalid c, (cs.dropWhile fun c => !illegal c).length⟩
    | none => .ok (text, rest)

/-- Up to two quotes behind the end of a text on several lines belong to it. -/
def withMoreQuotes (quote : Char) (text rest : List Char) : List Char × List Char :=
  let more := (rest.take 2).takeWhile (· == quote)
  (text ++ more, rest.drop more.length)

/-- A text behind its first quote. -/
def readText (quote : Char) (cs : List Char) : Except Fault (String × List Char) :=
  let result :=
    if cs.take 2 == [quote, quote] then
      let body := match cs.drop 2 with
        | '\n' :: rest => rest
        | rest => rest
      (if quote = '"' then readBasic true [] body
        else readLiteral isIllegalInLines [quote, quote, quote] body).map fun (text, rest) =>
          withMoreQuotes quote text rest
    else if quote = '"' then readBasic false [] cs
    else readLiteral isIllegal [quote] cs
  result.map fun (text, rest) => (String.ofList text, rest)

/-! ## Keys -/

def isBare (c : Char) : Bool := c.isAlphanum || c = '_' || c = '-'

def startsKey (c : Char) : Bool := isBare c || c = '"' || c = '\''

def readName (cs : List Char) : Except Fault (String × List Char) :=
  let chars := match cs with
    | '"' :: rest => readBasic false [] rest
    | '\'' :: rest => readLiteral isIllegal ['\''] rest
    | cs =>
      if (cs.takeWhile isBare).isEmpty then .error ⟨.keyStart, cs.length⟩
      else .ok (cs.takeWhile isBare, cs.dropWhile isBare)
  chars.map fun (name, rest) => (String.ofList name, rest)

/-- Names with points between them, and the blanks behind them.  There are at most `count` names. -/
def readNames (count : Nat) (cs : List Char) : Except Fault (Key × List Char) :=
  match count with
  | 0 => .error ⟨.keyStart, cs.length⟩
  | count + 1 => do
    let (name, rest) ← readName cs
    match skipGap rest with
    | '.' :: rest =>
      let (key, rest) ← readNames count (skipGap rest)
      return ({ key with parents := name :: key.parents }, rest)
    | rest => return (⟨[], name⟩, rest)

def readKey (cs : List Char) : Except Fault (Key × List Char) := readNames (cs.length + 1) cs

end IntentPlan.Toml
