import IntentPlan.Datum
import IntentPlan.Decimal.Reader

/-! # Reading data files

A document is read by a machine that keeps the arrays and objects that are still open.  Every step
takes at least one character away.
-/

namespace IntentPlan.Json

open IntentPlan.Decimal

/-- What a document lacks or has too much of. -/
inductive Cause where
  | value
  | propertyName
  | colon
  | comma
  | unterminated
  | control
  | escape
  | unicodeEscape
  | extraData
  | byteOrderMark
  | tooManyDigits (digits : Nat)
deriving DecidableEq, Repr

/-- A cause, and how many characters are left from its place on. -/
structure Fault where
  cause : Cause
  left : Nat
deriving DecidableEq, Repr

abbrev Read (α : Type) := Except Fault (α × List Char)

def isSpace (c : Char) : Bool := c = ' ' || c = '\t' || c = '\n' || c = '\r'

def skipSpace (cs : List Char) : List Char := cs.dropWhile isSpace

theorem length_skipSpace (cs : List Char) : (skipSpace cs).length ≤ cs.length :=
  (List.dropWhile_sublist _).length_le

/-! ## Texts -/

def hexValue? (c : Char) : Option Nat :=
  if '0' ≤ c && c ≤ '9' then some (c.toNat - '0'.toNat)
  else if 'a' ≤ c && c ≤ 'f' then some (c.toNat - 'a'.toNat + 10)
  else if 'A' ≤ c && c ≤ 'F' then some (c.toNat - 'A'.toNat + 10)
  else none

/-- Four digits of base sixteen as one unit. -/
def unit? (a b c d : Char) : Option Nat := do
  return (((← hexValue? a) * 16 + (← hexValue? b)) * 16 + (← hexValue? c)) * 16 + (← hexValue? d)

def isHighUnit (n : Nat) : Bool := 0xD800 ≤ n && n ≤ 0xDBFF

def isLowUnit (n : Nat) : Bool := 0xDC00 ≤ n && n ≤ 0xDFFF

/-- The character of a unit; half of a pair stands for no character. -/
def unitChar (n : Nat) : Char :=
  if isHighUnit n || isLowUnit n then '\ufffd' else Char.ofNat n

def pairChar (high low : Nat) : Char :=
  Char.ofNat (0x10000 + (high - 0xD800) * 0x400 + (low - 0xDC00))

def simpleEscape? : Char → Option Char
  | '"' => some '"'
  | '\\' => some '\\'
  | '/' => some '/'
  | 'b' => some '\x08'
  | 'f' => some '\x0c'
  | 'n' => some '\n'
  | 'r' => some '\r'
  | 't' => some '\t'
  | _ => none

/-- The text after an opening quote.  `start` counts the characters from that quote on, `text` is
what was read of it, backwards.  An escape of four digits needs a character after it. -/
def readText (start : Nat) (text : List Char) : List Char → Read String
  | [] => .error ⟨.unterminated, start⟩
  | '"' :: rest => .ok (String.ofList text.reverse, rest)
  | ['\\'] => .error ⟨.unterminated, start⟩
  | '\\' :: 'u' :: a :: b :: c :: d :: '\\' :: 'u' :: e :: f :: g :: h :: z :: rest =>
    match unit? a b c d with
    | none => .error ⟨.unicodeEscape, rest.length + 12⟩
    | some high =>
      if isHighUnit high then
        match unit? e f g h with
        | none => .error ⟨.unicodeEscape, rest.length + 6⟩
        | some low =>
          if isLowUnit low then readText start (pairChar high low :: text) (z :: rest)
          else readText start (unitChar high :: text) ('\\' :: 'u' :: e :: f :: g :: h :: z :: rest)
      else readText start (unitChar high :: text) ('\\' :: 'u' :: e :: f :: g :: h :: z :: rest)
  | '\\' :: 'u' :: a :: b :: c :: d :: z :: rest =>
    match unit? a b c d with
    | none => .error ⟨.unicodeEscape, rest.length + 6⟩
    | some n => readText start (unitChar n :: text) (z :: rest)
  | '\\' :: 'u' :: rest => .error ⟨.unicodeEscape, rest.length + 1⟩
  | '\\' :: c :: rest =>
    match simpleEscape? c with
    | none => .error ⟨.escape, rest.length + 2⟩
    | some e => readText start (e :: text) rest
  | c :: rest =>
    if c.toNat < 0x20 then .error ⟨.control, rest.length + 1⟩
    else readText start (c :: text) rest

theorem length_of_readText {start : Nat} {text cs rest : List Char} {s : String}
    (h : readText start text cs = .ok (s, rest)) : rest.length < cs.length := by
  fun_induction readText start text cs <;> simp_all <;> omega

/-! ## Numbers -/

/-- The digits of a whole number: a zero stands alone. -/
def splitWhole : List Char → Option (List Char × List Char)
  | '0' :: rest => some (['0'], rest)
  | cs =>
    let ds := cs.takeWhile Char.isDigit
    if ds.isEmpty then none else some (ds, cs.dropWhile Char.isDigit)

/-- A point with digits after it, or nothing. -/
def splitPlaces : List Char → List Char × List Char
  | '.' :: rest =>
    let ds := rest.takeWhile Char.isDigit
    if ds.isEmpty then ([], '.' :: rest) else (ds, rest.dropWhile Char.isDigit)
  | cs => ([], cs)

/-- An exponent with its mark, or nothing. -/
def splitExponent (cs : List Char) : Option Int × List Char :=
  match cs with
  | mark :: rest =>
    let (negative, after) := splitSign rest
    let ds := after.takeWhile Char.isDigit
    if (mark = 'e' || mark = 'E') && !ds.isEmpty then
      (some (if negative then -(digitsValue ds : Int) else digitsValue ds),
        after.dropWhile Char.isDigit)
    else (none, cs)
  | [] => (none, [])

theorem length_dropDigits (cs : List Char) : (cs.dropWhile Char.isDigit).length ≤ cs.length :=
  (List.dropWhile_sublist _).length_le

theorem length_of_splitWhole {cs ds rest : List Char} (h : splitWhole cs = some (ds, rest)) :
    rest.length < cs.length := by
  unfold splitWhole at h
  split at h
  · simp_all
  · dsimp only at h
    split at h
    · cases h
    · rename_i hne
      simp only [Option.some.injEq, Prod.mk.injEq] at h
      have hsum := congrArg List.length
        (List.takeWhile_append_dropWhile (p := Char.isDigit) (l := cs))
      have hpos : 0 < (cs.takeWhile Char.isDigit).length := by
        rw [List.length_pos_iff, ne_eq, ← List.isEmpty_iff]; exact hne
      rw [List.length_append] at hsum
      rw [← h.2]; omega

theorem length_splitPlaces (cs : List Char) : (splitPlaces cs).2.length ≤ cs.length := by
  unfold splitPlaces
  split
  · rename_i rest
    dsimp only
    split
    · simp
    · have := length_dropDigits rest; simp only [List.length_cons]; omega
  · simp

theorem length_splitSign (cs : List Char) : (splitSign cs).2.length ≤ cs.length := by
  unfold splitSign; split <;> simp

theorem length_splitExponent (cs : List Char) : (splitExponent cs).2.length ≤ cs.length := by
  unfold splitExponent
  split
  · rename_i mark rest
    dsimp only
    split
    · have h₁ := length_splitSign rest
      have h₂ := length_dropDigits (splitSign rest).2
      simp only [List.length_cons]; omega
    · simp
  · simp

/-- A number without its sign.  With a point or an exponent it is a float. -/
def readMagnitude (negative : Bool) (left : Nat) (cs : List Char) : Read Datum :=
  match splitWhole cs with
  | none => .error ⟨.value, left⟩
  | some (whole, rest) =>
    let places := splitPlaces rest
    let exponent := splitExponent places.2
    if places.1.isEmpty && exponent.1.isNone then
      if digitLimit < whole.length then .error ⟨.tooManyDigits whole.length, left⟩
      else
        let n := digitsValue whole
        .ok (.int (if negative then -(n : Int) else n), exponent.2)
    else
      let x := floatOfScientific (digitsValue (whole ++ places.1))
        (exponent.1.getD 0 - places.1.length)
      .ok (.float (if negative then -x else x), exponent.2)

theorem length_of_readMagnitude {negative : Bool} {left : Nat} {cs rest : List Char} {d : Datum}
    (h : readMagnitude negative left cs = .ok (d, rest)) : rest.length < cs.length := by
  unfold readMagnitude at h
  split at h
  · cases h
  · rename_i whole after hw
    have h₁ := length_of_splitWhole hw
    have h₂ := length_splitPlaces after
    have h₃ := length_splitExponent (splitPlaces after).2
    dsimp only at h
    split at h
    · split at h
      · cases h
      · simp only [Except.ok.injEq, Prod.mk.injEq] at h; rw [← h.2]; omega
    · simp only [Except.ok.injEq, Prod.mk.injEq] at h; rw [← h.2]; omega

/-! ## Values -/

/-- The words that stand for a value. -/
def words : List (List Char × Datum) :=
  [("null".toList, .null), ("true".toList, .bool true), ("false".toList, .bool false),
    ("NaN".toList, .float (0.0 / 0.0)), ("Infinity".toList, .float (1.0 / 0.0)),
    ("-Infinity".toList, .float (-1.0 / 0.0))]

/-- A word, or a number. -/
def readPlain (cs : List Char) : Read Datum :=
  match words.find? fun w => w.1.isPrefixOf cs with
  | some (w, d) => .ok (d, cs.drop w.length)
  | none =>
    match cs with
    | '-' :: rest => readMagnitude true cs.length rest
    | _ => readMagnitude false cs.length cs

theorem words_ne_nil {w : List Char × Datum} (h : w ∈ words) : 0 < w.1.length := by
  simp only [words, List.mem_cons, List.not_mem_nil, or_false] at h
  rcases h with rfl | rfl | rfl | rfl | rfl | rfl <;> decide

theorem length_of_readPlain {cs rest : List Char} {d : Datum}
    (h : readPlain cs = .ok (d, rest)) : rest.length < cs.length := by
  unfold readPlain at h
  split at h
  · rename_i w d' hw
    have hpos : 0 < w.length := words_ne_nil (List.mem_of_find?_eq_some hw)
    have hpre := List.find?_some hw
    have hle : w.length ≤ cs.length := (List.isPrefixOf_iff_prefix.1 hpre).length_le
    simp only [Except.ok.injEq, Prod.mk.injEq] at h
    rw [← h.2, List.length_drop]
    omega
  · split at h
    · exact Nat.lt_trans (length_of_readMagnitude h) (by simp)
    · exact length_of_readMagnitude h

/-- An array or an object of which a part was read: the items of an array backwards, the fields of
an object with the key of the value to come. -/
inductive Frame where
  | array (items : List Datum)
  | object (fields : Assoc Datum) (key : String)

/-- A value is to come, or has just been read. -/
inductive Phase where
  | value
  | done (d : Datum)

/-- A key with its colon, where one is due. -/
def readKey (cs : List Char) : Read String :=
  match cs with
  | '"' :: rest =>
    match readText cs.length [] rest with
    | .error e => .error e
    | .ok (key, rest) =>
      match skipSpace rest with
      | ':' :: rest => .ok (key, rest)
      | rest => .error ⟨.colon, rest.length⟩
  | _ => .error ⟨.propertyName, cs.length⟩

theorem length_of_readKey {cs rest : List Char} {key : String}
    (h : readKey cs = .ok (key, rest)) : rest.length < cs.length := by
  unfold readKey at h
  split at h
  · split at h
    · cases h
    · rename_i after hk
      have h₁ := length_of_readText hk
      split at h
      · rename_i rest' hs
        have h₂ := length_skipSpace after
        simp only [Except.ok.injEq, Prod.mk.injEq] at h
        rw [hs, List.length_cons] at h₂
        rw [← h.2, List.length_cons]
        omega
      · cases h
  · cases h

/-- The next phase, the open frames and the rest after one step. -/
abbrev Step := Except Fault (Phase × List Frame × List Char)

/-- The step at a place where a value is due. -/
def stepValue (frames : List Frame) (cs : List Char) : Step :=
  match cs with
  | '"' :: rest =>
    match readText cs.length [] rest with
    | .error e => .error e
    | .ok (s, rest) => .ok (.done (.str s), frames, rest)
  | '[' :: rest =>
    match skipSpace rest with
    | ']' :: rest => .ok (.done (.list []), frames, rest)
    | rest => .ok (.value, .array [] :: frames, rest)
  | '\x7b' :: rest =>
    match skipSpace rest with
    | '\x7d' :: rest => .ok (.done (.map []), frames, rest)
    | rest =>
      match readKey rest with
      | .error e => .error e
      | .ok (key, rest) => .ok (.value, .object [] key :: frames, rest)
  | _ =>
    match readPlain cs with
    | .error e => .error e
    | .ok (d, rest) => .ok (.done d, frames, rest)

/-- The step after a value inside an array or an object. -/
def stepAfter (d : Datum) (frame : Frame) (frames : List Frame) (cs : List Char) : Step :=
  match frame, cs with
  | .array items, ']' :: rest => .ok (.done (.list (d :: items).reverse), frames, rest)
  | .array items, ',' :: rest => .ok (.value, .array (d :: items) :: frames, rest)
  | .object fields key, '\x7d' :: rest => .ok (.done (.map (Assoc.put key d fields)), frames, rest)
  | .object fields key, ',' :: rest =>
    match readKey (skipSpace rest) with
    | .error e => .error e
    | .ok (next, rest) => .ok (.value, .object (Assoc.put key d fields) next :: frames, rest)
  | _, _ => .error ⟨.comma, cs.length⟩

theorem length_of_stepValue {frames frames' : List Frame} {cs rest : List Char} {p : Phase}
    (h : stepValue frames cs = .ok (p, frames', rest)) : rest.length < cs.length := by
  unfold stepValue at h
  split at h
  · split at h
    · cases h
    · rename_i hr
      have := length_of_readText hr
      simp only [Except.ok.injEq, Prod.mk.injEq] at h
      rw [← h.2.2, List.length_cons]; omega
  · rename_i after
    have hs := length_skipSpace after
    split at h <;> simp only [Except.ok.injEq, Prod.mk.injEq] at h <;>
      rw [← h.2.2, List.length_cons]
    · rename_i heq
      rw [heq, List.length_cons] at hs; omega
    · omega
  · rename_i after
    have hs := length_skipSpace after
    split at h
    · rename_i heq
      simp only [Except.ok.injEq, Prod.mk.injEq] at h
      rw [heq, List.length_cons] at hs
      rw [← h.2.2, List.length_cons]; omega
    · split at h
      · cases h
      · rename_i hr
        have := length_of_readKey hr
        simp only [Except.ok.injEq, Prod.mk.injEq] at h
        rw [← h.2.2, List.length_cons]; omega
  · split at h
    · cases h
    · rename_i hr
      have := length_of_readPlain hr
      simp only [Except.ok.injEq, Prod.mk.injEq] at h
      rw [← h.2.2]; omega

theorem length_of_stepAfter {d : Datum} {frame : Frame} {frames frames' : List Frame}
    {cs rest : List Char} {p : Phase} (h : stepAfter d frame frames cs = .ok (p, frames', rest)) :
    rest.length < cs.length := by
  unfold stepAfter at h
  split at h
  · simp_all
  · simp_all
  · simp_all
  · rename_i after
    have hs := length_skipSpace after
    split at h
    · cases h
    · rename_i hr
      have := length_of_readKey hr
      simp only [Except.ok.injEq, Prod.mk.injEq] at h
      rw [← h.2.2, List.length_cons]; omega
  · cases h

/-- One value from the front of a document, and what stands after it. -/
def run (phase : Phase) (frames : List Frame) (cs : List Char) : Read Datum :=
  match phase, frames with
  | .done d, [] => .ok (d, cs)
  | .done d, frame :: frames =>
    match h : stepAfter d frame frames (skipSpace cs) with
    | .error e => .error e
    | .ok (phase, frames, rest) =>
      have : rest.length < cs.length :=
        Nat.lt_of_lt_of_le (length_of_stepAfter h) (length_skipSpace cs)
      run phase frames rest
  | .value, frames =>
    match h : stepValue frames (skipSpace cs) with
    | .error e => .error e
    | .ok (phase, frames, rest) =>
      have : rest.length < cs.length :=
        Nat.lt_of_lt_of_le (length_of_stepValue h) (length_skipSpace cs)
      run phase frames rest
termination_by cs.length

/-- The one value of a document. -/
def readChars (cs : List Char) : Except Fault Datum :=
  if cs.head? = some '\ufeff' then .error ⟨.byteOrderMark, cs.length⟩
  else
    match run .value [] cs with
    | .error e => .error e
    | .ok (d, rest) =>
      match skipSpace rest with
      | [] => .ok d
      | rest => .error ⟨.extraData, rest.length⟩

/-! ## Faults in words -/

/-- A fault of a document with its place: the characters before it, its line and its column. -/
structure Error where
  cause : Cause
  offset : Nat
  line : Nat
  column : Nat
deriving DecidableEq, Repr

def Error.locate (cs : List Char) (e : Fault) : Error :=
  let before := cs.take (cs.length - e.left)
  { cause := e.cause
    offset := before.length
    line := before.count '\n' + 1
    column := (before.reverse.takeWhile (· != '\n')).length + 1 }

def Cause.words : Cause → String
  | .value => "Expecting value"
  | .propertyName => "Expecting property name enclosed in double quotes"
  | .colon => "Expecting ':' delimiter"
  | .comma => "Expecting ',' delimiter"
  | .unterminated => "Unterminated string starting at"
  | .control => "Invalid control character at"
  | .escape => "Invalid \\escape"
  | .unicodeEscape => "Invalid \\uXXXX escape"
  | .extraData => "Extra data"
  | .byteOrderMark => "Unexpected UTF-8 BOM (decode using utf-8-sig)"
  | .tooManyDigits digits =>
    s!"Exceeds the limit ({digitLimit} digits) for integer string conversion: " ++
      s!"value has {digits} digits; use sys.set_int_max_str_digits() to increase the limit"

/-- Too long a number is reported without its place. -/
def Error.message (e : Error) : String :=
  match e.cause with
  | .tooManyDigits _ => e.cause.words
  | _ => e.cause.words ++ s!": line {e.line} column {e.column} (char {e.offset})"

def read (s : String) : Except Error Datum :=
  match readChars s.toList with
  | .ok d => .ok d
  | .error e => .error (Error.locate s.toList e)

end IntentPlan.Json
