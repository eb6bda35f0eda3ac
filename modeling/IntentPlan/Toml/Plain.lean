import IntentPlan.Decimal.Reader
import IntentPlan.Toml
import IntentPlan.Toml.Fault

/-! # Numbers, dates and times of a manifest -/

namespace IntentPlan.Toml

/-! ## Numbers -/

/-- Digits, with at most one underscore between any two of them, and what follows. -/
def splitDigits (isDigit : Char → Bool) : List Char → List Char × List Char
  | [] => ([], [])
  | ['_'] => ([], ['_'])
  | '_' :: c :: rest =>
    if isDigit c then
      let (digits, after) := splitDigits isDigit rest
      (c :: digits, after)
    else ([], '_' :: c :: rest)
  | c :: rest =>
    if isDigit c then
      let (digits, after) := splitDigits isDigit rest
      (c :: digits, after)
    else ([], c :: rest)

/-- Digits of which the first has no underscore before it. -/
def splitNumeral? (isDigit : Char → Bool) (cs : List Char) : Option (List Char × List Char) :=
  match cs with
  | c :: _ => if isDigit c then some (splitDigits isDigit cs) else none
  | [] => none

def isHexDigit (c : Char) : Bool :=
  c.isDigit || ('a' ≤ c && c ≤ 'f') || ('A' ≤ c && c ≤ 'F')

/-- The digits of other bases, by the letter behind a zero. -/
def baseDigit? : Char → Option (Char → Bool)
  | 'x' => some isHexDigit
  | 'b' => some fun c => c = '0' || c = '1'
  | 'o' => some fun c => '0' ≤ c && c ≤ '7'
  | _ => none

/-- What follows a number of another base, if there is one. -/
def afterBased? : List Char → Option (List Char)
  | '0' :: letter :: rest => do
    let isDigit ← baseDigit? letter
    let (_, rest) ← splitNumeral? isDigit rest
    return rest
  | _ => none

/-- The digits of a whole number, of which the first is a zero only if it is the only one. -/
def splitWhole? : List Char → Option (List Char × List Char)
  | '0' :: rest => some (['0'], rest)
  | cs => splitNumeral? Char.isDigit cs

/-- What follows a point with digits behind it, or all. -/
def skipPlaces : List Char → List Char
  | '.' :: rest =>
    match splitNumeral? Char.isDigit rest with
    | some (_, after) => after
    | none => '.' :: rest
  | cs => cs

/-- What follows an exponent, or all. -/
def skipExponent (cs : List Char) : List Char :=
  match cs with
  | mark :: rest =>
    if mark = 'e' || mark = 'E' then
      match splitNumeral? Char.isDigit (Decimal.splitSign rest).2 with
      | some (_, after) => after
      | none => cs
    else cs
  | [] => []

/-- The kind of the number at the front, and what follows it. -/
def splitNumber? (cs : List Char) : Option (Except Fault (PlainKind × List Char)) :=
  match afterBased? cs with
  | some rest => some (.ok (.whole, rest))
  | none => do
    let (digits, rest) ← splitWhole? (Decimal.splitSign cs).2
    let after := skipExponent (skipPlaces rest)
    if after.length < rest.length then return .ok (.real, after)
    else if Decimal.digitLimit < digits.length then
      return .error ⟨.tooManyDigits digits.length, cs.length⟩
    else return .ok (.whole, rest)

/-! ## Dates and times -/

/-- A number of just `count` digits. -/
def splitFixed? (count : Nat) (cs : List Char) : Option (Nat × List Char) :=
  let digits := cs.take count
  if digits.length = count && digits.all Char.isDigit then
    some (Decimal.digitsValue digits, cs.drop count)
  else none

/-- A number of two digits from `low` to `high`. -/
def splitPair? (low high : Nat) (cs : List Char) : Option (Nat × List Char) := do
  let (n, rest) ← splitFixed? 2 cs
  if low ≤ n && n ≤ high then return (n, rest) else none

/-- What follows a character that has to stand at the front. -/
def after? (c : Char) : List Char → Option (List Char)
  | d :: rest => if d = c then some rest else none
  | [] => none

structure Date where
  year : Nat
  month : Nat
  day : Nat
deriving DecidableEq, Repr

def isLeapYear (year : Nat) : Bool :=
  year % 4 = 0 && (year % 100 != 0 || year % 400 = 0)

def daysInMonth (year month : Nat) : Nat :=
  if month = 2 then (if isLeapYear year then 29 else 28)
  else if [4, 6, 9, 11].contains month then 30
  else 31

/-- Years count from one, and no month has more days than it has. -/
def Date.exists (d : Date) : Bool := 1 ≤ d.year && d.day ≤ daysInMonth d.year d.month

def splitDate? (cs : List Char) : Option (Date × List Char) := do
  let (year, rest) ← splitFixed? 4 cs
  let (month, rest) ← splitPair? 1 12 (← after? '-' rest)
  let (day, rest) ← splitPair? 1 31 (← after? '-' rest)
  return (⟨year, month, day⟩, rest)

/-- What follows a time of day, which may have a part of a second. -/
def afterTime? (cs : List Char) : Option (List Char) := do
  let (_, rest) ← splitPair? 0 23 cs
  let (_, rest) ← splitPair? 0 59 (← after? ':' rest)
  let (_, rest) ← splitPair? 0 59 (← after? ':' rest)
  match rest with
  | '.' :: c :: more => return if c.isDigit then more.dropWhile Char.isDigit else rest
  | _ => return rest

/-- What follows a distance from the time of the meridian, or all. -/
def skipOffset (cs : List Char) : List Char :=
  match cs with
  | c :: rest =>
    if c = 'Z' || c = 'z' then rest
    else if c = '+' || c = '-' then
      (do
        let (_, rest) ← splitPair? 0 23 rest
        let (_, rest) ← splitPair? 0 59 (← after? ':' rest)
        return rest : Option (List Char)).getD cs
    else cs
  | [] => []

/-- The kind of what a date begins, and what follows it. -/
def splitFromDate (cs : List Char) : PlainKind × List Char :=
  match cs with
  | mark :: rest =>
    if mark = 'T' || mark = 't' || mark = ' ' then
      match afterTime? rest with
      | some after => (.dateTime, skipOffset after)
      | none => (.date, cs)
    else (.date, cs)
  | [] => (.date, [])

/-! ## All kinds -/

/-- The words that stand for a truth value or a number without digits. -/
def words : List (List Char × PlainKind) :=
  [("true".toList, .truth), ("false".toList, .truth)]

def numberWords : List (List Char × PlainKind) :=
  ["inf", "nan", "-inf", "+inf", "-nan", "+nan"].map fun s => (s.toList, .real)

def splitWord? (words : List (List Char × PlainKind)) (cs : List Char) :
    Option (PlainKind × List Char) :=
  (words.find? fun w => w.1.isPrefixOf cs).map fun w => (w.2, cs.drop w.1.length)

/-- The kind of the value at the front, and what follows it.  A date comes before a time, and both
before a number. -/
def splitPlain (cs : List Char) : Except Fault (PlainKind × List Char) :=
  match splitWord? words cs with
  | some found => .ok found
  | none =>
    match splitDate? cs with
    | some (date, rest) =>
      if date.exists then .ok (splitFromDate rest) else .error ⟨.date, cs.length⟩
    | none =>
      match afterTime? cs with
      | some rest => .ok (.time, rest)
      | none =>
        match splitNumber? cs with
        | some found => found
        | none =>
          match splitWord? numberWords cs with
          | some found => .ok found
          | none => .error ⟨.value, cs.length⟩

def readPlain (cs : List Char) : Except Fault (Value × List Char) :=
  (splitPlain cs).map fun (kind, rest) =>
    (.plain kind (String.ofList (cs.take (cs.length - rest.length))), rest)

end IntentPlan.Toml
