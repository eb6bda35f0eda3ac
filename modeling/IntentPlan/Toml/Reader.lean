import IntentPlan.Toml.Nest
import IntentPlan.Toml.Plain
import IntentPlan.Toml.Quote

/-! # Reading manifests -/

namespace IntentPlan.Toml

/-- Passes over blanks, line breaks and comments. -/
def skipFiller (comment : Bool) : List Char → Except Fault (List Char)
  | [] => .ok []
  | c :: rest =>
    if c = '\n' then skipFiller false rest
    else if comment then
      if isIllegal c then .error ⟨.invalid c, rest.length + 1⟩ else skipFiller true rest
    else if isGap c then skipFiller false rest
    else if c = '#' then skipFiller true rest
    else .ok (c :: rest)

/-- A table on one line as far as it was read, and what in it cannot be changed. -/
structure Inline where
  table : Table := []
  marks : Marks := {}

/-- Puts a value into a table on one line. -/
def Inline.put (t : Inline) (key : Key) (v : Value) (left : Nat) : Except Fault Inline :=
  if t.marks.isFrozen key.path then .error ⟨.immutable key.path, left⟩
  else
    match changeAt false (putNew key.stem v) key.parents t.table with
    | .ok table => .ok { table, marks := t.marks.freezeContainer key.path v }
    | .error .noTable => .error ⟨.overwritten, left⟩
    | .error .taken => .error ⟨.duplicate key.stem, left⟩

/-! Every step into a value and from one item to the next takes one from the first argument, and
there are never more such steps than characters. -/

mutual

def readValue : Nat → List Char → Except Fault (Value × List Char)
  | 0, cs => .error ⟨.value, cs.length⟩
  | steps + 1, cs =>
    match cs with
    | '"' :: rest => (readText '"' rest).map fun (s, rest) => (.text s, rest)
    | '\'' :: rest => (readText '\'' rest).map fun (s, rest) => (.text s, rest)
    | '[' :: rest => (readItems steps rest).map fun (items, rest) => (.list items, rest)
    | '\x7b' :: rest =>
      match skipGap rest with
      | '\x7d' :: rest => .ok (.table [], rest)
      | rest => (readPairs steps {} rest).map fun (t, rest) => (.table t, rest)
    | cs => readPlain cs

/-- The items of a list up to its end. -/
def readItems : Nat → List Char → Except Fault (List Value × List Char)
  | 0, cs => .error ⟨.value, cs.length⟩
  | steps + 1, cs => do
    match ← skipFiller false cs with
    | ']' :: rest => return ([], rest)
    | cs =>
      let (v, rest) ← readValue steps cs
      match ← skipFiller false rest with
      | ']' :: rest => return ([v], rest)
      | ',' :: rest =>
        let (items, rest) ← readItems steps rest
        return (v :: items, rest)
      | rest => .error ⟨.array, rest.length⟩

/-- The pairs of a table on one line up to its end. -/
def readPairs : Nat → Inline → List Char → Except Fault (Table × List Char)
  | 0, _, cs => .error ⟨.value, cs.length⟩
  | steps + 1, t, cs => do
    let (key, v, rest) ← readPair steps cs
    let t ← t.put key v rest.length
    match skipGap rest with
    | '\x7d' :: rest => return (t.table, rest)
    | ',' :: rest => readPairs steps t (skipGap rest)
    | rest => .error ⟨.inlineTable, rest.length⟩

/-- A key, an equals sign and a value. -/
def readPair : Nat → List Char → Except Fault (Key × Value × List Char)
  | 0, cs => .error ⟨.value, cs.length⟩
  | steps + 1, cs => do
    let (key, rest) ← readKey cs
    match rest with
    | '=' :: rest =>
      let (v, rest) ← readValue steps (skipGap rest)
      return (key, v, rest)
    | rest => .error ⟨.equals, rest.length⟩

end

/-- A document as far as it was read, and the path of the table that new pairs go into. -/
structure State where
  table : Table := []
  marks : Marks := {}
  heading : List String := []

namespace State

/-- The beginnings of a key that are tables, each below the heading. -/
def tablesOf (heading : List String) : List String → List (List String)
  | [] => []
  | name :: rest => (heading ++ [name]) :: tablesOf (heading ++ [name]) rest

def put (s : State) (key : Key) (v : Value) (left : Nat) : Except Fault State :=
  let tables := tablesOf s.heading key.parents
  let parent := s.heading ++ key.parents
  match tables.find? s.marks.isDeclared with
  | some path => .error ⟨.redefined path, left⟩
  | none =>
    if s.marks.isFrozen parent then .error ⟨.immutable parent, left⟩
    else
      match changeAt true (putNew key.stem v) parent s.table with
      | .error _ => .error ⟨.overwritten, left⟩
      | .ok table =>
        let marks := { s.marks with pending := tables ++ s.marks.pending }
        .ok { s with table, marks := marks.freezeContainer (s.heading ++ key.path) v }

/-- Opens a table. -/
def openTable (s : State) (path : List String) (left : Nat) : Except Fault State :=
  let marks := s.marks.settle
  if marks.isDeclared path || marks.isFrozen path then .error ⟨.declaredTwice path, left⟩
  else
    match changeAt true .ok path s.table with
    | .error _ => .error ⟨.overwritten, left⟩
    | .ok table => .ok { table, marks := marks.declare path, heading := path }

/-- Opens one more table of a list. -/
def openItem (s : State) (key : Key) (left : Nat) : Except Fault State :=
  let marks := s.marks.settle
  if marks.isFrozen key.path then .error ⟨.immutable key.path, left⟩
  else
    match changeAt true (putLast key.stem) key.parents s.table with
    | .error _ => .error ⟨.overwritten, left⟩
    | .ok table =>
      .ok { table, marks := (marks.free key.path).declare key.path, heading := key.path }

end State

/-- The statement that a character begins, with the blanks behind it. -/
def readStatement (s : State) (c : Char) (rest : List Char) : Except Fault (State × List Char) := do
  if startsKey c then
    let cs := c :: rest
    let (key, v, rest) ← readPair (2 * cs.length + 2) cs
    return (← s.put key v rest.length, skipGap rest)
  else if c = '[' then
    match rest with
    | '[' :: rest =>
      let (key, rest) ← readKey (skipGap rest)
      let s ← s.openItem key rest.length
      match rest with
      | ']' :: ']' :: rest => return (s, skipGap rest)
      | rest => .error ⟨.arrayEnd, rest.length⟩
    | rest =>
      let (key, rest) ← readKey (skipGap rest)
      let s ← s.openTable key.path rest.length
      match rest with
      | ']' :: rest => return (s, skipGap rest)
      | rest => .error ⟨.tableEnd, rest.length⟩
  else if c = '#' then return (s, c :: rest)
  else .error ⟨.statement, rest.length + 1⟩

/-- Passes over a comment, up to the end of its line. -/
def skipComment (cs : List Char) : Except Fault (List Char) :=
  match cs with
  | '#' :: rest =>
    match (rest.takeWhile (· != '\n')).find? isIllegal with
    | some c => .error ⟨.invalid c, (rest.dropWhile fun c => !isIllegal c).length⟩
    | none => .ok (rest.dropWhile (· != '\n'))
  | cs => .ok cs

/-- Reads statements, at most as many as the first argument says. -/
def readStatements : Nat → State → List Char → Except Fault Table
  | 0, _, cs => .error ⟨.statement, cs.length⟩
  | count + 1, s, cs =>
    match skipGap cs with
    | [] => .ok s.table
    | '\n' :: rest => readStatements count s rest
    | c :: rest => do
      let (s, rest) ← readStatement s c rest
      match ← skipComment rest with
      | [] => return s.table
      | '\n' :: rest => readStatements count s rest
      | rest => .error ⟨.afterStatement, rest.length⟩

/-- A line break may be one character or two. -/
def unifyPairs : List Char → List Char
  | '\r' :: '\n' :: rest => '\n' :: unifyPairs rest
  | c :: rest => c :: unifyPairs rest
  | [] => []

def read (s : String) : Except Error Table :=
  let cs := unifyPairs s.toList
  (readStatements (cs.length + 1) {} cs).mapError (·.inDocument cs)

end IntentPlan.Toml
