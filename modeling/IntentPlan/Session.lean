import IntentPlan.Files
import IntentPlan.Instant
import IntentPlan.Journal

/-! # Sessions

What a run takes from its surroundings and leaves there: the times and names that it is given one
after the other, the records it makes, the files it sees, and the text it prints.
-/

namespace IntentPlan

/-- Values that are handed out one after the other. -/
structure Supply (α : Type) where
  item : Nat → α
  used : Nat := 0

namespace Supply

variable {α : Type}

def next (s : Supply α) : α := s.item s.used

def rest (s : Supply α) : Supply α := { s with used := s.used + 1 }

def constant (a : α) : Supply α := { item := fun _ => a }

/-- The items of a list over and over. -/
def cycle (default : α) (items : List α) : Supply α :=
  { item := fun n => (items[n % items.length]?).getD default }

end Supply

structure Session where
  clock : Supply Instant
  ids : Supply String
  stopwatch : Supply Float
  journal : List Journal.Record := []
  files : Files := {}
  printed : String := ""

/-- A computation in a session.  What it changed before a failure stays changed. -/
abbrev Work (ε α : Type) := ExceptT ε (StateM Session) α

namespace Work

variable {ε ε' α β : Type}

/-- The outcome and the session after it. -/
def outcome (w : Work ε α) (s : Session) : Except ε α × Session := w.run.run s

def ofExcept (x : Except ε α) : Work ε α := ExceptT.mk (pure x)

/-- The outcome as a value, with a failure that can no longer happen. -/
def attempt (w : Work ε α) : Work ε' (Except ε α) :=
  ExceptT.mk (Except.ok <$> w.run)

def mapError (f : ε → ε') (w : Work ε α) : Work ε' α :=
  ExceptT.mk (Except.mapError f <$> w.run)

/-- Work that cannot fail is part of any work. -/
def lift (f : Session → α × Session) : Work ε α := ExceptT.mk fun s => ((.ok (f s).1), (f s).2)

def readClock : Work ε Instant :=
  lift fun s => (s.clock.next, { s with clock := s.clock.rest })

def freshId : Work ε String :=
  lift fun s => (s.ids.next, { s with ids := s.ids.rest })

def readStopwatch : Work ε Float :=
  lift fun s => (s.stopwatch.next, { s with stopwatch := s.stopwatch.rest })

def noteAll (records : List Journal.Record) : Work ε Unit :=
  lift fun s => ((), { s with journal := s.journal ++ records })

/-- Prints a line. -/
def print (line : String) : Work ε Unit :=
  lift fun s => ((), { s with printed := s.printed ++ line ++ "\n" })

def readFile (p : Path) : Work ReadFault String :=
  ExceptT.mk fun s => (s.files.readText p, s)

/-- Changes the files, or leaves them as they are. -/
def changeFiles (f : Files → Except FileFault Files) : Work FileFault Unit :=
  ExceptT.mk fun s =>
    match f s.files with
    | .ok files => (.ok (), { s with files })
    | .error e => (.error e, s)

end Work

end IntentPlan
