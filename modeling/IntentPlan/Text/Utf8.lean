/-! # Strict decoding of UTF-8 -/

namespace IntentPlan.Text

/-- Why bytes are not a text. -/
inductive Utf8Cause where
  | badStart
  | badContinuation
  | cutShort
deriving DecidableEq, Repr

/-- The place of the first bytes that are not a text: where they start, the first of them, and how
many of them belong together. -/
structure Utf8Fault where
  start : Nat
  first : UInt8
  length : Nat
  cause : Utf8Cause
deriving DecidableEq, Repr

/-- The second bytes that may follow a first byte, and how many further bytes there are. -/
def utf8Shape (b : UInt8) : Option (Nat × UInt8 × UInt8) :=
  if 0xC2 ≤ b && b ≤ 0xDF then some (0, 0x80, 0xBF)
  else if b == 0xE0 then some (1, 0xA0, 0xBF)
  else if b == 0xED then some (1, 0x80, 0x9F)
  else if 0xE1 ≤ b && b ≤ 0xEF then some (1, 0x80, 0xBF)
  else if b == 0xF0 then some (2, 0x90, 0xBF)
  else if 0xF1 ≤ b && b ≤ 0xF3 then some (2, 0x80, 0xBF)
  else if b == 0xF4 then some (2, 0x80, 0x8F)
  else none

/-- The bits that a first byte of a longer sequence contributes. -/
def utf8Lead (more : Nat) (b : UInt8) : Nat :=
  match more with
  | 0 => b.toNat % 0x20
  | 1 => b.toNat % 0x10
  | _ => b.toNat % 0x08

/-- The character that `more` continuation bytes complete, and how many bytes were good so far. -/
def utf8Tail (value : Nat) (good : Nat) : (more : Nat) → List UInt8 →
    Except (Nat × Utf8Cause) (Nat × List UInt8)
  | 0, bytes => .ok (value, bytes)
  | _ + 1, [] => .error (good, .cutShort)
  | more + 1, b :: bytes =>
    if 0x80 ≤ b && b ≤ 0xBF then utf8Tail (value * 0x40 + b.toNat % 0x40) (good + 1) more bytes
    else .error (good, .badContinuation)

theorem length_of_utf8Tail {value good more : Nat} {bytes rest : List UInt8} {n : Nat}
    (h : utf8Tail value good more bytes = .ok (n, rest)) : rest.length ≤ bytes.length := by
  induction more generalizing value good bytes with
  | zero => simp only [utf8Tail, Except.ok.injEq, Prod.mk.injEq] at h; simp [h.2]
  | succ more ih =>
    cases bytes with
    | nil => simp [utf8Tail] at h
    | cons b bytes =>
      simp only [utf8Tail] at h
      split at h
      · exact Nat.le_succ_of_le (ih h)
      · cases h

/-- The first character of a sequence of bytes. -/
def utf8Char (b : UInt8) (bytes : List UInt8) :
    Except (Nat × Utf8Cause) (Char × { rest : List UInt8 // rest.length ≤ bytes.length }) :=
  if b < 0x80 then .ok (Char.ofNat b.toNat, ⟨bytes, Nat.le_refl _⟩)
  else match utf8Shape b with
    | none => .error (1, .badStart)
    | some (more, low, high) =>
      match bytes with
      | [] => .error (1, .cutShort)
      | second :: after =>
        if low ≤ second && second ≤ high then
          match h : utf8Tail (utf8Lead more b * 0x40 + second.toNat % 0x40) 2 more after with
          | .ok (n, rest) =>
            .ok (Char.ofNat n, ⟨rest, Nat.le_succ_of_le (length_of_utf8Tail h)⟩)
          | .error e => .error e
        else .error (1, .badContinuation)

/-- The text that bytes spell, the first of which stands at `start`. -/
def decodeUtf8From (start : Nat) (bytes : List UInt8) : Except Utf8Fault (List Char) :=
  match bytes with
  | [] => .ok []
  | b :: after =>
    match utf8Char b after with
    | .error (length, cause) => .error ⟨start, b, length, cause⟩
    | .ok (c, ⟨rest, _⟩) =>
      (decodeUtf8From (start + c.utf8Size) rest).map (c :: ·)
termination_by bytes.length

def decodeUtf8 (bytes : ByteArray) : Except Utf8Fault String :=
  (decodeUtf8From 0 bytes.toList).map String.ofList

end IntentPlan.Text
