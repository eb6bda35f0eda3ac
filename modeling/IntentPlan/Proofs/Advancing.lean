import IntentPlan.Proofs.Viability

/-!
# A reader of tokens that is used again and again

All that a reader of tokens can do is asked of one cursor, in any order, and what comes next goes on
from where the last operation left the cursor, also if it failed in the middle of a value.  A
reading moves over tokens and changes none of them, takes at least one if it succeeds, and if it
fails its error is the one at the place where it stopped (`Proceeds`).  Readings that are made of
others pass this on (`Proceeds.trans`), and so does a whole run (`reaches_of_mem_trace`,
`pairwise_trace`).
-/

namespace IntentPlan.Cursor

variable {α β : Type} {c c₁ c₂ : Cursor}

/-! ## Moving over tokens -/

/-- The second cursor stands behind some more of the same tokens. -/
def Reaches (c c' : Cursor) : Prop :=
  ∃ read, c.rest = read ++ c'.rest ∧ c'.taken = read.reverse ++ c.taken

namespace Reaches

theorem refl (c : Cursor) : c.Reaches c := ⟨[], rfl, rfl⟩

theorem trans (h : c.Reaches c₁) (h' : c₁.Reaches c₂) : c.Reaches c₂ := by
  obtain ⟨read, hrest, htaken⟩ := h
  obtain ⟨more, hrest', htaken'⟩ := h'
  refine ⟨read ++ more, ?_, ?_⟩
  · rw [hrest, hrest', List.append_assoc]
  · rw [htaken', htaken, List.reverse_append, List.append_assoc]

theorem tokens_eq (h : c.Reaches c₁) : c₁.tokens = c.tokens := by
  obtain ⟨read, hrest, htaken⟩ := h
  rw [tokens, tokens, htaken, hrest, List.reverse_append, List.reverse_reverse, List.append_assoc]

theorem position_le (h : c.Reaches c₁) : c.position ≤ c₁.position := by
  obtain ⟨read, -, htaken⟩ := h
  rw [position, position, htaken, List.length_append]
  exact Nat.le_add_left _ _

end Reaches

theorem reaches_cons {t : Token} {taken rest : List Token} :
    Reaches ⟨taken, t :: rest⟩ ⟨t :: taken, rest⟩ := ⟨[t], rfl, rfl⟩

theorem position_le_length (c : Cursor) : c.position ≤ c.tokens.length := by
  rw [position, tokens, List.length_append, List.length_reverse]
  exact Nat.le_add_right _ _

/-- The next token is the one at the position of the cursor. -/
theorem peek_eq_getElem? (c : Cursor) : c.peek = c.tokens[c.position]? := by
  rw [peek, tokens, position, ← List.length_reverse, List.getElem?_append_right (Nat.le_refl _),
    Nat.sub_self, List.head?_eq_getElem?]

/-! ## Readings -/

def Reading.map (f : α → β) (r : Reading α) : Reading β := (r.1.map f, r.2)

/-- A reading that started at a cursor, by what it did to the cursor. -/
structure Proceeds (c : Cursor) (r : Reading α) : Prop where
  reaches : c.Reaches r.2
  advances : ∀ a, r.1 = .ok a → c.position < r.2.position
  fails : ∀ e, r.1 = .error e → ∃ wanted, e = r.2.fail wanted

namespace Proceeds

theorem of_ok (h : c.Reaches c₁) (hlt : c.position < c₁.position) (a : α) :
    Proceeds c ((.ok a, c₁) : Reading α) := by
  constructor
  · exact h
  · exact fun _ _ => hlt
  · intro e he
    cases he

theorem of_fail (h : c.Reaches c₁) (wanted : Wanted) :
    Proceeds c ((.error (c₁.fail wanted), c₁) : Reading α) := by
  constructor
  · exact h
  · intro a ha
    cases ha
  · rintro e ⟨⟩
    exact ⟨wanted, rfl⟩

theorem fail_cast {e : ParseError} (h : Proceeds c ((.error e, c₁) : Reading α)) :
    Proceeds c ((.error e, c₁) : Reading β) := by
  obtain ⟨wanted, rfl⟩ : ∃ wanted, e = c₁.fail wanted := h.fails e rfl
  exact of_fail h.reaches wanted

/-- A reading that goes on from where another one succeeded. -/
theorem trans {a : α} (h : Proceeds c ((.ok a, c₁) : Reading α)) {r : Reading β}
    (h' : Proceeds c₁ r) : Proceeds c r := by
  constructor
  · exact h.reaches.trans h'.reaches
  · intro b hb
    exact Nat.lt_trans (h.advances a rfl) (h'.advances b hb)
  · exact h'.fails

theorem map (f : α → β) {r : Reading α} (h : Proceeds c r) : Proceeds c (r.map f) := by
  obtain ⟨result, c'⟩ := r
  cases result with
  | ok a => exact of_ok h.reaches (h.advances a rfl) (f a)
  | error e => exact h.fail_cast

end Proceeds

theorem proceeds_consume (c : Cursor) : Proceeds c c.consume := by
  obtain ⟨taken, rest⟩ := c
  cases rest with
  | nil => exact .of_fail (.refl _) _
  | cons t rest => exact .of_ok reaches_cons (Nat.lt_succ_self _) t

theorem proceeds_expect (kind : Token.Kind) (text : Option String) (c : Cursor) :
    Proceeds c (c.expect kind text) := by
  rcases hresult : c.expect kind text with ⟨result, c'⟩
  cases result with
  | ok t =>
      obtain ⟨taken, rest⟩ := c
      obtain ⟨rest, rfl, -, rfl⟩ := Declaration.expect_eq_ok_iff.1 hresult
      exact .of_ok reaches_cons (Nat.lt_succ_self _) t
  | error e =>
      obtain ⟨rfl, ⟨wanted, rfl⟩, -⟩ := Declaration.expect_eq_error hresult
      exact .of_fail (.refl _) wanted

end IntentPlan.Cursor

namespace IntentPlan.Declaration

open Cursor (Proceeds)

/-- A run of a state that waits for something takes a token before it is done. -/
theorem proceeds_run {state : State} (hstate : ∀ v, state ≠ .done v) (c : Cursor) :
    Proceeds c (run state c.taken c.rest) := by
  rcases hrun : run state c.taken c.rest with ⟨result, c'⟩
  cases result with
  | ok v =>
      obtain ⟨read, rest, hrest, hsteps, rfl⟩ := run_eq_ok_iff.1 hrun
      refine .of_ok ⟨read, hrest, rfl⟩ ?_ v
      obtain ⟨t, more, -, rfl, -⟩ := exists_step hstate hsteps
      rw [Cursor.position, Cursor.position, List.length_append, List.length_reverse,
        List.length_cons]
      omega
  | error e =>
      obtain ⟨read, next, hrest, htaken, -, rfl, -⟩ := run_eq_error hrun
      exact .of_fail ⟨read, hrest, htaken⟩ _

theorem proceeds_readValue (c : Cursor) : Proceeds c (readValue c) :=
  proceeds_run (fun _ => State.noConfusion) c

theorem proceeds_readBody (c : Cursor) : Proceeds c (readBody c) :=
  proceeds_run (fun _ => State.noConfusion) c

theorem proceeds_readItems (c : Cursor) : Proceeds c (readItems c) :=
  proceeds_run (fun _ => State.noConfusion) c

theorem proceeds_read (c : Cursor) : Proceeds c (read c) := by
  -- three readings, each from where the one before it stopped, and a look at what is left
  have hkeyword := Cursor.proceeds_expect .keyword (some "intent") c
  rw [read]
  split
  · rename_i heq
    rw [heq] at hkeyword
    exact hkeyword.fail_cast
  rename_i keyword c₁ heq
  rw [heq] at hkeyword
  have hname := hkeyword.trans (Cursor.proceeds_expect .identifier none c₁)
  split
  · rename_i heq
    rw [heq] at hname
    exact hname.fail_cast
  rename_i name c₂ heq
  rw [heq] at hname
  have hbody := hname.trans (proceeds_readBody c₂)
  split
  · rename_i heq
    rw [heq] at hbody
    exact hbody.fail_cast
  rename_i body c₃ heq
  rw [heq] at hbody
  split
  · exact .of_ok hbody.reaches (hbody.advances body rfl) _
  · exact .of_fail hbody.reaches _

end IntentPlan.Declaration

namespace IntentPlan.Cursor

/-! ## Operations and runs -/

/-- What can be asked of a reader of tokens. -/
inductive Operation where
  | peek
  | consume
  | expect (kind : Token.Kind) (text : Option String)
  | isAt (kind : Token.Kind) (text : String)
  | endPosition
  | read
  | readBody
  | readValue
  | readItems

/-- What an operation gives if it does not fail. -/
inductive Answer where
  | next (t : Option Token)
  | token (t : Token)
  | flag (b : Bool)
  | place (p : Position)
  | declaration (d : Declaration)
  | value (v : Declaration.Value)

namespace Operation

/-- The answer to an operation, and the cursor after it. -/
def perform : Operation → Cursor → Reading Answer
  | .peek, c => (.ok (.next c.peek), c)
  | .consume, c => c.consume.map .token
  | .expect kind text, c => (c.expect kind text).map .token
  | .isAt kind text, c => (.ok (.flag (c.isAt kind text)), c)
  | .endPosition, c => (.ok (.place c.endPosition), c)
  | .read, c => (Declaration.read c).map .declaration
  | .readBody, c => (Declaration.readBody c).map .value
  | .readValue, c => (Declaration.readValue c).map .value
  | .readItems, c => (Declaration.readItems c).map .value

/-- The operations that only look at the tokens. -/
def looks : Operation → Bool
  | .peek | .isAt _ _ | .endPosition => true
  | _ => false

/-- The operations that take one token. -/
def takesOne : Operation → Bool
  | .consume | .expect _ _ => true
  | _ => false

variable {op : Operation}

theorem perform_of_looks (h : op.looks = true) (c : Cursor) :
    ∃ a, op.perform c = (.ok a, c) := by
  cases op with
  | peek => exact ⟨_, rfl⟩
  | isAt kind text => exact ⟨_, rfl⟩
  | endPosition => exact ⟨_, rfl⟩
  | _ => cases h

theorem proceeds_perform (h : op.looks = false) (c : Cursor) : Proceeds c (op.perform c) := by
  cases op with
  | peek => cases h
  | isAt kind text => cases h
  | endPosition => cases h
  | consume => exact (proceeds_consume c).map Answer.token
  | expect kind text => exact (proceeds_expect kind text c).map Answer.token
  | read => exact (Declaration.proceeds_read c).map Answer.declaration
  | readBody => exact (Declaration.proceeds_readBody c).map Answer.value
  | readValue => exact (Declaration.proceeds_readValue c).map Answer.value
  | readItems => exact (Declaration.proceeds_readItems c).map Answer.value

/-- Where one token is refused, the cursor stays in front of it. -/
theorem eq_of_takesOne (h : op.takesOne = true) {c c' : Cursor} {e : ParseError}
    (herror : op.perform c = (.error e, c')) : c' = c := by
  cases op with
  | consume =>
      obtain ⟨taken, rest⟩ := c
      cases rest with
      | nil =>
          cases herror
          rfl
      | cons t rest => cases herror
  | expect kind text =>
      rcases hresult : c.expect kind text with ⟨result, c₁⟩
      rw [perform, hresult] at herror
      cases result with
      | ok t => cases herror
      | error e' =>
          cases herror
          exact (Declaration.expect_eq_error hresult).1
  | _ => cases h

theorem reaches_perform (op : Operation) (c : Cursor) : c.Reaches (op.perform c).2 := by
  cases h : op.looks with
  | true =>
      obtain ⟨a, ha⟩ := perform_of_looks h c
      rw [ha]
      exact .refl c
  | false => exact (proceeds_perform h c).reaches

end Operation

/-- One operation of a run: where it began, what it gave, and where it left the cursor. -/
structure Event where
  op : Operation
  before : Cursor
  result : Except ParseError Answer
  after : Cursor

/-- Operations one after the other.  Each of them begins where the last one left the cursor, whether
that one failed or not. -/
def trace (c : Cursor) : List Operation → List Event
  | [] => []
  | op :: ops => ⟨op, c, (op.perform c).1, (op.perform c).2⟩ :: trace (op.perform c).2 ops

theorem map_op_trace (c : Cursor) (ops : List Operation) : (trace c ops).map Event.op = ops := by
  induction ops generalizing c with
  | nil => rfl
  | cons op ops ih => rw [trace, List.map_cons, ih]

theorem reaches_of_mem_trace {ops : List Operation} {e : Event} (he : e ∈ trace c ops) :
    c.Reaches e.before ∧ e.op.perform e.before = (e.result, e.after) := by
  induction ops generalizing c with
  | nil => cases he
  | cons op ops ih =>
      rcases List.mem_cons.1 he with rfl | he
      · exact ⟨.refl c, rfl⟩
      · obtain ⟨hreaches, hperform⟩ := ih he
        exact ⟨(op.reaches_perform c).trans hreaches, hperform⟩

theorem pairwise_trace (c : Cursor) (ops : List Operation) :
    (trace c ops).Pairwise fun e e' => e.after.Reaches e'.before := by
  induction ops generalizing c with
  | nil => exact .nil
  | cons op ops ih =>
      apply List.Pairwise.cons
      · exact fun e' he' => (reaches_of_mem_trace he').1
      · exact ih (op.perform c).2

/-- What holds of each operation of a run over some tokens. -/
structure Event.Sound (tokens : List Token) (e : Event) : Prop where
  tokens_eq : e.after.tokens = tokens
  position_le : e.after.position ≤ tokens.length
  peek_eq : e.after.peek = tokens[e.after.position]?
  forward : e.before.position ≤ e.after.position
  looking : e.op.looks = true → e.after = e.before
  refused : e.op.takesOne = true → ∀ error, e.result = .error error → e.after = e.before
  advanced : e.op.looks = false → ∀ a, e.result = .ok a → e.before.position < e.after.position
  place : ∀ error, e.result = .error error →
    error.pos = e.after.peek.elim e.after.endPosition Token.pos

theorem pos_fail (c : Cursor) (wanted : Wanted) :
    (c.fail wanted).pos = c.peek.elim c.endPosition Token.pos := by
  rw [fail]
  cases c.peek <;> rfl

theorem sound_of_perform {tokens : List Token} {e : Event} (hbefore : e.before.tokens = tokens)
    (hperform : e.op.perform e.before = (e.result, e.after)) : e.Sound tokens := by
  have hreaches := e.op.reaches_perform e.before
  rw [hperform] at hreaches
  have htokens : e.after.tokens = tokens := hreaches.tokens_eq.trans hbefore
  have hlooking (h : e.op.looks = true) : ∃ a, (e.result, e.after) = (.ok a, e.before) := by
    rw [← hperform]
    exact Operation.perform_of_looks h e.before
  have hproceeds (h : e.op.looks = false) : Proceeds e.before (e.result, e.after) := by
    rw [← hperform]
    exact Operation.proceeds_perform h e.before
  constructor
  · exact htokens
  · rw [← htokens]
    exact e.after.position_le_length
  · rw [← htokens]
    exact e.after.peek_eq_getElem?
  · exact hreaches.position_le
  · intro h
    obtain ⟨a, ha⟩ := hlooking h
    exact congrArg Prod.snd ha
  · intro h error herror
    rw [herror] at hperform
    exact Operation.eq_of_takesOne h hperform
  · exact fun h => (hproceeds h).advances
  · intro error herror
    cases h : e.op.looks with
    | true =>
        obtain ⟨a, ha⟩ := hlooking h
        rw [herror] at ha
        cases ha
    | false =>
        obtain ⟨wanted, rfl⟩ := (hproceeds h).fails error herror
        exact e.after.pos_fail wanted

/-- Whatever is asked of a reader, in any order and also after failures: the tokens stay as they
are, the cursor stays among them and never goes back, looking does not move it and neither does one
token that is refused, every other success moves it on, and an error has the place of the next token
or, behind the last one, the place where the tokens end. -/
theorem trace_sound (tokens : List Token) (ops : List Operation) :
    (trace (.ofTokens tokens) ops).map Event.op = ops ∧
    (∀ e ∈ trace (.ofTokens tokens) ops, e.Sound tokens) ∧
    (trace (.ofTokens tokens) ops).Pairwise fun e e' => e.after.position ≤ e'.before.position := by
  refine ⟨map_op_trace _ ops, ?_, ?_⟩
  · intro e he
    obtain ⟨hreaches, hperform⟩ := reaches_of_mem_trace he
    exact sound_of_perform hreaches.tokens_eq hperform
  · apply (pairwise_trace _ ops).imp
    exact fun h => h.position_le

/-- A declaration fails at a comma in an array.  What is left is then read piece by piece: the
comma, the text behind it as a value, and no brace where the array is closed. -/
theorem trace_sound_resumed :
    let tokens : List Token := [
      ⟨.keyword, "intent", ⟨1, 1⟩⟩, ⟨.identifier, "relay", ⟨1, 8⟩⟩, ⟨.brace, "\x7b", ⟨1, 14⟩⟩,
      ⟨.identifier, "a", ⟨2, 3⟩⟩, ⟨.colon, ":", ⟨2, 4⟩⟩, ⟨.array, "[", ⟨2, 6⟩⟩,
      ⟨.comma, ",", ⟨2, 7⟩⟩, ⟨.string, "b", ⟨2, 9⟩⟩, ⟨.array, "]", ⟨2, 12⟩⟩]
    let ops : List Operation :=
      [.read, .peek, .consume, .readValue, .expect .brace (some "\x7d"), .endPosition]
    (trace (.ofTokens tokens) ops).map (fun e => (e.result.toOption.isSome, e.after.position)) =
      [(false, 6), (true, 6), (true, 7), (true, 8), (false, 8), (true, 8)] ∧
    ∃ e ∈ trace (.ofTokens tokens) ops, e.after.position = 6 ∧ e.Sound tokens := by
  intro tokens ops
  refine ⟨by decide +kernel, _, List.mem_cons_self, by decide +kernel, ?_⟩
  exact (trace_sound tokens ops).2.1 _ List.mem_cons_self

end IntentPlan.Cursor
