import IntentPlan.Proofs.Parsing

/-!
# Values end by themselves

A reading of a value looks at the token behind it only to see whether there is a comma or a closing
bracket, and at none behind the bracket that closes the value.  So it depends on the tokens of the
value alone: they can be read wherever they stand and whatever follows them (`read_eq_ok_iff`).  The
three readers of values differ in the first token only (`steps_value_of_steps_start`), so that no
value is the beginning of another one, whichever reader reads them (`Spells.eq_of_isPrefix`).
-/

namespace IntentPlan

/-! ## Cursors by their position -/

namespace Cursor

/-- The cursor at a position of some tokens. -/
def ofPosition (tokens : List Token) (p : Nat) : Cursor :=
  ⟨(tokens.take p).reverse, tokens.drop p⟩

theorem ofPosition_length_append (front back : List Token) :
    ofPosition (front ++ back) front.length = ⟨front.reverse, back⟩ := by
  rw [ofPosition, List.take_left, List.drop_left]

end Cursor

namespace Declaration

/-! ## Readers of values -/

/-- The readers of values: of any value, of bodies alone, and of arrays alone. -/
inductive Reader where
  | value
  | body
  | items

namespace Reader

def read : Reader → Cursor → Cursor.Reading Value
  | .value => readValue
  | .body => readBody
  | .items => readItems

def start : Reader → State
  | .value => .value []
  | .body => .openBody []
  | .items => .openItems []

theorem read_eq_run (r : Reader) (c : Cursor) : r.read c = run r.start c.taken c.rest := by
  cases r <;> rfl

theorem start_ne_done (r : Reader) (v : Value) : r.start ≠ .done v := by
  cases r <;> exact State.noConfusion

/-- The tokens are those of a value: it is read from them, and none is left. -/
def Spells (r : Reader) (tokens : List Token) (v : Value) : Prop :=
  r.read (.ofTokens tokens) = (.ok v, ⟨tokens.reverse, []⟩)

variable {r r' : Reader} {v w : Value}

theorem spells_iff {tokens : List Token} :
    r.Spells tokens v ↔ r.start.steps tokens = some (.done v) := by
  rw [Spells, read_eq_run, run_eq_ok_iff]
  constructor
  · rintro ⟨read, rest, htokens, hsteps, hcursor⟩
    obtain ⟨-, rfl⟩ := Cursor.mk.inj hcursor
    obtain rfl : tokens = read := by simpa [Cursor.ofTokens] using htokens
    exact hsteps
  · intro hsteps
    exact ⟨tokens, [], by simp [Cursor.ofTokens], hsteps, by simp [Cursor.ofTokens]⟩

theorem Spells.ne_nil {tokens : List Token} (h : r.Spells tokens v) : tokens ≠ [] := by
  obtain ⟨t, rest, -, rfl, -⟩ := exists_step r.start_ne_done (spells_iff.1 h)
  exact List.cons_ne_nil t rest

/-- A value is read exactly where its tokens stand, whatever is before and behind them. -/
theorem read_eq_ok_iff {c c' : Cursor} :
    r.read c = (.ok v, c') ↔ ∃ tokens rest, c.rest = tokens ++ rest ∧ r.Spells tokens v ∧
      c' = ⟨tokens.reverse ++ c.taken, rest⟩ := by
  simp only [read_eq_run, run_eq_ok_iff, spells_iff]

/-- What the special readers read is also read as a value of any kind. -/
theorem steps_value_of_steps_start {tokens : List Token}
    (h : r.start.steps tokens = some (.done v)) :
    (State.value []).steps tokens = some (.done v) := by
  obtain ⟨t, rest, next, rfl, hstep, hnext⟩ := exists_step r.start_ne_done h
  have hvalue : (State.value []).step t = some next := by
    cases r with
    | value => exact hstep
    | body =>
        obtain ⟨ht, rfl⟩ := State.step_openBody_iff.1 hstep
        exact State.step_value_iff.2 (.inr (.inl ⟨ht, rfl⟩))
    | items =>
        obtain ⟨ht, rfl⟩ := State.step_openItems_iff.1 hstep
        exact State.step_value_iff.2 (.inl ⟨ht, rfl⟩)
  rw [State.steps_cons_of_step hvalue]
  exact hnext

/-- No value is the beginning of another one. -/
theorem Spells.eq_of_isPrefix {ts us : List Token} (h : r.Spells ts v) (h' : r'.Spells us w)
    (hbegins : ts <+: us) : ts = us ∧ v = w := by
  obtain ⟨more, rfl⟩ := hbegins
  have hv := steps_value_of_steps_start (spells_iff.1 h)
  have hw := steps_value_of_steps_start (spells_iff.1 h')
  rw [State.steps_append, hv] at hw
  obtain ⟨rfl, hdone⟩ := State.steps_done hw
  exact ⟨(List.append_nil ts).symm, (State.done.inj hdone).symm⟩

/-- The tokens of a value that is read at a position stand between what comes before the position
and what the reading leaves. -/
theorem exists_of_read {tokens : List Token} {p : Nat} {c : Cursor}
    (h : r.read (.ofPosition tokens p) = (.ok v, c)) :
    ∃ front ts rest, tokens = front ++ (ts ++ rest) ∧ p = front.length ∧ r.Spells ts v ∧
      c = ⟨(front ++ ts).reverse, rest⟩ := by
  obtain ⟨ts, rest, hrest, hts, rfl⟩ := read_eq_ok_iff.1 h
  have hdrop : tokens.drop p = ts ++ rest := hrest
  -- a value has a first token, so the position is that of a token
  have hlt : p < tokens.length := by
    apply Nat.lt_of_not_le
    intro hle
    rw [List.drop_eq_nil_of_le hle] at hdrop
    exact hts.ne_nil (List.append_eq_nil_iff.1 hdrop.symm).1
  refine ⟨tokens.take p, ts, rest, ?_, ?_, hts, ?_⟩
  · rw [← hdrop, List.take_append_drop]
  · rw [List.length_take, Nat.min_eq_left (Nat.le_of_lt hlt)]
  · rw [List.reverse_append]
    rfl

/-- A value that is read between two positions is read from these tokens with any others behind
them, with the same result and up to the same position.  The tokens between the positions are those
of the value, and the tokens of a value are never the beginning of the tokens of another one. -/
theorem read_self_delimiting :
    (∀ (r : Reader) (tokens : List Token) (p : Nat) (v : Value) (c : Cursor),
      r.read (.ofPosition tokens p) = (.ok v, c) →
        r.Spells ((tokens.take c.position).drop p) v ∧
        ∀ more, ∃ c', r.read (.ofPosition (tokens.take c.position ++ more) p) = (.ok v, c') ∧
          c'.position = c.position ∧ c'.rest = more) ∧
    ∀ (r r' : Reader) (ts us : List Token) (v w : Value),
      r.Spells ts v → r'.Spells us w → ts <+: us → ts = us ∧ v = w := by
  constructor
  · intro r tokens p v c h
    obtain ⟨front, ts, rest, rfl, rfl, hts, rfl⟩ := exists_of_read h
    have htake : (front ++ (ts ++ rest)).take (Cursor.mk (front ++ ts).reverse rest).position =
        front ++ ts := by
      rw [Cursor.position, List.length_reverse, ← List.append_assoc, List.take_left]
    rw [htake, List.drop_left]
    refine ⟨hts, fun more => ⟨⟨(front ++ ts).reverse, more⟩, ?_, rfl, rfl⟩⟩
    rw [List.append_assoc, Cursor.ofPosition_length_append, read_eq_ok_iff]
    exact ⟨ts, more, rfl, hts, by rw [List.reverse_append]⟩
  · intro r r' ts us v w h h' hbegins
    exact h.eq_of_isPrefix h' hbegins

/-- The value behind a colon is an object with an array in it.  It ends with its own bracket, and
without that it is no value for any reader. -/
theorem read_self_delimiting_nested :
    let tokens : List Token := [
      ⟨.colon, ":", ⟨1, 2⟩⟩, ⟨.brace, "\x7b", ⟨1, 4⟩⟩, ⟨.keyword, "goal", ⟨1, 6⟩⟩,
      ⟨.colon, ":", ⟨1, 10⟩⟩, ⟨.array, "[", ⟨1, 12⟩⟩, ⟨.string, "b", ⟨1, 13⟩⟩,
      ⟨.comma, ",", ⟨1, 16⟩⟩, ⟨.array, "]", ⟨1, 17⟩⟩, ⟨.brace, "\x7d", ⟨1, 18⟩⟩,
      ⟨.comma, ",", ⟨1, 19⟩⟩]
    (∃ v, Reader.value.Spells ((tokens.take 9).drop 1) v ∧
      ∀ more, ∃ c, Reader.value.read (.ofPosition (tokens.take 9 ++ more) 1) = (.ok v, c) ∧
        c.position = 9 ∧ c.rest = more) ∧
    ∀ (r : Reader) (w : Value), ¬r.Spells ((tokens.take 8).drop 1) w := by
  intro tokens
  have hposition : (Reader.value.read (.ofPosition tokens 1)).2.position = 9 := by decide +kernel
  have hreads : (Reader.value.read (.ofPosition tokens 1)).1.toOption.isSome = true := by
    decide +kernel
  rcases hread : Reader.value.read (.ofPosition tokens 1) with ⟨result, c⟩
  rw [hread] at hposition hreads
  cases result with
  | error e => cases hreads
  | ok v =>
      have h := read_self_delimiting.1 .value tokens 1 v c hread
      rw [show c.position = 9 from hposition] at h
      refine ⟨⟨v, h⟩, fun r w hw => ?_⟩
      have heq := (read_self_delimiting.2 r .value _ _ w v hw h.1 ⟨[_], rfl⟩).1
      cases congrArg List.length heq

end Reader

end Declaration

end IntentPlan
