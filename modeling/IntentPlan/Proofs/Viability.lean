import IntentPlan.Proofs.Parsing

/-!
# Errors at the first token that cannot be right

Tokens are viable if they are the beginning of a declaration.  Whatever state the reader is in,
there are tokens that complete its value (`State.completes`), so that all it has taken so far is
viable; and a token that it does not take would not be viable, whatever came after it.  So the
reader stops at the first token that no declaration has at this place (`isBlocked_of_read_error`).
-/

namespace IntentPlan.Declaration

open Grammar (Lexeme OfKind)

/-! ## Completion -/

namespace State

/-- There are tokens that lead from here to a value. -/
def Completes (state : State) : Prop := ∃ more v, state.steps more = some (.done v)

theorem Completes.of_step {state next : State} {t : Token} (h : state.step t = some next)
    (hnext : next.Completes) : state.Completes := by
  obtain ⟨more, v, hmore⟩ := hnext
  exact ⟨t :: more, v, (steps_cons_of_step h more).trans hmore⟩

/-- A token with a kind and a text, at any place. -/
def mark (kind : Token.Kind) (text : String) : Token := ⟨kind, text, .start⟩

theorem step_afterEntry_close (fields : Assoc Value) (frames : List Frame) :
    step (.afterEntry fields frames) (mark .brace "\x7d") =
      some (complete (.body fields) frames) :=
  ((skipsComma_entry fields frames).other _ (by simp [mark])).trans
    (step_entry_iff.2 (.inl ⟨⟨rfl, rfl⟩, rfl⟩))

/-- All bodies around a value can be closed, from the innermost to the outermost. -/
theorem completes_complete (v : Value) (frames : List Frame) : (complete v frames).Completes := by
  induction frames generalizing v with
  | nil => exact ⟨[], v, rfl⟩
  | cons frame frames ih => exact .of_step (step_afterEntry_close _ frames) (ih _)

theorem completes_entry (fields : Assoc Value) (frames : List Frame) :
    (State.entry fields frames).Completes :=
  .of_step (t := mark .brace "\x7d") (step_entry_iff.2 (.inl ⟨⟨rfl, rfl⟩, rfl⟩))
    (completes_complete _ frames)

theorem completes_value (frames : List Frame) : (State.value frames).Completes :=
  .of_step (t := mark .string "") (step_value_iff.2 (.inr (.inr ⟨.inl rfl, rfl⟩)))
    (completes_complete _ frames)

theorem completes_item (texts : List String) (frames : List Frame) :
    (State.item texts frames).Completes :=
  .of_step (t := mark .array "]") (step_item_iff.2 (.inl ⟨⟨rfl, rfl⟩, rfl⟩))
    (completes_complete _ frames)

theorem completes (state : State) : state.Completes := by
  cases state with
  | openBody frames =>
      exact .of_step (t := mark .brace "\x7b") (step_openBody_iff.2 ⟨⟨rfl, rfl⟩, rfl⟩)
        (completes_entry [] frames)
  | entry fields frames => exact completes_entry fields frames
  | afterEntry fields frames =>
      exact .of_step (step_afterEntry_close fields frames) (completes_complete _ frames)
  | colon fields key frames =>
      exact .of_step (t := mark .colon ":") (step_colon_iff.2 ⟨rfl, rfl⟩) (completes_value _)
  | value frames => exact completes_value frames
  | openItems frames =>
      exact .of_step (t := mark .array "[") (step_openItems_iff.2 ⟨⟨rfl, rfl⟩, rfl⟩)
        (completes_item [] frames)
  | item texts frames => exact completes_item texts frames
  | afterItem texts frames =>
      exact .of_step (t := mark .comma ",") ((skipsComma_item texts frames).comma _ ⟨rfl, rfl⟩)
        (completes_item texts frames)
  | done v => exact ⟨[], v, rfl⟩

end State

/-! ## Viable tokens -/

/-- The tokens are the beginning of a declaration. -/
def Viable (tokens : List Token) : Prop := ∃ more d, ofTokens (tokens ++ more) = .ok d

/-- A declaration is a keyword, a name, and tokens that lead to a body. -/
theorem exists_ofTokens_iff {tokens : List Token} :
    (∃ d, ofTokens tokens = .ok d) ↔ ∃ (keyword : Lexeme .keyword "intent")
      (name : OfKind .identifier) (body : List Token) (v : Value),
        tokens = keyword.val :: name.val :: body ∧
        (State.openBody []).steps body = some (.done v) := by
  constructor
  · rintro ⟨d, hd⟩
    obtain ⟨⟨keyword, name, o⟩, rfl, -⟩ := ofTokens_eq_ok_iff.1 hd
    have hbody := steps_object o [] []
    rw [List.append_nil] at hbody
    exact ⟨keyword, name, o.tokens, _, rfl, hbody⟩
  · rintro ⟨keyword, name, body, v, rfl, hbody⟩
    obtain ⟨o, rest, rfl, hrest⟩ := exists_object hbody
    obtain ⟨rfl, -⟩ := State.steps_done hrest
    rw [List.append_nil]
    exact ⟨_, ofTokens_eq_ok_iff.2 ⟨⟨keyword, name, o⟩, rfl, rfl⟩⟩

/-- All tokens that the reader of a body has taken behind a keyword and a name are viable. -/
theorem viable_body (keyword : Lexeme .keyword "intent") (name : OfKind .identifier)
    {body : List Token} {state : State} (h : (State.openBody []).steps body = some state) :
    Viable (keyword.val :: name.val :: body) := by
  obtain ⟨more, v, hmore⟩ := state.completes
  refine ⟨more, exists_ofTokens_iff.2 ⟨keyword, name, body ++ more, v, rfl, ?_⟩⟩
  rw [State.steps_append, h]
  exact hmore

/-- A token that the reader of a body does not take cannot be continued. -/
theorem not_viable_body {keyword name t : Token} {body : List Token} {state : State}
    (h : (State.openBody []).steps body = some state) (hstep : state.step t = none) :
    ¬Viable (keyword :: name :: (body ++ [t])) := by
  rintro ⟨more, hmore⟩
  obtain ⟨keyword', name', body', v, heq, hbody⟩ := exists_ofTokens_iff.1 hmore
  obtain ⟨-, -, rfl⟩ : keyword = _ ∧ name = _ ∧ body ++ [t] ++ more = body' := by simpa using heq
  rw [List.append_assoc, State.steps_append, h, Option.bind_some, List.cons_append,
    State.steps_cons, hstep] at hbody
  cases hbody

theorem not_viable_keyword {t : Token} (h : ¬(t.kind = .keyword ∧ t.text = "intent")) :
    ¬Viable [t] := by
  rintro ⟨more, hmore⟩
  obtain ⟨keyword, name, body, v, heq, -⟩ := exists_ofTokens_iff.1 hmore
  exact h ((List.cons.inj heq).1 ▸ keyword.property)

theorem not_viable_name {keyword t : Token} (h : t.kind ≠ .identifier) :
    ¬Viable [keyword, t] := by
  rintro ⟨more, hmore⟩
  obtain ⟨keyword', name, body, v, heq, -⟩ := exists_ofTokens_iff.1 hmore
  exact h ((List.cons.inj (List.cons.inj heq).2).1 ▸ name.property)

theorem viable_nil : Viable [] := by
  obtain ⟨more, d, h⟩ := viable_body ⟨State.mark .keyword "intent", rfl, rfl⟩
    ⟨State.mark .identifier "", rfl⟩ (State.steps_nil _)
  exact ⟨_, d, h⟩

theorem viable_keyword (keyword : Lexeme .keyword "intent") : Viable [keyword.val] := by
  obtain ⟨more, d, h⟩ := viable_body keyword ⟨State.mark .identifier "", rfl⟩ (State.steps_nil _)
  exact ⟨_ :: more, d, h⟩

/-! ## Where readings stop -/

theorem expect_eq_error {kind : Token.Kind} {text : Option String} {c c' : Cursor}
    {e : ParseError} (h : c.expect kind text = (.error e, c')) :
    c' = c ∧ (∃ wanted, e = c.fail wanted) ∧
      ∀ t rest, c.rest = t :: rest → ¬(t.kind = kind ∧ ∀ x ∈ text, x = t.text) := by
  have hnot : ∀ t rest, c.rest = t :: rest → ¬(t.kind = kind ∧ ∀ x ∈ text, x = t.text) := by
    intro t rest hrest ht
    rw [expect_eq_ok_iff.2 ⟨rest, hrest, ht, rfl⟩] at h
    cases h
  simp only [Cursor.expect] at h
  split at h
  · cases h
    exact ⟨rfl, ⟨_, rfl⟩, hnot⟩
  · split at h
    · cases h
    · cases h
      exact ⟨rfl, ⟨_, rfl⟩, hnot⟩

/-- A run that fails has taken all tokens up to one that its state does not allow. -/
theorem run_eq_error {state : State} {taken tokens : List Token} {c : Cursor} {e : ParseError}
    (h : run state taken tokens = (.error e, c)) :
    ∃ read next, tokens = read ++ c.rest ∧ c.taken = read.reverse ++ taken ∧
      state.steps read = some next ∧ e = c.fail next.wanted ∧
      ∀ t rest, c.rest = t :: rest → next.step t = none := by
  induction tokens generalizing state taken with
  | nil =>
      by_cases hstate : ∃ w, state = .done w
      · obtain ⟨w, rfl⟩ := hstate
        rw [run_done] at h
        cases h
      · rw [run_nil (fun w hw => hstate ⟨w, hw⟩)] at h
        cases h
        exact ⟨[], state, rfl, rfl, rfl, rfl, nofun⟩
  | cons t tokens ih =>
      by_cases hstate : ∃ w, state = .done w
      · obtain ⟨w, rfl⟩ := hstate
        rw [run_done] at h
        cases h
      · cases hstep : state.step t with
        | none =>
            rw [run_of_step_none (fun w hw => hstate ⟨w, hw⟩) hstep] at h
            cases h
            refine ⟨[], state, rfl, rfl, rfl, rfl, ?_⟩
            rintro u rest ⟨rfl, rfl⟩
            exact hstep
        | some next =>
            rw [run_of_step hstep] at h
            obtain ⟨read, last, htokens, htaken, hread, he, hstop⟩ := ih h
            refine ⟨t :: read, last, congrArg (t :: ·) htokens, by simp [htaken], ?_, he, hstop⟩
            rw [State.steps_cons_of_step hstep]
            exact hread

/-- What was taken is viable, and it would not be with the next token. -/
structure IsBlocked (c : Cursor) : Prop where
  viable : Viable c.taken.reverse
  next : ∀ t rest, c.rest = t :: rest → ¬Viable (c.taken.reverse ++ [t])

/-- In a body the reader is blocked by what its state does not allow. -/
theorem isBlocked_of_steps (keyword : Lexeme .keyword "intent") (name : OfKind .identifier)
    {c : Cursor} {body : List Token} {state : State}
    (htaken : c.taken.reverse = keyword.val :: name.val :: body)
    (hbody : (State.openBody []).steps body = some state)
    (hstop : ∀ t rest, c.rest = t :: rest → state.step t = none) : IsBlocked c := by
  constructor
  · rw [htaken]
    exact viable_body keyword name hbody
  · intro t rest ht
    rw [htaken]
    exact not_viable_body hbody (hstop t rest ht)

/-- A reading that fails leaves the cursor where no declaration goes on with the next token, and
its error is the one at the cursor. -/
theorem isBlocked_of_read_error {tokens : List Token} {e : ParseError} {c : Cursor}
    (h : read (.ofTokens tokens) = (.error e, c)) :
    c.tokens = tokens ∧ (∃ wanted, e = c.fail wanted) ∧ IsBlocked c := by
  rw [read] at h
  split at h
  · rename_i hkeyword
    cases h
    obtain ⟨rfl, hfail, hnot⟩ := expect_eq_error hkeyword
    refine ⟨rfl, hfail, viable_nil, fun t rest hrest => not_viable_keyword fun ht => ?_⟩
    exact hnot t rest hrest ⟨ht.1, by simp [ht.2]⟩
  rename_i keyword _ hkeyword
  obtain ⟨rest₁, rfl, ⟨hkind, htext⟩, rfl⟩ := expect_eq_ok_iff.1 hkeyword
  obtain ⟨keyword, rfl⟩ : ∃ k : Lexeme .keyword "intent", k.val = keyword :=
    ⟨⟨keyword, hkind, (htext _ rfl).symm⟩, rfl⟩
  split at h
  · rename_i hname
    cases h
    obtain ⟨rfl, hfail, hnot⟩ := expect_eq_error hname
    refine ⟨rfl, hfail, viable_keyword keyword, fun t rest hrest => not_viable_name fun ht => ?_⟩
    exact hnot t rest hrest ⟨ht, by simp⟩
  rename_i name _ hname
  obtain ⟨rest₂, rfl, ⟨hidentifier, -⟩, rfl⟩ := expect_eq_ok_iff.1 hname
  obtain ⟨name, rfl⟩ : ∃ n : OfKind .identifier, n.val = name := ⟨⟨name, hidentifier⟩, rfl⟩
  split at h
  · rename_i hbody
    cases h
    obtain ⟨body, next, hrest, htaken, hsteps, he, hstop⟩ := run_eq_error hbody
    have hreverse : c.taken.reverse = keyword.val :: name.val :: body := by
      rw [htaken]
      simp [Cursor.ofTokens]
    refine ⟨?_, ⟨_, he⟩, isBlocked_of_steps keyword name hreverse hsteps hstop⟩
    rw [Cursor.tokens, hreverse, List.cons_append, List.cons_append, ← hrest]
  rename_i hbody
  split at h
  · cases h
  · cases h
    obtain ⟨body, rest, rfl, hsteps, rfl⟩ := run_eq_ok_iff.1 hbody
    -- a value is complete, and no token may follow it
    refine ⟨by simp [Cursor.tokens, Cursor.ofTokens], ⟨_, rfl⟩, ?_⟩
    exact isBlocked_of_steps keyword name (by simp [Cursor.ofTokens]) hsteps fun _ _ _ => rfl

/-- The error of a reading that fails stands at the first token that cannot be right.  If there is a
token at the cursor, the error has its place, no tokens that go on from it are a declaration, and
some that go on from the tokens before it are one.  If there is none, the error has the place behind
the last token, and the tokens are the beginning of a declaration, but not one themselves. -/
theorem parse_error_viable_prefix {tokens : List Token} {s : Session} {e : ParseError}
    (h : ((parse tokens).outcome s).1 = .error e) :
    ∃ c, read (.ofTokens tokens) = (.error e, c) ∧ c.position ≤ tokens.length ∧
      (∀ hlt : c.position < tokens.length,
        e.pos = tokens[c.position].pos ∧
        (∀ more d, ((parse (tokens.take (c.position + 1) ++ more)).outcome s).1 ≠ .ok d) ∧
        ∃ more d, ((parse (tokens.take c.position ++ more)).outcome s).1 = .ok d) ∧
      (c.position = tokens.length →
        e.pos = (Cursor.ofTokens tokens).endPosition ∧
        ∃ more d, more ≠ [] ∧ ((parse (tokens ++ more)).outcome s).1 = .ok d) := by
  simp only [outcome_parse_fst] at h ⊢
  rcases hread : read (.ofTokens tokens) with ⟨result, c⟩
  obtain rfl : result = .error e := by rw [← h, ofTokens, hread]
  obtain ⟨htokens, ⟨wanted, rfl⟩, hviable, hnext⟩ := isBlocked_of_read_error hread
  obtain ⟨taken, rest⟩ := c
  obtain rfl : taken.reverse ++ rest = tokens := htokens
  have hposition : (Cursor.mk taken rest).position = taken.reverse.length :=
    List.length_reverse.symm
  refine ⟨_, rfl, ?_⟩
  simp only [hposition]
  obtain ⟨more, d, hmore⟩ := hviable
  cases rest with
  | nil =>
      refine ⟨by simp, fun hlt => absurd hlt (by simp), fun _ => ⟨rfl, more, d, ?_, ?_⟩⟩
      · rintro rfl
        rw [hmore] at h
        cases h
      · rw [List.append_nil]
        exact hmore
  | cons t rest =>
      refine ⟨by simp, fun _ => ⟨?_, ?_, more, d, ?_⟩, fun hend => absurd hend (by simp)⟩
      · simp [Cursor.fail, Cursor.peek]
      · rw [List.take_length_add_append]
        exact fun more' d' hd => hnext t rest rfl ⟨more', d', hd⟩
      · rw [List.take_left]
        exact hmore

/-- In an array that is two levels deep a comma comes before the first text. -/
theorem parse_error_viable_prefix_comma :
    let tokens : List Token := [
      ⟨.keyword, "intent", ⟨1, 1⟩⟩, ⟨.identifier, "relay", ⟨1, 8⟩⟩, ⟨.brace, "\x7b", ⟨1, 14⟩⟩,
      ⟨.identifier, "a", ⟨2, 3⟩⟩, ⟨.colon, ":", ⟨2, 4⟩⟩, ⟨.brace, "\x7b", ⟨2, 6⟩⟩,
      ⟨.keyword, "goal", ⟨2, 8⟩⟩, ⟨.colon, ":", ⟨2, 12⟩⟩, ⟨.array, "[", ⟨2, 14⟩⟩,
      ⟨.comma, ",", ⟨2, 15⟩⟩, ⟨.string, "b", ⟨2, 17⟩⟩]
    ∀ s, ∃ e, ((parse tokens).outcome s).1 = .error e ∧ e.pos = ⟨2, 15⟩ ∧
      (∀ more d, ((parse (tokens.take 10 ++ more)).outcome s).1 ≠ .ok d) ∧
      ∃ more d, ((parse (tokens.take 9 ++ more)).outcome s).1 = .ok d := by
  intro tokens s
  have hposition : (read (.ofTokens tokens)).2.position = 9 := by decide +kernel
  have hfails : (read (.ofTokens tokens)).1.toOption.isNone = true := by decide +kernel
  cases hresult : ((parse tokens).outcome s).1 with
  | ok d =>
      rw [outcome_parse_fst, ofTokens] at hresult
      rw [hresult] at hfails
      cases hfails
  | error e =>
      obtain ⟨c, hread, -, hstop, -⟩ := parse_error_viable_prefix hresult
      rw [hread] at hposition
      simp only [hposition] at hstop
      obtain ⟨hpos, hblocked, hviable⟩ := hstop (by decide)
      exact ⟨e, rfl, hpos, hblocked, hviable⟩

end IntentPlan.Declaration
