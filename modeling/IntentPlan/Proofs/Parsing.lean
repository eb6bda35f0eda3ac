import IntentPlan.Proofs.Assoc
import IntentPlan.Proofs.Grammar
import IntentPlan.Proofs.Outcome

/-!
# The reader accepts exactly the grammar

The machine of `IntentPlan/Declaration/Machine.lean` takes one token at a time.  What it does to a
sequence of tokens is `State.steps`, and a reading succeeds exactly if the steps lead to a value
(`run_eq_ok_iff`).  Two things are then shown about `State.steps`:

* a tree is read as its meaning, whatever is open around it (`steps_value`, by induction on trees);
* what leads to a value starts with a tree (`exists_value`, by induction on the number of tokens).

Both keep the frames around the current value arbitrary, since the machine has pushed one for every
body it is in.
-/

namespace IntentPlan.Declaration

open Grammar (Lexeme OfKind Key Comma NoComma)

/-! ## Steps -/

namespace State

/-- The state after some tokens, if all of them may stand here. -/
def steps (state : State) (tokens : List Token) : Option State := tokens.foldlM step state

@[simp] theorem steps_nil (state : State) : state.steps [] = some state := rfl

@[simp] theorem steps_cons (state : State) (t : Token) (tokens : List Token) :
    state.steps (t :: tokens) = (state.step t).bind fun next => next.steps tokens := rfl

theorem steps_append (state : State) (ts us : List Token) :
    state.steps (ts ++ us) = (state.steps ts).bind fun next => next.steps us := by
  rw [steps, List.foldlM_append]
  rfl

/-- A token that may stand here is taken, and the rest goes on from the next state. -/
theorem steps_cons_of_step {state next : State} {t : Token} (h : state.step t = some next)
    (tokens : List Token) : state.steps (t :: tokens) = next.steps tokens := by
  rw [steps_cons, h, Option.bind_some]

/-- No token may follow a complete value. -/
theorem steps_done {v : Value} {tokens : List Token} {state : State}
    (h : (State.done v).steps tokens = some state) : tokens = [] ∧ state = .done v := by
  cases tokens with
  | nil => exact ⟨rfl, (Option.some.inj h).symm⟩
  | cons t tokens => exact absurd h (by simp [step])

/-! ## What a token may do, state by state -/

variable {fields : Assoc Value} {frames : List Frame} {texts : List String} {key : String}
  {t : Token} {next : State}

theorem step_openBody_iff : step (.openBody frames) t = some next ↔
    (t.kind = .brace ∧ t.text = "\x7b") ∧ next = .entry [] frames := by
  simp only [step]
  grind

theorem step_entry_iff : step (.entry fields frames) t = some next ↔
    (t.kind = .brace ∧ t.text = "\x7d") ∧ next = complete (.body fields) frames ∨
    (t.kind = .identifier ∨ t.kind = .keyword) ∧ next = .colon fields t.text frames := by
  simp only [step, stepEntry]
  grind

theorem step_colon_iff : step (.colon fields key frames) t = some next ↔
    t.kind = .colon ∧ next = .value (⟨fields, key⟩ :: frames) := by
  simp only [step]
  grind

theorem step_value_iff : step (.value frames) t = some next ↔
    (t.kind = .array ∧ t.text = "[") ∧ next = .item [] frames ∨
    (t.kind = .brace ∧ t.text = "\x7b") ∧ next = .entry [] frames ∨
    (t.kind = .string ∨ t.kind = .identifier) ∧ next = complete (.text t.text) frames := by
  simp only [step]
  grind

theorem step_openItems_iff : step (.openItems frames) t = some next ↔
    (t.kind = .array ∧ t.text = "[") ∧ next = .item [] frames := by
  simp only [step]
  grind

theorem step_item_iff : step (.item texts frames) t = some next ↔
    (t.kind = .array ∧ t.text = "]") ∧ next = complete (.items texts) frames ∨
    t.kind = .string ∧ next = .afterItem (texts ++ [t.text]) frames := by
  simp only [step, stepItem]
  grind

/-! ## Optional commas -/

/-- One state is as another one, except that a comma may come first. -/
structure SkipsComma (after before : State) : Prop where
  unfinished : ∀ v, after ≠ .done v
  comma : ∀ t : Token, t.kind = .comma ∧ t.text = "," → after.step t = some before
  other : ∀ t : Token, ¬(t.kind = .comma ∧ t.text = ",") → after.step t = before.step t

theorem skipsComma_entry (fields : Assoc Value) (frames : List Frame) :
    SkipsComma (.afterEntry fields frames) (.entry fields frames) where
  unfinished _ := State.noConfusion
  comma t h := by simp [step, h]
  other t h := by simp [step, h]

theorem skipsComma_item (texts : List String) (frames : List Frame) :
    SkipsComma (.afterItem texts frames) (.item texts frames) where
  unfinished _ := State.noConfusion
  comma t h := by simp [step, h]
  other t h := by simp [step, h]

/-- A comma makes no difference in front of what is none. -/
theorem SkipsComma.steps_append {after before : State} (h : SkipsComma after before) (c : Comma)
    {tokens : List Token} (htokens : NoComma tokens) :
    after.steps (c.tokens ++ tokens) = before.steps tokens := by
  cases c with
  | none =>
      obtain ⟨t, rest, rfl, ht⟩ := htokens
      change after.steps (t :: rest) = _
      rw [steps_cons, steps_cons, h.other t (fun hc => ht hc.1)]
  | some c => exact steps_cons_of_step (h.comma c.val c.property) tokens

/-- What leads to a value after an optional comma does so without it. -/
theorem SkipsComma.exists_comma {after before : State} (h : SkipsComma after before)
    {tokens : List Token} {v : Value} (hv : after.steps tokens = some (.done v)) :
    ∃ (c : Comma) (rest : List Token), tokens = c.tokens ++ rest ∧
      before.steps rest = some (.done v) := by
  cases tokens with
  | nil => exact absurd (Option.some.inj hv) (h.unfinished v)
  | cons t rest =>
      by_cases ht : t.kind = .comma ∧ t.text = ","
      · rw [steps_cons_of_step (h.comma t ht)] at hv
        exact ⟨some ⟨t, ht⟩, rest, rfl, hv⟩
      · refine ⟨none, t :: rest, rfl, ?_⟩
        rw [steps_cons, ← h.other t ht]
        exact hv

end State

open State (complete steps_nil steps_cons steps_cons_of_step step_openBody_iff step_entry_iff
  step_colon_iff step_value_iff step_item_iff skipsComma_entry skipsComma_item)

/-! ## Trees are read as their meaning -/

theorem steps_items (items : List Grammar.Item) (closing : Lexeme .array "]")
    (texts : List String) (frames : List Frame) (rest : List Token) :
    (State.item texts frames).steps (items.flatMap Grammar.Item.tokens ++ closing.val :: rest) =
      (complete (.items (texts ++ items.map fun i => i.text.val.text)) frames).steps rest := by
  induction items generalizing texts with
  | nil =>
      rw [List.map_nil, List.append_nil]
      exact steps_cons_of_step (step_item_iff.2 (.inl ⟨closing.property, rfl⟩)) rest
  | cons item items ih =>
      rw [List.flatMap_cons, Grammar.Item.tokens, List.cons_append, List.cons_append,
        List.append_assoc, steps_cons_of_step (step_item_iff.2 (.inr ⟨item.text.property, rfl⟩)),
        (skipsComma_item _ frames).steps_append item.comma
          (Grammar.noComma_items items closing rest), ih]
      simp

theorem steps_array (a : Grammar.Array) (frames : List Frame) (rest : List Token) :
    (State.value frames).steps (a.tokens ++ rest) =
      (complete (.items a.texts) frames).steps rest := by
  rw [Grammar.Array.tokens, List.cons_append, List.append_assoc,
    steps_cons_of_step (step_value_iff.2 (.inl ⟨a.opening.property, rfl⟩))]
  exact steps_items a.items a.closing [] frames rest

mutual

theorem steps_value (v : Grammar.Value) (frames : List Frame) (rest : List Token) :
    (State.value frames).steps (v.tokens ++ rest) = (complete v.meaning frames).steps rest := by
  match v with
  | .array a =>
      rw [Grammar.Value.tokens, Grammar.Value.meaning]
      exact steps_array a frames rest
  | .object (.mk opening entries closing) =>
      rw [Grammar.Value.tokens, Grammar.Value.meaning, Grammar.Object.tokens, Grammar.Object.fields,
        List.cons_append, List.append_assoc,
        steps_cons_of_step (step_value_iff.2 (.inr (.inl ⟨opening.property, rfl⟩)))]
      exact steps_entries entries closing [] frames rest
  | .string t =>
      rw [Grammar.Value.tokens, Grammar.Value.meaning]
      exact steps_cons_of_step (step_value_iff.2 (.inr (.inr ⟨.inl t.property, rfl⟩))) rest
  | .identifier t =>
      rw [Grammar.Value.tokens, Grammar.Value.meaning]
      exact steps_cons_of_step (step_value_iff.2 (.inr (.inr ⟨.inr t.property, rfl⟩))) rest

/-- The entries of a body are written onto the fields that were read before them. -/
theorem steps_entries (entries : Grammar.Entries) (closing : Lexeme .brace "\x7d")
    (fields : Assoc Value) (frames : List Frame) (rest : List Token) :
    (State.entry fields frames).steps (entries.tokens ++ closing.val :: rest) =
      (complete (.body (Assoc.putAll fields entries.pairs)) frames).steps rest := by
  match entries with
  | .nil =>
      rw [Grammar.Entries.tokens, Grammar.Entries.pairs]
      exact steps_cons_of_step (step_entry_iff.2 (.inl ⟨closing.property, rfl⟩)) rest
  | .cons key colon value comma entries =>
      rw [Grammar.Entries.tokens, Grammar.Entries.pairs, Assoc.putAll_cons, List.cons_append,
        List.cons_append, List.append_assoc, List.append_assoc,
        steps_cons_of_step (step_entry_iff.2 (.inr ⟨key.property, rfl⟩)),
        steps_cons_of_step (step_colon_iff.2 ⟨colon.property, rfl⟩), steps_value value]
      change (State.afterEntry _ frames).steps _ = _
      rw [(skipsComma_entry _ frames).steps_append comma
        (Grammar.noComma_entries entries closing rest)]
      exact steps_entries entries closing _ frames rest

end

theorem steps_object (o : Grammar.Object) (frames : List Frame) (rest : List Token) :
    (State.openBody frames).steps (o.tokens ++ rest) =
      (complete (.body o.fields) frames).steps rest := by
  obtain ⟨opening, entries, closing⟩ := o
  rw [Grammar.Object.tokens, Grammar.Object.fields, List.cons_append, List.append_assoc,
    steps_cons_of_step (step_openBody_iff.2 ⟨opening.property, rfl⟩)]
  exact steps_entries entries closing [] frames rest

/-! ## What leads to a value starts with a tree

The frames grow with every body that is opened, so the induction is on the number of tokens. -/

/-- A state that waits for something has taken a token before it is done. -/
theorem exists_step {state : State} {tokens : List Token} {v : Value}
    (hstate : ∀ w, state ≠ .done w) (h : state.steps tokens = some (.done v)) :
    ∃ t rest next, tokens = t :: rest ∧ state.step t = some next ∧
      next.steps rest = some (.done v) := by
  cases tokens with
  | nil => exact absurd (Option.some.inj h) (hstate v)
  | cons t rest =>
      obtain ⟨next, hstep, hnext⟩ := Option.bind_eq_some_iff.1 h
      exact ⟨t, rest, next, rfl, hstep, hnext⟩

theorem exists_items {texts : List String} {frames : List Frame} {tokens : List Token} {v : Value}
    (h : (State.item texts frames).steps tokens = some (.done v)) :
    ∃ (items : List Grammar.Item) (closing : Lexeme .array "]") (rest : List Token),
      tokens = items.flatMap Grammar.Item.tokens ++ closing.val :: rest ∧
      (complete (.items (texts ++ items.map fun i => i.text.val.text)) frames).steps rest =
        some (.done v) := by
  obtain ⟨t, more, next, rfl, hstep, hnext⟩ := exists_step (fun _ => State.noConfusion) h
  rcases step_item_iff.1 hstep with ⟨ht, rfl⟩ | ⟨ht, rfl⟩
  · exact ⟨[], ⟨t, ht⟩, more, rfl, by simpa using hnext⟩
  · obtain ⟨comma, rest, rfl, hrest⟩ := (skipsComma_item _ frames).exists_comma hnext
    obtain ⟨items, closing, rest, rfl, hclosing⟩ := exists_items hrest
    refine ⟨⟨⟨t, ht⟩, comma⟩ :: items, closing, rest, ?_, by simpa using hclosing⟩
    simp [Grammar.Item.tokens]
termination_by tokens.length
decreasing_by
  subst_vars
  simp only [List.length_cons, List.length_append]
  omega

mutual

theorem exists_value {frames : List Frame} {tokens : List Token} {v : Value}
    (h : (State.value frames).steps tokens = some (.done v)) :
    ∃ (u : Grammar.Value) (rest : List Token), tokens = u.tokens ++ rest ∧
      (complete u.meaning frames).steps rest = some (.done v) := by
  obtain ⟨t, more, next, rfl, hstep, hnext⟩ := exists_step (fun _ => State.noConfusion) h
  rcases step_value_iff.1 hstep with ⟨ht, rfl⟩ | ⟨ht, rfl⟩ | ⟨ht, rfl⟩
  · obtain ⟨items, closing, rest, rfl, hrest⟩ := exists_items hnext
    refine ⟨.array ⟨⟨t, ht⟩, items, closing⟩, rest, ?_, ?_⟩
    · simp [Grammar.Value.tokens, Grammar.Array.tokens]
    · simpa [Grammar.Value.meaning, Grammar.Array.texts] using hrest
  · obtain ⟨entries, closing, rest, rfl, hrest⟩ := exists_entries hnext
    refine ⟨.object (.mk ⟨t, ht⟩ entries closing), rest, ?_, ?_⟩
    · simp [Grammar.Value.tokens, Grammar.Object.tokens]
    · simpa [Grammar.Value.meaning, Grammar.Object.fields, Assoc.ofList] using hrest
  · rcases ht with ht | ht
    · refine ⟨.string ⟨t, ht⟩, more, ?_, ?_⟩
      · simp [Grammar.Value.tokens]
      · simpa [Grammar.Value.meaning] using hnext
    · refine ⟨.identifier ⟨t, ht⟩, more, ?_, ?_⟩
      · simp [Grammar.Value.tokens]
      · simpa [Grammar.Value.meaning] using hnext
termination_by tokens.length
decreasing_by
  subst_vars
  simp only [List.length_cons]
  omega

theorem exists_entries {fields : Assoc Value} {frames : List Frame} {tokens : List Token}
    {v : Value} (h : (State.entry fields frames).steps tokens = some (.done v)) :
    ∃ (entries : Grammar.Entries) (closing : Lexeme .brace "\x7d") (rest : List Token),
      tokens = entries.tokens ++ closing.val :: rest ∧
      (complete (.body (Assoc.putAll fields entries.pairs)) frames).steps rest =
        some (.done v) := by
  obtain ⟨t, more, next, rfl, hstep, hnext⟩ := exists_step (fun _ => State.noConfusion) h
  rcases step_entry_iff.1 hstep with ⟨ht, rfl⟩ | ⟨ht, rfl⟩
  · refine ⟨.nil, ⟨t, ht⟩, more, ?_, ?_⟩
    · simp [Grammar.Entries.tokens]
    · simpa [Grammar.Entries.pairs] using hnext
  · obtain ⟨c, more, next, rfl, hstep, hnext⟩ := exists_step (fun _ => State.noConfusion) hnext
    obtain ⟨hc, rfl⟩ := step_colon_iff.1 hstep
    obtain ⟨u, more, rfl, hu⟩ := exists_value hnext
    obtain ⟨comma, more, rfl, hcomma⟩ := (skipsComma_entry _ frames).exists_comma hu
    obtain ⟨entries, closing, rest, rfl, hrest⟩ := exists_entries hcomma
    refine ⟨.cons ⟨t, ht⟩ ⟨c, hc⟩ u comma entries, closing, rest, ?_, ?_⟩
    · simp [Grammar.Entries.tokens]
    · simpa [Grammar.Entries.pairs] using hrest
termination_by tokens.length
decreasing_by
  all_goals
    subst_vars
    simp only [List.length_cons, List.length_append]
    omega

end

theorem exists_object {frames : List Frame} {tokens : List Token} {v : Value}
    (h : (State.openBody frames).steps tokens = some (.done v)) :
    ∃ (o : Grammar.Object) (rest : List Token), tokens = o.tokens ++ rest ∧
      (complete (.body o.fields) frames).steps rest = some (.done v) := by
  obtain ⟨t, more, next, rfl, hstep, hnext⟩ := exists_step (fun _ => State.noConfusion) h
  obtain ⟨ht, rfl⟩ := step_openBody_iff.1 hstep
  obtain ⟨entries, closing, rest, rfl, hrest⟩ := exists_entries hnext
  refine ⟨.mk ⟨t, ht⟩ entries closing, rest, ?_, ?_⟩
  · simp [Grammar.Object.tokens]
  · simpa [Grammar.Object.fields, Assoc.ofList] using hrest

/-! ## Readings -/

@[simp] theorem run_done (v : Value) (taken rest : List Token) :
    run (.done v) taken rest = (.ok v, ⟨taken, rest⟩) := by
  cases rest <;> rfl

theorem run_of_step {state next : State} {t : Token} (h : state.step t = some next)
    (taken rest : List Token) : run state taken (t :: rest) = run next (t :: taken) rest := by
  cases state with
  | done v => cases h
  | _ => simp only [run, h]

theorem run_nil {state : State} (hstate : ∀ v, state ≠ .done v) (taken : List Token) :
    run state taken [] = (.error ((Cursor.mk taken []).fail state.wanted), ⟨taken, []⟩) := by
  cases state with
  | done v => exact absurd rfl (hstate v)
  | _ => rfl

theorem run_of_step_none {state : State} (hstate : ∀ v, state ≠ .done v) {t : Token}
    (h : state.step t = none) (taken rest : List Token) :
    run state taken (t :: rest) =
      (.error ((Cursor.mk taken (t :: rest)).fail state.wanted), ⟨taken, t :: rest⟩) := by
  cases state with
  | done v => exact absurd rfl (hstate v)
  | _ => simp only [run, h]

/-- Tokens that lead to a value are read, and whatever follows them is left alone. -/
theorem run_of_steps {state : State} {tokens : List Token} {v : Value}
    (h : state.steps tokens = some (.done v)) (taken rest : List Token) :
    run state taken (tokens ++ rest) = (.ok v, ⟨tokens.reverse ++ taken, rest⟩) := by
  induction tokens generalizing state taken with
  | nil =>
      obtain rfl : state = .done v := Option.some.inj h
      exact run_done v taken rest
  | cons t tokens ih =>
      obtain ⟨next, hstep, hnext⟩ := Option.bind_eq_some_iff.1 h
      rw [List.cons_append, run_of_step hstep, ih hnext]
      simp

theorem run_eq_ok_iff {state : State} {taken tokens : List Token} {v : Value} {c : Cursor} :
    run state taken tokens = (.ok v, c) ↔ ∃ read rest, tokens = read ++ rest ∧
      state.steps read = some (.done v) ∧ c = ⟨read.reverse ++ taken, rest⟩ := by
  constructor
  · intro h
    induction tokens generalizing state taken with
    | nil =>
        by_cases hstate : ∃ w, state = .done w
        · obtain ⟨w, rfl⟩ := hstate
          obtain ⟨rfl, rfl⟩ : w = v ∧ _ = c := by simpa using h
          exact ⟨[], [], rfl, rfl, rfl⟩
        · rw [run_nil (fun w hw => hstate ⟨w, hw⟩)] at h
          cases h
    | cons t tokens ih =>
        by_cases hstate : ∃ w, state = .done w
        · obtain ⟨w, rfl⟩ := hstate
          obtain ⟨rfl, rfl⟩ : w = v ∧ _ = c := by simpa using h
          exact ⟨[], t :: tokens, rfl, rfl, rfl⟩
        · cases hstep : state.step t with
          | none =>
              rw [run_of_step_none (fun w hw => hstate ⟨w, hw⟩) hstep] at h
              cases h
          | some next =>
              rw [run_of_step hstep] at h
              obtain ⟨read, rest, rfl, hread, rfl⟩ := ih h
              refine ⟨t :: read, rest, rfl, ?_, by simp⟩
              rw [steps_cons_of_step hstep]
              exact hread
  · rintro ⟨read, rest, rfl, hread, rfl⟩
    exact run_of_steps hread taken rest

/-- A body is read exactly where the tokens start with an object. -/
theorem readBody_eq_ok_iff {c c' : Cursor} {v : Value} :
    readBody c = (.ok v, c') ↔ ∃ o : Grammar.Object, ∃ rest, c.rest = o.tokens ++ rest ∧
      v = .body o.fields ∧ c' = ⟨o.tokens.reverse ++ c.taken, rest⟩ := by
  rw [readBody, run_eq_ok_iff]
  constructor
  · rintro ⟨read, rest, hrest, hread, rfl⟩
    obtain ⟨o, more, rfl, hmore⟩ := exists_object hread
    obtain ⟨rfl, hv⟩ := State.steps_done hmore
    rw [List.append_nil] at hrest ⊢
    exact ⟨o, rest, hrest, State.done.inj hv, rfl⟩
  · rintro ⟨o, rest, hrest, rfl, rfl⟩
    refine ⟨o.tokens, rest, hrest, ?_, rfl⟩
    have h := steps_object o [] []
    rw [List.append_nil] at h
    exact h

theorem expect_eq_ok_iff {kind : Token.Kind} {text : Option String} {c c' : Cursor} {t : Token} :
    c.expect kind text = (.ok t, c') ↔ ∃ rest, c.rest = t :: rest ∧
      (t.kind = kind ∧ ∀ x ∈ text, x = t.text) ∧ c' = ⟨t :: c.taken, rest⟩ := by
  obtain ⟨taken, rest⟩ := c
  cases rest with
  | nil => simp [Cursor.expect]
  | cons u rest =>
      by_cases hu : u.kind = kind ∧ ∀ x ∈ text, x = u.text
      · have hb : (decide (u.kind = kind) && text.all (· == u.text)) = true := by
          cases text <;> simp_all
        simp only [Cursor.expect, hb, if_true, Prod.mk.injEq, Except.ok.injEq, List.cons.injEq]
        constructor
        · rintro ⟨rfl, rfl⟩
          exact ⟨rest, ⟨rfl, rfl⟩, hu, rfl⟩
        · rintro ⟨_, ⟨rfl, rfl⟩, -, rfl⟩
          exact ⟨rfl, rfl⟩
      · have hb : (decide (u.kind = kind) && text.all (· == u.text)) = false := by
          cases text <;> simp_all
        simp only [Cursor.expect, hb]
        constructor
        · intro h
          cases h
        · rintro ⟨_, h, ht, -⟩
          exact absurd ((List.cons.inj h).1 ▸ ht) hu

/-- A declaration is read exactly where all tokens that are left form a tree. -/
theorem read_eq_ok_iff {c c' : Cursor} {d : Declaration} :
    read c = (.ok d, c') ↔ ∃ t : Grammar.Tree, c.rest = t.tokens ∧ d = t.declaration ∧
      c' = ⟨t.tokens.reverse ++ c.taken, []⟩ := by
  constructor
  · intro h
    rw [read] at h
    split at h
    · cases h
    rename_i keyword c₁ hkeyword
    split at h
    · cases h
    rename_i name c₂ hname
    split at h
    · cases h
    rename_i body c₃ hbody
    split at h
    · rename_i hempty
      obtain ⟨rest₁, hrest, ⟨hkind, htext⟩, rfl⟩ := expect_eq_ok_iff.1 hkeyword
      obtain ⟨rest₂, rfl, ⟨hidentifier, -⟩, rfl⟩ := expect_eq_ok_iff.1 hname
      obtain ⟨o, rest₃, rfl, rfl, rfl⟩ := readBody_eq_ok_iff.1 hbody
      obtain rfl : rest₃ = [] := by simpa using hempty
      obtain ⟨rfl, rfl⟩ : _ = d ∧ _ = c' := by simpa using h
      refine ⟨⟨⟨keyword, hkind, (htext _ rfl).symm⟩, ⟨name, hidentifier⟩, o⟩, ?_, rfl, ?_⟩
      · rw [hrest, List.append_nil]
        rfl
      · simp [Grammar.Tree.tokens]
    · cases h
  · rintro ⟨⟨keyword, name, o⟩, hrest, rfl, rfl⟩
    have hkeyword : c.expect .keyword (some "intent") =
        (.ok keyword.val, ⟨keyword.val :: c.taken, name.val :: o.tokens⟩) :=
      expect_eq_ok_iff.2 ⟨_, hrest, ⟨keyword.property.1, by simp [keyword.property.2]⟩, rfl⟩
    have hname : Cursor.expect .identifier none ⟨keyword.val :: c.taken, name.val :: o.tokens⟩ =
        (.ok name.val, ⟨name.val :: keyword.val :: c.taken, o.tokens⟩) :=
      expect_eq_ok_iff.2 ⟨_, rfl, ⟨name.property, by simp⟩, rfl⟩
    have hbody := readBody_eq_ok_iff (c := ⟨name.val :: keyword.val :: c.taken, o.tokens⟩).2
      ⟨o, [], (List.append_nil _).symm, rfl, rfl⟩
    simp [read, hkeyword, hname, hbody, Grammar.Tree.declaration, Grammar.Tree.tokens, Value.fields]

theorem ofTokens_eq_ok_iff {tokens : List Token} {d : Declaration} :
    ofTokens tokens = .ok d ↔ ∃ t : Grammar.Tree, t.tokens = tokens ∧ t.declaration = d := by
  constructor
  · intro h
    have hread : read (.ofTokens tokens) = (.ok d, (read (.ofTokens tokens)).2) :=
      Prod.ext h rfl
    obtain ⟨t, htokens, hd, -⟩ := read_eq_ok_iff.1 hread
    exact ⟨t, htokens.symm, hd.symm⟩
  · rintro ⟨t, rfl, rfl⟩
    exact congrArg Prod.fst (read_eq_ok_iff (c := .ofTokens t.tokens).2 ⟨t, rfl, rfl, rfl⟩)

/-- Reading a declaration leaves a record of it and changes nothing else. -/
theorem outcome_parse_of_ok {tokens : List Token} {d : Declaration} (h : ofTokens tokens = .ok d)
    (s : Session) : (parse tokens).outcome s =
      (.ok d, { s with journal := s.journal ++ [d.record] }) := by
  rw [parse, Work.outcome_bind, Work.outcome_ofExcept, h]
  rfl

theorem outcome_parse_of_error {tokens : List Token} {e : ParseError}
    (h : ofTokens tokens = .error e) (s : Session) : (parse tokens).outcome s = (.error e, s) := by
  rw [parse, Work.outcome_bind, Work.outcome_ofExcept, h]

theorem outcome_parse_fst (tokens : List Token) (s : Session) :
    ((parse tokens).outcome s).1 = ofTokens tokens := by
  cases h : ofTokens tokens with
  | ok d => rw [outcome_parse_of_ok h]
  | error e => rw [outcome_parse_of_error h]

/-- Tokens are read exactly if the grammar derives them.  There is then only one derivation, and
the declaration has its name and the mapping that its pairs make when they are written from left to
right.  In the mapping of every object, however deep it stands, a key keeps the place where it was
written first and has the value that was written last. -/
theorem parse_ok_iff_derivable (tokens : List Token) (s : Session) :
    ((∃ d, ((parse tokens).outcome s).1 = .ok d) ↔ ∃ t : Grammar.Tree, t.tokens = tokens) ∧
    (∀ t : Grammar.Tree, t.tokens = tokens →
      (∀ t' : Grammar.Tree, t'.tokens = tokens → t' = t) ∧
      ∃ d, ((parse tokens).outcome s).1 = .ok d ∧
        d.toNode = .mk "IntentDeclaration" (.str t.name.val.text)
          [.mk "ObjectBody" (.map (toData (Assoc.ofList t.body.pairs))) []]) ∧
    ∀ o : Grammar.Object, (Grammar.Value.object o).meaning = .body (Assoc.ofList o.pairs) ∧
      Assoc.keys (Assoc.ofList o.pairs) = (Assoc.keys o.pairs).eraseDups ∧
      ∀ key, Assoc.get? key (Assoc.ofList o.pairs) = Assoc.get? key o.pairs.reverse := by
  rw [outcome_parse_fst]
  refine ⟨?_, ?_, ?_⟩
  · constructor
    · rintro ⟨d, hd⟩
      obtain ⟨t, ht, -⟩ := ofTokens_eq_ok_iff.1 hd
      exact ⟨t, ht⟩
    · rintro ⟨t, ht⟩
      exact ⟨t.declaration, ofTokens_eq_ok_iff.2 ⟨t, ht, rfl⟩⟩
  · intro t ht
    refine ⟨fun t' ht' => Grammar.Tree.tokens_injective (ht'.trans ht.symm), t.declaration,
      ofTokens_eq_ok_iff.2 ⟨t, ht, rfl⟩, ?_⟩
    rw [toNode, Grammar.Tree.declaration, Grammar.Object.fields_eq]
    rfl
  · intro o
    refine ⟨?_, Assoc.keys_ofList o.pairs, fun key => Assoc.get?_ofList key o.pairs⟩
    rw [Grammar.Value.meaning, Grammar.Object.fields_eq]

end IntentPlan.Declaration
