import IntentPlan.Declaration.Machine

/-!
# The grammar of declarations

```
Declaration := 'intent' IDENTIFIER Object
Object      := '{' ((IDENTIFIER | KEYWORD) COLON Value (',')?)* '}'
Value       := Array | Object | STRING | IDENTIFIER
Array       := '[' (STRING (',')?)* ']'
```

A derivation is a tree with one constructor for every production.  Its leaves are tokens that carry
the proof that they may stand there, so that every tree derives the tokens it is made of.  Nothing
here mentions how tokens are read; that the reader finds the trees is shown in
`IntentPlan/Proofs/Parsing.lean`.

The main statement is that the grammar is unambiguous, in the strong form that no value is the
beginning of another one (`Value.tokens_append_inj`).
-/

namespace IntentPlan.Grammar

/-! ## Leaves -/

/-- A token with a kind and a text that the grammar names. -/
abbrev Lexeme (kind : Token.Kind) (text : String) :=
  {t : Token // t.kind = kind ∧ t.text = text}

/-- A token of a kind, whatever its text. -/
abbrev OfKind (kind : Token.Kind) := {t : Token // t.kind = kind}

/-- Keywords are keys like all other words. -/
abbrev Key := {t : Token // t.kind = .identifier ∨ t.kind = .keyword}

/-- A comma that may be left out. -/
abbrev Comma := Option (Lexeme .comma ",")

def Comma.tokens : Comma → List Token
  | none => []
  | some t => [t.val]

/-! ## Trees -/

structure Item where
  text : OfKind .string
  comma : Comma

structure Array where
  opening : Lexeme .array "["
  items : List Item
  closing : Lexeme .array "]"

mutual

inductive Value where
  | array (a : Array)
  | object (o : Object)
  | string (t : OfKind .string)
  | identifier (t : OfKind .identifier)

inductive Object where
  | mk (opening : Lexeme .brace "\x7b") (entries : Entries) (closing : Lexeme .brace "\x7d")

/-- Any number of keys with their values. -/
inductive Entries where
  | nil
  | cons (key : Key) (colon : OfKind .colon) (value : Value) (comma : Comma) (rest : Entries)

end

/-- A whole declaration. -/
structure Tree where
  keyword : Lexeme .keyword "intent"
  name : OfKind .identifier
  body : Object

/-! ## The tokens of a tree -/

def Item.tokens (i : Item) : List Token := i.text.val :: i.comma.tokens

def Array.tokens (a : Array) : List Token :=
  a.opening.val :: (a.items.flatMap Item.tokens ++ [a.closing.val])

mutual

def Value.tokens : Value → List Token
  | .array a => a.tokens
  | .object o => o.tokens
  | .string t => [t.val]
  | .identifier t => [t.val]

def Object.tokens : Object → List Token
  | .mk opening entries closing => opening.val :: (entries.tokens ++ [closing.val])

def Entries.tokens : Entries → List Token
  | .nil => []
  | .cons key colon value comma rest =>
    key.val :: colon.val :: (value.tokens ++ (comma.tokens ++ rest.tokens))

end

def Tree.tokens (t : Tree) : List Token := t.keyword.val :: t.name.val :: t.body.tokens

/-! ## The meaning of a tree -/

def Array.texts (a : Array) : List String := a.items.map fun i => i.text.val.text

mutual

def Value.meaning : Value → Declaration.Value
  | .array a => .items a.texts
  | .object o => .body o.fields
  | .string t => .text t.val.text
  | .identifier t => .text t.val.text

/-- The pairs of an object are written into a mapping from left to right. -/
def Object.fields : Object → Assoc Declaration.Value
  | .mk _ entries _ => Assoc.ofList entries.pairs

def Entries.pairs : Entries → List (String × Declaration.Value)
  | .nil => []
  | .cons key _ value _ rest => (key.val.text, value.meaning) :: rest.pairs

end

def Object.pairs : Object → List (String × Declaration.Value)
  | .mk _ entries _ => entries.pairs

theorem Object.fields_eq (o : Object) : o.fields = Assoc.ofList o.pairs := by
  obtain ⟨opening, entries, closing⟩ := o
  rw [Object.fields, Object.pairs]

def Tree.declaration (t : Tree) : Declaration := ⟨t.name.val.text, t.body.fields⟩

/-! ## Tokens that do not start with a comma

An optional comma is told from what follows it by the first token alone, because neither a key nor
a closing token is a comma. -/

/-- There is a first token, and it is no comma. -/
def NoComma (tokens : List Token) : Prop :=
  ∃ t rest, tokens = t :: rest ∧ t.kind ≠ .comma

theorem NoComma.cons {t : Token} {rest : List Token} (h : t.kind ≠ .comma) :
    NoComma (t :: rest) := ⟨t, rest, rfl, h⟩

theorem noComma_items (items : List Item) (closing : Lexeme .array "]") (rest : List Token) :
    NoComma (items.flatMap Item.tokens ++ closing.val :: rest) := by
  cases items with
  | nil => exact .cons (by rw [closing.property.1]; decide)
  | cons item items => exact .cons (by rw [item.text.property]; decide)

theorem noComma_entries (entries : Entries) (closing : Lexeme .brace "\x7d")
    (rest : List Token) : NoComma (entries.tokens ++ closing.val :: rest) := by
  cases entries with
  | nil => exact .cons (by rw [closing.property.1]; decide)
  | cons key colon value comma entries =>
      rw [Entries.tokens]
      refine .cons ?_
      rcases key.property with h | h <;> rw [h] <;> decide

theorem Comma.tokens_append_inj {c₁ c₂ : Comma} {r₁ r₂ : List Token}
    (h₁ : NoComma r₁) (h₂ : NoComma r₂) (h : c₁.tokens ++ r₁ = c₂.tokens ++ r₂) :
    c₁ = c₂ ∧ r₁ = r₂ := by
  obtain ⟨t₁, rest₁, rfl, ht₁⟩ := h₁
  obtain ⟨t₂, rest₂, rfl, ht₂⟩ := h₂
  cases c₁ with
  | none =>
      cases c₂ with
      | none => exact ⟨rfl, h⟩
      | some c => exact absurd ((List.cons.inj h).1 ▸ c.property.1) ht₁
  | some c =>
      cases c₂ with
      | none => exact absurd ((List.cons.inj h).1 ▸ c.property.1) ht₂
      | some c' =>
          obtain ⟨hc, hr⟩ := List.cons.inj h
          exact ⟨congrArg some (Subtype.ext hc), hr⟩

/-! ## Unambiguity -/

theorem items_append_inj {items₁ items₂ : List Item} {closing₁ closing₂ : Lexeme .array "]"}
    {r₁ r₂ : List Token}
    (h : items₁.flatMap Item.tokens ++ closing₁.val :: r₁ =
      items₂.flatMap Item.tokens ++ closing₂.val :: r₂) :
    items₁ = items₂ ∧ closing₁ = closing₂ ∧ r₁ = r₂ := by
  induction items₁ generalizing items₂ with
  | nil =>
      cases items₂ with
      | nil =>
          obtain ⟨hc, hr⟩ := List.cons.inj h
          exact ⟨rfl, Subtype.ext hc, hr⟩
      | cons item items =>
          have hkind := congrArg Token.kind (List.cons.inj h).1
          rw [closing₁.property.1, item.text.property] at hkind
          cases hkind
  | cons item items ih =>
      cases items₂ with
      | nil =>
          have hkind := congrArg Token.kind (List.cons.inj h).1
          rw [closing₂.property.1, item.text.property] at hkind
          cases hkind
      | cons item' items' =>
          obtain ⟨text, comma⟩ := item
          obtain ⟨text', comma'⟩ := item'
          simp only [List.flatMap_cons, Item.tokens, List.cons_append, List.append_assoc] at h
          obtain ⟨htext, h⟩ := List.cons.inj h
          obtain ⟨rfl, hrest⟩ :=
            Comma.tokens_append_inj (noComma_items _ _ _) (noComma_items _ _ _) h
          obtain ⟨rfl, hclosing, hr⟩ := ih hrest
          obtain rfl := Subtype.ext htext
          exact ⟨rfl, hclosing, hr⟩

theorem Array.tokens_append_inj {a₁ a₂ : Array} {r₁ r₂ : List Token}
    (h : a₁.tokens ++ r₁ = a₂.tokens ++ r₂) : a₁ = a₂ ∧ r₁ = r₂ := by
  obtain ⟨opening₁, items₁, closing₁⟩ := a₁
  obtain ⟨opening₂, items₂, closing₂⟩ := a₂
  simp only [Array.tokens, List.cons_append, List.append_assoc, List.nil_append] at h
  obtain ⟨hopening, h⟩ := List.cons.inj h
  obtain ⟨rfl, rfl, hr⟩ := items_append_inj h
  obtain rfl := Subtype.ext hopening
  exact ⟨rfl, hr⟩

/-- The kind of the first token of a value, and its text where the kind does not decide. -/
theorem Value.head_tokens (v : Value) : ∃ t rest, v.tokens = t :: rest ∧
    match v with
    | .array _ => t.kind = .array
    | .object _ => t.kind = .brace
    | .string _ => t.kind = .string
    | .identifier _ => t.kind = .identifier := by
  match v with
  | .array a => exact ⟨a.opening.val, _, by rw [Value.tokens, Array.tokens], a.opening.property.1⟩
  | .object (.mk opening entries closing) =>
      exact ⟨opening.val, _, by rw [Value.tokens, Object.tokens], opening.property.1⟩
  | .string t => exact ⟨t.val, [], by rw [Value.tokens], t.property⟩
  | .identifier t => exact ⟨t.val, [], by rw [Value.tokens], t.property⟩

mutual

/-- No value is the beginning of another one, and no two trees have the same tokens. -/
theorem Value.tokens_append_inj {v₁ v₂ : Value} {r₁ r₂ : List Token}
    (h : v₁.tokens ++ r₁ = v₂.tokens ++ r₂) : v₁ = v₂ ∧ r₁ = r₂ := by
  obtain ⟨t₁, rest₁, he₁, hk₁⟩ := v₁.head_tokens
  obtain ⟨t₂, rest₂, he₂, hk₂⟩ := v₂.head_tokens
  have hkind : t₁.kind = t₂.kind := by
    rw [he₁, he₂] at h
    exact congrArg Token.kind (List.cons.inj h).1
  -- the kind of the first token tells the four productions apart
  match v₁, v₂ with
  | .array a₁, .array a₂ =>
      simp only [Value.tokens] at h
      obtain ⟨rfl, hr⟩ := Array.tokens_append_inj h
      exact ⟨rfl, hr⟩
  | .object o₁, .object o₂ =>
      simp only [Value.tokens] at h
      obtain ⟨rfl, hr⟩ := Object.tokens_append_inj h
      exact ⟨rfl, hr⟩
  | .string s₁, .string s₂ =>
      simp only [Value.tokens] at h
      obtain ⟨hs, hr⟩ := List.cons.inj h
      exact ⟨congrArg Value.string (Subtype.ext hs), hr⟩
  | .identifier s₁, .identifier s₂ =>
      simp only [Value.tokens] at h
      obtain ⟨hs, hr⟩ := List.cons.inj h
      exact ⟨congrArg Value.identifier (Subtype.ext hs), hr⟩
  | .array _, .object _ | .array _, .string _ | .array _, .identifier _
  | .object _, .array _ | .object _, .string _ | .object _, .identifier _
  | .string _, .array _ | .string _, .object _ | .string _, .identifier _
  | .identifier _, .array _ | .identifier _, .object _ | .identifier _, .string _ =>
      rw [hk₁, hk₂] at hkind
      cases hkind

theorem Object.tokens_append_inj {o₁ o₂ : Object} {r₁ r₂ : List Token}
    (h : o₁.tokens ++ r₁ = o₂.tokens ++ r₂) : o₁ = o₂ ∧ r₁ = r₂ := by
  match o₁, o₂ with
  | .mk opening₁ entries₁ closing₁, .mk opening₂ entries₂ closing₂ =>
      simp only [Object.tokens, List.cons_append, List.append_assoc, List.nil_append] at h
      obtain ⟨hopening, h⟩ := List.cons.inj h
      obtain ⟨rfl, rfl, hr⟩ := Entries.tokens_append_inj h
      obtain rfl := Subtype.ext hopening
      exact ⟨rfl, hr⟩

theorem Entries.tokens_append_inj {es₁ es₂ : Entries} {closing₁ closing₂ : Lexeme .brace "\x7d"}
    {r₁ r₂ : List Token}
    (h : es₁.tokens ++ closing₁.val :: r₁ = es₂.tokens ++ closing₂.val :: r₂) :
    es₁ = es₂ ∧ closing₁ = closing₂ ∧ r₁ = r₂ := by
  match es₁, es₂ with
  | .nil, .nil =>
      simp only [Entries.tokens, List.nil_append] at h
      obtain ⟨hc, hr⟩ := List.cons.inj h
      exact ⟨rfl, Subtype.ext hc, hr⟩
  | .nil, .cons key _ _ _ _ =>
      simp only [Entries.tokens, List.nil_append, List.cons_append] at h
      have hkind := congrArg Token.kind (List.cons.inj h).1
      rw [closing₁.property.1] at hkind
      rcases key.property with hkey | hkey <;> rw [hkey] at hkind <;> cases hkind
  | .cons key _ _ _ _, .nil =>
      simp only [Entries.tokens, List.nil_append, List.cons_append] at h
      have hkind := congrArg Token.kind (List.cons.inj h).1
      rw [closing₂.property.1] at hkind
      rcases key.property with hkey | hkey <;> rw [hkey] at hkind <;> cases hkind
  | .cons key₁ colon₁ value₁ comma₁ rest₁, .cons key₂ colon₂ value₂ comma₂ rest₂ =>
      simp only [Entries.tokens, List.cons_append, List.append_assoc] at h
      obtain ⟨hkey, h⟩ := List.cons.inj h
      obtain ⟨hcolon, h⟩ := List.cons.inj h
      obtain ⟨rfl, hcomma⟩ := Value.tokens_append_inj h
      obtain ⟨rfl, hrest⟩ :=
        Comma.tokens_append_inj (noComma_entries _ _ _) (noComma_entries _ _ _) hcomma
      obtain ⟨rfl, hclosing, hr⟩ := Entries.tokens_append_inj hrest
      obtain rfl := Subtype.ext hkey
      obtain rfl := Subtype.ext hcolon
      exact ⟨rfl, hclosing, hr⟩

end

theorem Tree.tokens_injective {t₁ t₂ : Tree} (h : t₁.tokens = t₂.tokens) : t₁ = t₂ := by
  obtain ⟨keyword₁, name₁, body₁⟩ := t₁
  obtain ⟨keyword₂, name₂, body₂⟩ := t₂
  obtain ⟨hkeyword, h⟩ := List.cons.inj h
  obtain ⟨hname, h⟩ := List.cons.inj h
  obtain ⟨rfl, -⟩ := Object.tokens_append_inj (congrArg (· ++ ([] : List Token)) h)
  obtain rfl := Subtype.ext hkeyword
  obtain rfl := Subtype.ext hname
  rfl

end IntentPlan.Grammar
