import IntentPlan.Proofs.Parsing
import IntentPlan.Proofs.Scanning

/-!
# Layouts of declarations

A declaration can be written in many ways: with white space and comments between its parts, with
either quote around a text, with or without the commas that may be left out.  A layout makes all
these choices.  Layouts are indexed by what they write, so that there is nothing in a layout of `d`
but the choices.

The main statement is that every layout of a declaration is read back as the declaration
(`parse_tokenize_text`).  The text is followed through its three forms: characters, pieces and
tokens.  The pieces are found by `Reads`, which says of lexemes with gaps that scanning takes them
apart whatever comes after them; the tokens are those of a tree of the grammar, up to their places.
-/

namespace IntentPlan.Declaration

open Token (IsWord wordKind Scans Apart)

/-! ## Well-shaped declarations -/

mutual

/-- The keys of all bodies in a value are words, and different from each other in each body. -/
def Value.IsWellShaped : Value → Prop
  | .text _ => True
  | .items _ => True
  | .body fields => FieldsWellShaped fields

def FieldsWellShaped : List (String × Value) → Prop
  | [] => True
  | (key, value) :: rest =>
    IsWord key ∧ key ∉ Assoc.keys rest ∧ value.IsWellShaped ∧ FieldsWellShaped rest

end

structure IsWellShaped (d : Declaration) : Prop where
  name_isWord : IsWord d.name
  name_notMem : d.name ∉ Token.keywords
  body_wellShaped : FieldsWellShaped d.body

theorem isWord_intent : IsWord "intent" :=
  Token.isWord_of_toList 'i' ['n', 't', 'e', 'n', 't'] (by decide) (by decide) (by decide)

theorem nodup_keys_of_wellShaped {fields : Assoc Value} (h : FieldsWellShaped fields) :
    (Assoc.keys fields).Nodup := by
  induction fields with
  | nil => exact List.nodup_nil
  | cons field rest ih =>
      obtain ⟨key, value⟩ := field
      rw [FieldsWellShaped] at h
      exact List.nodup_cons.2 ⟨h.2.1, ih h.2.2.2⟩

namespace Layout

/-! ## Gaps and lexemes -/

/-- A character of white space, or a comment with the newline that ends it. -/
inductive Blank where
  | space (c : Char) (h : Token.isSpace c = true)
  | comment (body : List Char) (h : '\n' ∉ body)

def Blank.chars : Blank → List Char
  | .space c _ => [c]
  | .comment body _ => '#' :: (body ++ ['\n'])

/-- What may stand between two lexemes. -/
abbrev Gap := List Blank

def Gap.chars (g : Gap) : List Char := g.flatMap Blank.chars

abbrev Quote := {q : Char // Token.isQuote q = true}

/-- A text inside quotes: its quotes and backslashes have a backslash in front of them. -/
def escape (quote : Char) (cs : List Char) : List Char :=
  cs.flatMap fun c => if c = quote ∨ c = '\\' then ['\\', c] else [c]

inductive Lexeme where
  | word (s : String)
  | mark (kind : Token.Kind) (c : Char) (h : Token.punctuation? c = some kind)
  | quoted (quote : Quote) (s : String)

namespace Lexeme

def chars : Lexeme → List Char
  | .word s => s.toList
  | .mark _ c _ => [c]
  | .quoted quote s => quote.val :: (escape quote.val s.toList ++ [quote.val])

/-- The kind and the text of the token. -/
def token : Lexeme → Token.Kind × String
  | .word s => (wordKind s, s)
  | .mark kind c _ => (kind, String.ofList [c])
  | .quoted _ s => (.string, s)

end Lexeme

/-- A lexeme and the gap in front of it. -/
abbrev Spaced := Gap × Lexeme

def Spaced.chars (l : Spaced) : List Char := l.1.chars ++ l.2.chars

def chars (ls : List Spaced) : List Char := ls.flatMap Spaced.chars

/-! ## Layouts -/

/-- A comma with the gap in front of it, or no comma. -/
abbrev Comma := Option Gap

def Comma.spaced : Comma → List Spaced
  | none => []
  | some gap => [(gap, .mark .comma ',' rfl)]

inductive Items : List String → Type where
  | nil : Items []
  | cons (gap : Gap) (quote : Quote) (text : String) (comma : Comma) {rest : List String}
      (more : Items rest) : Items (text :: rest)

mutual

inductive OfValue : Value → Type where
  | text (quote : Quote) (s : String) : OfValue (.text s)
  | items {texts : List String} (items : Items texts) (closing : Gap) : OfValue (.items texts)
  | body {fields : List (String × Value)} (entries : OfFields fields) (closing : Gap) :
      OfValue (.body fields)

inductive OfFields : List (String × Value) → Type where
  | nil : OfFields []
  | cons (beforeKey : Gap) (key : String) (beforeColon beforeValue : Gap) {value : Value}
      (layout : OfValue value) (comma : Comma) {rest : List (String × Value)}
      (more : OfFields rest) : OfFields ((key, value) :: rest)

end

end Layout

/-- A way to write a declaration.  Only the first word and the name would touch without a gap. -/
structure Layout (d : Declaration) where
  beforeKeyword : Layout.Gap
  beforeName : Layout.Gap
  beforeName_ne : beforeName ≠ []
  beforeBody : Layout.Gap
  entries : Layout.OfFields d.body
  closing : Layout.Gap
  trailing : Layout.Gap

namespace Layout

def Items.spaced {texts : List String} : Items texts → List Spaced
  | .nil => []
  | .cons gap quote text comma more => (gap, .quoted quote text) :: (comma.spaced ++ more.spaced)

mutual

/-- The lexemes of a value after a gap. -/
def OfValue.spaced {value : Value} (gap : Gap) : OfValue value → List Spaced
  | .text quote s => [(gap, .quoted quote s)]
  | .items items closing =>
    (gap, .mark .array '[' rfl) :: (items.spaced ++ [(closing, .mark .array ']' rfl)])
  | .body entries closing =>
    (gap, .mark .brace '\x7b' rfl) :: (entries.spaced ++ [(closing, .mark .brace '\x7d' rfl)])

def OfFields.spaced {fields : List (String × Value)} : OfFields fields → List Spaced
  | .nil => []
  | .cons beforeKey key beforeColon beforeValue layout comma more =>
    (beforeKey, .word key) :: (beforeColon, .mark .colon ':' rfl) ::
      (layout.spaced beforeValue ++ (comma.spaced ++ more.spaced))

end

variable {d : Declaration}

def spaced (l : Layout d) : List Spaced :=
  (l.beforeKeyword, .word "intent") :: (l.beforeName, .word d.name) ::
    (l.beforeBody, .mark .brace '\x7b' rfl) ::
      (l.entries.spaced ++ [(l.closing, .mark .brace '\x7d' rfl)])

/-- The declaration as it is written. -/
def text (l : Layout d) : String := String.ofList (chars l.spaced ++ l.trailing.chars)

/-! ## Characters to tokens -/

@[simp] theorem chars_nil : chars [] = [] := rfl

@[simp] theorem chars_cons (gap : Gap) (l : Lexeme) (ls : List Spaced) :
    chars ((gap, l) :: ls) = gap.chars ++ (l.chars ++ chars ls) := by
  simp [chars, Spaced.chars]

@[simp] theorem chars_append (ls ls' : List Spaced) : chars (ls ++ ls') = chars ls ++ chars ls' :=
  List.flatMap_append

/-- The tokens of lexemes, without their places. -/
def lexemes (ls : List Spaced) : List (Token.Kind × String) := ls.map fun l => l.2.token

@[simp] theorem lexemes_nil : lexemes [] = [] := rfl

@[simp] theorem lexemes_cons (gap : Gap) (l : Lexeme) (ls : List Spaced) :
    lexemes ((gap, l) :: ls) = l.token :: lexemes ls := rfl

@[simp] theorem lexemes_append (ls ls' : List Spaced) :
    lexemes (ls ++ ls') = lexemes ls ++ lexemes ls' := List.map_append

theorem scans_gap (gap : Gap) : Scans gap.chars [] := by
  induction gap with
  | nil => exact .nil
  | cons blank gap ih =>
      cases blank with
      | space c h => exact (Scans.space h).append ih
      | comment body h => exact (Scans.comment h).append ih

/-- A gap does not start with a character of a word, and neither does what has such a gap in front
of it. -/
theorem apart_gap (gap : Gap) {cs : List Char} (h : gap ≠ [] ∨ Apart cs) :
    Apart (gap.chars ++ cs) := by
  cases gap with
  | nil => exact h.resolve_left (fun hne => hne rfl)
  | cons blank gap =>
      cases blank with
      | comment body hbody => exact .cons (by decide) _
      | space c hc =>
          refine .cons ?_ _
          simp only [Token.isSpace, Bool.or_eq_true, decide_eq_true_eq] at hc
          rcases hc with ((rfl | rfl) | rfl) | rfl <;> decide

/-- An escaped text ends at its own quote and means the text. -/
theorem splitQuoted_escape (quote : Quote) (cs rest : List Char) :
    Token.splitQuoted quote.val (escape quote.val cs ++ [quote.val] ++ rest) =
      (cs.map fun c => if c = quote.val ∨ c = '\\' then .escaped c else .plain c, true, rest) := by
  have hquote : quote.val ≠ '\\' := by
    intro h
    have hisQuote := quote.property
    rw [h] at hisQuote
    cases hisQuote
  induction cs with
  | nil => exact Token.splitQuoted_closed hquote rest
  | cons c cs ih =>
      simp only [escape, List.flatMap_cons, List.map_cons] at ih ⊢
      by_cases hc : c = quote.val ∨ c = '\\'
      · rw [if_pos hc, if_pos hc]
        exact Token.splitQuoted_escaped quote.val c ih
      · rw [if_neg hc, if_neg hc]
        exact Token.splitQuoted_plain (fun h => hc (.inl h)) (fun h => hc (.inr h)) ih

theorem scans_quoted (quote : Quote) (s : String) :
    Scans (Lexeme.quoted quote s).chars [(.string, s)] := by
  have hchars : ((s.toList.map fun c =>
      if c = quote.val ∨ c = '\\' then Token.Glyph.escaped c else .plain c).map
        Token.Glyph.char) = s.toList := by
    rw [List.map_map]
    conv_rhs => rw [← List.map_id s.toList]
    refine List.map_congr_left fun c _ => ?_
    simp only [Function.comp_apply]
    split <;> rfl
  have h := Scans.quoted quote.property (splitQuoted_escape quote s.toList)
  rw [hchars, String.ofList_toList] at h
  exact h

/-- Lexemes with gaps are scanned to their tokens. -/
def Reads (ls : List Spaced) : Prop := Scans (chars ls) (lexemes ls)

theorem Reads.nil : Reads [] := Scans.nil

theorem Reads.append {ls ls' : List Spaced} (h : Reads ls) (h' : Reads ls') :
    Reads (ls ++ ls') := by
  rw [Reads, chars_append, lexemes_append]
  exact Scans.append h h'

theorem Reads.cons_mark {ls : List Spaced} (h : Reads ls) (gap : Gap) {kind : Token.Kind} {c : Char}
    (hc : Token.punctuation? c = some kind) : Reads ((gap, .mark kind c hc) :: ls) := by
  rw [Reads, chars_cons, lexemes_cons]
  exact (scans_gap gap).append ((Scans.mark hc).append h)

theorem Reads.cons_quoted {ls : List Spaced} (h : Reads ls) (gap : Gap) (quote : Quote)
    (s : String) : Reads ((gap, .quoted quote s) :: ls) := by
  rw [Reads, chars_cons, lexemes_cons]
  exact (scans_gap gap).append ((scans_quoted quote s).append h)

/-- A word has to be kept apart from the lexeme after it, if that is a word as well. -/
theorem Reads.cons_word {next : Spaced} {ls : List Spaced} (h : Reads (next :: ls)) (gap : Gap)
    {s : String} (hs : IsWord s) (hnext : next.1 ≠ [] ∨ ∀ rest, Apart (next.2.chars ++ rest)) :
    Reads ((gap, .word s) :: next :: ls) := by
  rw [Reads, chars_cons, lexemes_cons]
  refine (scans_gap gap).append (Scans.word hs (fun rest => ?_) h)
  rw [chars_cons, List.append_assoc, List.append_assoc]
  exact apart_gap next.1 (hnext.imp_right fun hlexeme => hlexeme _)

theorem apart_mark {kind : Token.Kind} {c : Char} (hc : Token.punctuation? c = some kind)
    (rest : List Char) : Apart ((Lexeme.mark kind c hc).chars ++ rest) := by
  refine .cons ?_ rest
  rcases Token.eq_of_punctuation?_eq_some hc with rfl | rfl | rfl | rfl | rfl | rfl <;> decide

/-- A gap after the last lexeme makes no token. -/
theorem Reads.append_gap {ls : List Spaced} (h : Reads ls) (gap : Gap) :
    Scans (chars ls ++ gap.chars) (lexemes ls) := by
  have happend := Scans.append h (scans_gap gap)
  rw [List.append_nil] at happend
  exact happend

theorem reads_comma (comma : Comma) : Reads comma.spaced := by
  cases comma with
  | none => exact Reads.nil
  | some gap => exact Reads.cons_mark Reads.nil gap rfl

theorem reads_items {texts : List String} (items : Items texts) : Reads items.spaced := by
  induction items with
  | nil => exact Reads.nil
  | cons gap quote text comma more ih =>
      exact Reads.cons_quoted ((reads_comma comma).append ih) gap quote text

mutual

theorem reads_value {v : Value} (hv : v.IsWellShaped) (gap : Gap) (layout : OfValue v) :
    Reads (layout.spaced gap) := by
  match layout with
  | .text quote s =>
      rw [OfValue.spaced]
      exact Reads.cons_quoted Reads.nil gap quote s
  | .items items closing =>
      rw [OfValue.spaced]
      exact ((reads_items items).append (Reads.cons_mark Reads.nil closing rfl)).cons_mark gap rfl
  | .body entries closing =>
      rw [Value.IsWellShaped] at hv
      rw [OfValue.spaced]
      exact ((reads_fields hv entries).append
        (Reads.cons_mark Reads.nil closing rfl)).cons_mark gap rfl

theorem reads_fields {fields : List (String × Value)} (hfields : FieldsWellShaped fields)
    (layout : OfFields fields) : Reads layout.spaced := by
  match layout with
  | .nil =>
      rw [OfFields.spaced]
      exact Reads.nil
  | .cons beforeKey key beforeColon beforeValue layout comma more =>
      rw [FieldsWellShaped] at hfields
      obtain ⟨hkey, -, hvalue, hrest⟩ := hfields
      have hmore := (reads_value hvalue beforeValue layout).append
        ((reads_comma comma).append (reads_fields hrest more))
      rw [OfFields.spaced]
      exact (hmore.cons_mark beforeColon rfl).cons_word beforeKey hkey (.inr (apart_mark rfl))

end

theorem reads_spaced (hd : d.IsWellShaped) (l : d.Layout) : Reads l.spaced := by
  have hclosing : Reads [(l.closing, .mark .brace '\x7d' rfl)] := Reads.nil.cons_mark _ rfl
  have hbody := (reads_fields hd.body_wellShaped l.entries).append hclosing
  have hopening : Reads ((l.beforeBody, .mark .brace '\x7b' rfl) :: _) := hbody.cons_mark _ rfl
  have hname := hopening.cons_word l.beforeName hd.name_isWord (.inr (apart_mark rfl))
  exact hname.cons_word l.beforeKeyword isWord_intent (.inl l.beforeName_ne)

/-! ## Tokens to declarations

A layout makes a tree of the grammar.  Its tokens have no places yet, and reading does not depend on
them. -/

theorem exists_comma (comma : Comma) :
    ∃ c : Grammar.Comma, c.tokens.map Token.lexeme = lexemes comma.spaced := by
  cases comma with
  | none => exact ⟨none, rfl⟩
  | some gap => exact ⟨some ⟨⟨.comma, ",", .start⟩, rfl, rfl⟩, rfl⟩

theorem exists_items {texts : List String} (items : Items texts) :
    ∃ is : List Grammar.Item, (is.flatMap Grammar.Item.tokens).map Token.lexeme =
      lexemes items.spaced ∧ (is.map fun i => i.text.val.text) = texts := by
  induction items with
  | nil => exact ⟨[], rfl, rfl⟩
  | cons gap quote text comma more ih =>
      obtain ⟨is, htokens, htexts⟩ := ih
      obtain ⟨c, hc⟩ := exists_comma comma
      refine ⟨⟨⟨⟨.string, text, .start⟩, rfl⟩, c⟩ :: is, ?_, by simp [htexts]⟩
      simp [Items.spaced, Grammar.Item.tokens, hc, htokens, Token.lexeme, Lexeme.token]

mutual

theorem exists_value {v : Value} (hv : v.IsWellShaped) (gap : Gap) (layout : OfValue v) :
    ∃ u : Grammar.Value, u.tokens.map Token.lexeme = lexemes (layout.spaced gap) ∧
      u.meaning = v := by
  match layout with
  | .text quote s =>
      refine ⟨.string ⟨⟨.string, s, .start⟩, rfl⟩, ?_, ?_⟩
      · simp [OfValue.spaced, Grammar.Value.tokens, Token.lexeme, Lexeme.token]
      · rw [Grammar.Value.meaning]
  | .items items closing =>
      obtain ⟨is, htokens, htexts⟩ := exists_items items
      refine ⟨.array ⟨⟨⟨.array, "[", .start⟩, rfl, rfl⟩, is, ⟨⟨.array, "]", .start⟩, rfl, rfl⟩⟩,
        ?_, ?_⟩
      · simp [OfValue.spaced, Grammar.Value.tokens, Grammar.Array.tokens, Token.lexeme,
          Lexeme.token, htokens]
      · rw [Grammar.Value.meaning, Grammar.Array.texts, htexts]
  | .body entries closing =>
      rw [Value.IsWellShaped] at hv
      obtain ⟨es, htokens, hpairs⟩ := exists_entries hv entries
      refine ⟨.object (.mk ⟨⟨.brace, "\x7b", .start⟩, rfl, rfl⟩ es
        ⟨⟨.brace, "\x7d", .start⟩, rfl, rfl⟩), ?_, ?_⟩
      · simp [OfValue.spaced, Grammar.Value.tokens, Grammar.Object.tokens, Token.lexeme,
          Lexeme.token, htokens]
      · rw [Grammar.Value.meaning, Grammar.Object.fields, hpairs,
          Assoc.ofList_of_nodup (nodup_keys_of_wellShaped hv)]

theorem exists_entries {fields : List (String × Value)} (hfields : FieldsWellShaped fields)
    (layout : OfFields fields) :
    ∃ es : Grammar.Entries, es.tokens.map Token.lexeme = lexemes layout.spaced ∧
      es.pairs = fields := by
  match layout with
  | .nil =>
      refine ⟨.nil, ?_, ?_⟩
      · simp [OfFields.spaced, Grammar.Entries.tokens]
      · rw [Grammar.Entries.pairs]
  | .cons beforeKey key beforeColon beforeValue layout comma more =>
      rw [FieldsWellShaped] at hfields
      obtain ⟨-, -, hvalue, hrest⟩ := hfields
      obtain ⟨u, hu, hmeaning⟩ := exists_value hvalue beforeValue layout
      obtain ⟨c, hc⟩ := exists_comma comma
      obtain ⟨es, hes, hpairs⟩ := exists_entries hrest more
      have hkey : wordKind key = .identifier ∨ wordKind key = .keyword := by
        rw [wordKind]
        split
        · exact .inr rfl
        · exact .inl rfl
      refine ⟨.cons ⟨⟨wordKind key, key, .start⟩, hkey⟩ ⟨⟨.colon, ":", .start⟩, rfl⟩ u c es,
        ?_, ?_⟩
      · simp [OfFields.spaced, Grammar.Entries.tokens, Token.lexeme, Lexeme.token, hu, hc, hes]
      · rw [Grammar.Entries.pairs, hmeaning, hpairs]

end

theorem exists_tree (hd : d.IsWellShaped) (l : d.Layout) :
    ∃ t : Grammar.Tree, t.tokens.map Token.lexeme = lexemes l.spaced ∧ t.declaration = d := by
  obtain ⟨es, htokens, hpairs⟩ := exists_entries hd.body_wellShaped l.entries
  refine ⟨⟨⟨⟨.keyword, "intent", .start⟩, rfl, rfl⟩, ⟨⟨.identifier, d.name, .start⟩, rfl⟩,
    .mk ⟨⟨.brace, "\x7b", .start⟩, rfl, rfl⟩ es ⟨⟨.brace, "\x7d", .start⟩, rfl, rfl⟩⟩, ?_, ?_⟩
  · have hname : wordKind d.name = .identifier := if_neg hd.name_notMem
    have hintent : wordKind "intent" = .keyword := if_pos (by decide)
    simp [spaced, Grammar.Tree.tokens, Grammar.Object.tokens, Token.lexeme, Lexeme.token, htokens,
      hname, hintent]
  · rw [Grammar.Tree.declaration, Grammar.Object.fields, hpairs,
      Assoc.ofList_of_nodup (nodup_keys_of_wellShaped hd.body_wellShaped)]

/-! ## A layout for every declaration -/

/-- Without commas and gaps, and with double quotes. -/
def Items.plain : (texts : List String) → Items texts
  | [] => .nil
  | text :: rest => .cons [] ⟨'"', rfl⟩ text none (Items.plain rest)

mutual

def OfValue.plain : (v : Value) → OfValue v
  | .text s => .text ⟨'"', rfl⟩ s
  | .items texts => .items (Items.plain texts) []
  | .body fields => .body (OfFields.plain fields) []

def OfFields.plain : (fields : List (String × Value)) → OfFields fields
  | [] => .nil
  | (key, value) :: rest =>
    .cons [] key [] [] (OfValue.plain value) none (OfFields.plain rest)

end

def plain (d : Declaration) : d.Layout where
  beforeKeyword := []
  beforeName := [.space ' ' rfl]
  beforeName_ne := List.cons_ne_nil _ _
  beforeBody := []
  entries := OfFields.plain d.body
  closing := []
  trailing := []

end Layout

/-! ## Places do not matter -/

theorem step_congr {t t' : Token} (h : t.lexeme = t'.lexeme) (state : State) :
    state.step t = state.step t' := by
  obtain ⟨kind, text, pos⟩ := t
  obtain ⟨kind', text', pos'⟩ := t'
  obtain ⟨rfl, rfl⟩ := Prod.mk.inj h
  cases state <;> rfl

theorem steps_congr {ts ts' : List Token} (h : ts.map Token.lexeme = ts'.map Token.lexeme)
    (state : State) : state.steps ts = state.steps ts' := by
  induction ts generalizing ts' state with
  | nil =>
      obtain rfl : ts' = [] := by simpa [eq_comm] using h
      rfl
  | cons t ts ih =>
      obtain ⟨t', ts'', rfl, ht, hts⟩ := List.map_eq_cons_iff.1 h.symm
      rw [State.steps_cons, State.steps_cons, step_congr ht.symm]
      exact congrArg _ (funext fun next => ih hts.symm next)

/-- Tokens with the same kinds and texts spell the same declaration. -/
theorem ofTokens_congr {ts ts' : List Token} {d : Declaration}
    (h : ts.map Token.lexeme = ts'.map Token.lexeme) (hts : ofTokens ts = .ok d) :
    ofTokens ts' = .ok d := by
  obtain ⟨⟨keyword, name, body⟩, rfl, rfl⟩ := ofTokens_eq_ok_iff.1 hts
  obtain ⟨keyword', rest, rfl, hkeyword, hrest⟩ := List.map_eq_cons_iff.1 h.symm
  obtain ⟨name', tokens, rfl, hname, htokens⟩ := List.map_eq_cons_iff.1 hrest
  have hsteps : (State.openBody []).steps tokens = some (.done (.body body.fields)) := by
    have hbody := steps_object body [] []
    rw [List.append_nil] at hbody
    rw [steps_congr htokens, hbody]
    rfl
  obtain ⟨body', more, rfl, hmore⟩ := exists_object hsteps
  obtain ⟨rfl, hdone⟩ := State.steps_done hmore
  have hfields : body'.fields = body.fields := Value.body.inj (State.done.inj hdone).symm
  have hkind := congrArg Prod.fst hkeyword
  have htext := congrArg Prod.snd hkeyword
  refine ofTokens_eq_ok_iff.2 ⟨⟨⟨keyword', hkind.trans keyword.property.1,
    htext.trans keyword.property.2⟩, ⟨name', (congrArg Prod.fst hname).trans name.property⟩, body'⟩,
    ?_, ?_⟩
  · rw [List.append_nil]
    rfl
  · rw [Grammar.Tree.declaration, Grammar.Tree.declaration, hfields]
    exact congrArg (Declaration.mk · _) (congrArg Prod.snd hname)

/-! ## The round trip -/

/-- A well-shaped declaration can be written, and however it is written, scanning does not refuse
the text and reading gives the declaration. -/
theorem parse_tokenize_text (d : Declaration) (hd : d.IsWellShaped) (s : Session) :
    Nonempty d.Layout ∧ ∀ l : d.Layout, ∃ tokens s',
      (Token.tokenize true l.text).outcome s = (.ok tokens, s') ∧
      ((parse tokens).outcome s').1 = .ok d := by
  refine ⟨⟨.plain d⟩, fun l => ?_⟩
  have hscans := (Layout.reads_spaced hd l).append_gap l.trailing
  have htokens : (Token.scan l.text).map Token.lexeme = Layout.lexemes l.spaced :=
    hscans.map_lexeme
  obtain ⟨t, ht, hdeclaration⟩ := Layout.exists_tree hd l
  refine ⟨_, _, Token.outcome_tokenize_of_ok (fun _ => hscans.notices_eq_nil) s, ?_⟩
  rw [outcome_parse_fst]
  exact ofTokens_congr (ht.trans htokens.symm) (ofTokens_eq_ok_iff.2 ⟨t, rfl, hdeclaration⟩)

theorem parse_tokenize_text_nested :
    let d : Declaration := ⟨"shop", [("goal", .text "a \"b\" # \\"), ("intent", .items ["'", ""]),
      ("more", .body [("goal", .text "\x7d")])]⟩
    let s : Session := ⟨.constant ⟨0⟩, .constant "", .constant 0, [], {}, ""⟩
    d.IsWellShaped ∧ Nonempty d.Layout ∧ ∀ l : d.Layout, ∃ tokens s',
      (Token.tokenize true l.text).outcome s = (.ok tokens, s') ∧
      ((parse tokens).outcome s').1 = .ok d := by
  intro d s
  have hgoal : IsWord "goal" :=
    Token.isWord_of_toList 'g' ['o', 'a', 'l'] (by decide) (by decide) (by decide)
  have hmore : IsWord "more" :=
    Token.isWord_of_toList 'm' ['o', 'r', 'e'] (by decide) (by decide) (by decide)
  have hd : d.IsWellShaped := {
    name_isWord := Token.isWord_of_toList 's' ['h', 'o', 'p'] (by decide) (by decide) (by decide)
    name_notMem := by decide
    body_wellShaped := by
      simp [d, FieldsWellShaped, Value.IsWellShaped, hgoal, hmore, isWord_intent] }
  exact ⟨hd, parse_tokenize_text d hd s⟩

end IntentPlan.Declaration
