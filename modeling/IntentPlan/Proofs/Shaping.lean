import IntentPlan.Proofs.Layout
import IntentPlan.Proofs.Lifecycle

/-!
# Declarations that come from sources

Reading puts no condition on the texts of its tokens.  Scanning does: words are words, and no
identifier is a keyword (`Token.word_of_mem_scan`).  Trees hand that on to what they mean, so that
every declaration that comes from a source is well shaped (`isWellShaped_of_scan`).  As such it can
be written again, and read strictly even if its source had faults (`ofTokens_scan_text`), and its
intent has a name (`Intent.isWord_name_of_outcome_ofSource`).
-/

namespace IntentPlan

open Declaration (FieldsWellShaped)
open Token (IsWord)

/-! ## Trees of proper words -/

theorem Declaration.fieldsWellShaped_iff {fields : Assoc Declaration.Value} :
    FieldsWellShaped fields ↔
      (Assoc.keys fields).Nodup ∧ ∀ p ∈ fields, IsWord p.1 ∧ p.2.IsWellShaped := by
  induction fields with
  | nil => simp [FieldsWellShaped]
  | cons field rest ih =>
      obtain ⟨key, value⟩ := field
      rw [FieldsWellShaped, ih, Assoc.keys_cons, List.nodup_cons, List.forall_mem_cons]
      constructor
      · rintro ⟨hkey, hnew, hvalue, hnodup, hrest⟩
        exact ⟨⟨hnew, hnodup⟩, ⟨hkey, hvalue⟩, hrest⟩
      · rintro ⟨⟨hnew, hnodup⟩, ⟨hkey, hvalue⟩, hrest⟩
        exact ⟨hkey, hnew, hvalue, hnodup, hrest⟩

namespace Grammar

/-- The tokens that are words have the texts of words. -/
def Proper (tokens : List Token) : Prop :=
  ∀ t ∈ tokens, t.kind = .identifier ∨ t.kind = .keyword → IsWord t.text

theorem Proper.of_subset {ts ts' : List Token} (h : Proper ts') (hsub : ts ⊆ ts') : Proper ts :=
  fun t ht => h t (hsub ht)

mutual

theorem Value.isWellShaped_meaning : (v : Value) → Proper v.tokens → v.meaning.IsWellShaped
  | .array a, _ => by
      rw [Value.meaning, Declaration.Value.IsWellShaped]
      trivial
  | .object o, h => by
      rw [Value.tokens] at h
      rw [Value.meaning, Declaration.Value.IsWellShaped]
      exact o.fieldsWellShaped h
  | .string t, _ => by
      rw [Value.meaning, Declaration.Value.IsWellShaped]
      trivial
  | .identifier t, _ => by
      rw [Value.meaning, Declaration.Value.IsWellShaped]
      trivial

/-- A key that is written twice stands once in the mapping, with one of its values. -/
theorem Object.fieldsWellShaped : (o : Object) → Proper o.tokens → FieldsWellShaped o.fields
  | .mk opening entries closing, h => by
      rw [Object.tokens] at h
      have hentries : Proper entries.tokens := h.of_subset fun t ht => by simp [ht]
      rw [Object.fields, Declaration.fieldsWellShaped_iff]
      refine ⟨Assoc.nodup_keys_ofList _, ?_⟩
      intro p hp
      exact entries.pairs_wellShaped hentries p (Assoc.mem_of_mem_ofList hp)

theorem Entries.pairs_wellShaped : (es : Entries) → Proper es.tokens →
    ∀ p ∈ es.pairs, IsWord p.1 ∧ p.2.IsWellShaped
  | .nil, _ => by simp [Entries.pairs]
  | .cons key colon value comma rest, h => by
      rw [Entries.tokens] at h
      have hkey : IsWord key.val.text := h key.val List.mem_cons_self key.property
      have hvalue : Proper value.tokens := h.of_subset fun t ht => by simp [ht]
      have hrest : Proper rest.tokens := h.of_subset fun t ht => by simp [ht]
      rw [Entries.pairs, List.forall_mem_cons]
      exact ⟨⟨hkey, value.isWellShaped_meaning hvalue⟩, rest.pairs_wellShaped hrest⟩

end

end Grammar

namespace Declaration

variable {d : Declaration} {source : String}

theorem isWellShaped_of_scan (h : ofTokens (Token.scan source) = .ok d) : d.IsWellShaped := by
  obtain ⟨t, ht, rfl⟩ := ofTokens_eq_ok_iff.1 h
  have hname : t.name.val ∈ Token.scan source := by
    rw [← ht, Grammar.Tree.tokens]
    simp
  have hbody : Grammar.Proper t.body.tokens := by
    intro token htoken hkind
    have hmem : token ∈ Token.scan source := by
      rw [← ht, Grammar.Tree.tokens]
      simp [htoken]
    exact Token.isWord_of_mem_scan hmem hkind
  obtain ⟨hword, hidentifier⟩ := Token.word_of_mem_scan hname (.inl t.name.property)
  refine ⟨hword, ?_, t.body.fieldsWellShaped hbody⟩
  intro (hkeyword : t.name.val.text ∈ Token.keywords)
  rw [t.name.property, Token.wordKind, if_pos hkeyword] at hidentifier
  cases hidentifier

theorem isWellShaped_of_outcome {strict : Bool} {s s₁ s₂ : Session} {tokens : List Token}
    (htokens : (Token.tokenize strict source).outcome s = (.ok tokens, s₁))
    (hparse : (parse tokens).outcome s₁ = (.ok d, s₂)) : d.IsWellShaped := by
  obtain rfl := Token.eq_scan_of_outcome_tokenize htokens
  have hread := congrArg Prod.fst hparse
  rw [outcome_parse_fst] at hread
  exact isWellShaped_of_scan hread

/-- However a well-shaped declaration is written, there is no fault in the text, and its tokens
spell the declaration. -/
theorem ofTokens_scan_text (hd : d.IsWellShaped) (l : d.Layout) :
    Token.notices l.text = [] ∧ ofTokens (Token.scan l.text) = .ok d := by
  have hscans := (Layout.reads_spaced hd l).append_gap l.trailing
  obtain ⟨t, ht, hdeclaration⟩ := Layout.exists_tree hd l
  refine ⟨hscans.notices_eq_nil, ?_⟩
  exact ofTokens_congr (ht.trans hscans.map_lexeme.symm)
    (ofTokens_eq_ok_iff.2 ⟨t, rfl, hdeclaration⟩)

end Declaration

/-! ## The shape of data and nodes -/

/-- A letter or an underscore, and then letters, digits and underscores, all of them of ASCII. -/
def IsIdentifier (s : String) : Prop :=
  ∃ c more, s.toList = c :: more ∧ (c.isAlpha = true ∨ c = '_') ∧
    ∀ d ∈ more, d.isAlphanum = true ∨ d = '_'

/-- A text, a flat list of texts, or a mapping of such data under different identifiers. -/
inductive Datum.Shaped : Datum → Prop
  | text (s : String) : Shaped (.str s)
  | items (texts : List String) : Shaped (.list (texts.map .str))
  | body {fields : List (String × Datum)} (hkeys : ∀ p ∈ fields, IsIdentifier p.1)
      (hdistinct : (fields.map Prod.fst).Nodup) (hvalues : ∀ p ∈ fields, Shaped p.2) :
      Shaped (.map fields)

/-- A declaration with a name that is no keyword, above one body. -/
inductive Node.IsShaped : Node → Prop
  | mk {name : String} {fields : List (String × Datum)} (hname : IsIdentifier name)
      (hkeyword : name ∉ Token.keywords) (hbody : Datum.Shaped (.map fields)) :
      IsShaped (.mk "IntentDeclaration" (.str name) [.mk "ObjectBody" (.map fields) []])

theorem isWordStart_iff {c : Char} :
    Token.isWordStart c = true ↔ c.isAlpha = true ∨ c = '_' := by
  have halpha : c.isAlpha = (c.isUpper || c.isLower) := rfl
  have hupper : c.isUpper = decide ('A' ≤ c ∧ c ≤ 'Z') := rfl
  have hlower : c.isLower = (decide ('a' ≤ c) && decide (c ≤ 'z')) := rfl
  simp only [Token.isWordStart, halpha, hupper, hlower, Bool.or_eq_true, Bool.and_eq_true,
    decide_eq_true_eq]
  grind

theorem isWordChar_iff {c : Char} :
    Token.isWordChar c = true ↔ c.isAlphanum = true ∨ c = '_' := by
  have halphanum : c.isAlphanum = (c.isAlpha || c.isDigit) := rfl
  have hdigit : c.isDigit = (decide ('0' ≤ c) && decide (c ≤ '9')) := rfl
  rw [Token.isWordChar, Bool.or_eq_true, isWordStart_iff, halphanum, Bool.or_eq_true, hdigit,
    or_right_comm]

theorem isIdentifier_of_isWord {s : String} (h : IsWord s) : IsIdentifier s := by
  obtain ⟨c, more, hchars, hc, hmore⟩ := h
  exact ⟨c, more, hchars, isWordStart_iff.1 hc, fun d hd => isWordChar_iff.1 (hmore d hd)⟩

namespace Declaration

theorem keys_toData (fields : List (String × Value)) :
    (toData fields).map Prod.fst = Assoc.keys fields := by
  induction fields with
  | nil => rfl
  | cons field rest ih =>
      obtain ⟨key, value⟩ := field
      rw [toData, List.map_cons, ih]
      rfl

mutual

theorem Value.shaped_toDatum : (v : Value) → v.IsWellShaped → v.toDatum.Shaped
  | .text s, _ => .text s
  | .items texts, _ => .items texts
  | .body fields, h => by
      rw [Value.IsWellShaped] at h
      have hkeys : ((toData fields).map Prod.fst).Nodup := by
        rw [keys_toData]
        exact nodup_keys_of_wellShaped h
      exact .body (fun p hp => (shaped_toData fields h p hp).1) hkeys
        fun p hp => (shaped_toData fields h p hp).2

theorem shaped_toData : (fields : List (String × Value)) → FieldsWellShaped fields →
    ∀ p ∈ toData fields, IsIdentifier p.1 ∧ p.2.Shaped
  | [], _ => by simp [toData]
  | (key, value) :: rest, h => by
      rw [FieldsWellShaped] at h
      obtain ⟨hkey, -, hvalue, hrest⟩ := h
      rw [toData, List.forall_mem_cons]
      exact ⟨⟨isIdentifier_of_isWord hkey, value.shaped_toDatum hvalue⟩, shaped_toData rest hrest⟩

end

theorem IsWellShaped.toNode {d : Declaration} (h : d.IsWellShaped) : d.toNode.IsShaped := by
  have hbody : (Value.body d.body).IsWellShaped := by
    rw [Value.IsWellShaped]
    exact h.body_wellShaped
  exact .mk (isIdentifier_of_isWord h.name_isWord) h.name_notMem
    ((Value.body d.body).shaped_toDatum hbody)

end Declaration

/-! ## Names of intents -/

namespace Intent

/-- No check of the intent, whatever the limit, finds that it has no name. -/
def PassesAsNamed (i : Intent) : Prop :=
  ∀ (ε : Type) (limit : Int) (s : Session), ∃ messages s',
    (i.check limit : Work ε _).outcome s = (.ok messages, s') ∧
      "Intent must have a name" ∉ messages

theorem mem_toList_append {c : Char} {s t : String} (h : c ∈ s.toList) : c ∈ (s ++ t).toList := by
  rw [String.toList_append]
  exact List.mem_append_left _ h

/-- The message about a missing name is that of no other problem. -/
theorem Problem.message_eq_noName_iff {p : Problem} :
    p.message = "Intent must have a name" ↔ p = .noName := by
  cases p with
  | noName => exact iff_of_true rfl rfl
  | noGoal => exact iff_of_false (by decide) (by decide)
  | noCapability => exact iff_of_false (by decide) (by decide)
  | tooComplex score limit =>
      refine iff_of_false ?_ (by simp)
      intro h
      -- only here there is a bracket, in front of the score
      have hfirst : '(' ∈ "Intent is too complex (score ".toList := by decide
      have hbracket : '(' ∈ (Problem.tooComplex score limit).message.toList :=
        mem_toList_append (mem_toList_append (mem_toList_append (mem_toList_append hfirst)))
      rw [h] at hbracket
      exact absurd hbracket (by decide)

theorem noName_notMem_complaints {i : Intent} (h : IsWord i.name) (limit : Int) :
    "Intent must have a name" ∉ i.complaints limit := by
  intro hmem
  obtain ⟨p, hp, hmessage⟩ := List.mem_map.1 hmem
  obtain rfl := Problem.message_eq_noName_iff.1 hmessage
  have hblank := allBlank_of_isWord h
  simp [problems, hblank] at hp

theorem passesAsNamed_of_isWord {i : Intent} (h : IsWord i.name) : i.PassesAsNamed := by
  intro ε limit s
  exact ⟨i.complaints limit, _, rfl, noName_notMem_complaints h limit⟩

theorem isWord_name_of_outcome_ofNode {d : Declaration} (hd : d.IsWellShaped) {s s' : Session}
    {i : Intent} (h : (ofNode d.toNode).outcome s = (.ok i, s')) : IsWord i.name := by
  rcases outcome_ofNode_cases d s with ⟨j, s₁, hj, hdeclared⟩ | ⟨e, s₁, he, -⟩
  · rw [hj] at h
    cases h
    rw [hdeclared.name]
    exact hd.name_isWord
  · rw [he] at h
    cases h

theorem isWord_name_of_outcome_ofSource {strict : Bool} {source : String} {s s' : Session}
    {i : Intent} (h : (ofSource strict source).outcome s = (.ok i, s')) : IsWord i.name := by
  obtain ⟨tokens, s₁, htokens, h⟩ := Work.outcome_bind_eq_ok_iff.1 h
  obtain ⟨d, s₂, hparse, h⟩ := Work.outcome_bind_eq_ok_iff.1 h
  obtain ⟨j, s₃, hlower, h⟩ := Work.outcome_bind_eq_ok_iff.1 h
  rw [Work.outcome_mapError_eq_ok_iff] at htokens hparse hlower
  have hname := isWord_name_of_outcome_ofNode
    (Declaration.isWellShaped_of_outcome htokens hparse) hlower
  cases h
  exact hname

end Intent

namespace Declaration

/-- What comes from a source, with or without faults in it, has the shape of a declaration.  It can
be written again, and however it is written it is read back, without a fault this time.  Its intent
is never found to have no name, neither by a check nor by a compilation. -/
theorem shaped_of_source (strict : Bool) (source : String) :
    (∀ (s s₁ s₂ : Session) (tokens : List Token) (d : Declaration),
      (Token.tokenize strict source).outcome s = (.ok tokens, s₁) →
      (parse tokens).outcome s₁ = (.ok d, s₂) →
      d.toNode.IsShaped ∧
      (Nonempty d.Layout ∧ ∀ (l : d.Layout) (t : Session), ∃ tokens' t₁ t₂,
        (Token.tokenize true l.text).outcome t = (.ok tokens', t₁) ∧
        (parse tokens').outcome t₁ = (.ok d, t₂)) ∧
      ∀ (t t' : Session) (i : Intent), (Intent.ofNode d.toNode).outcome t = (.ok i, t') →
        i.PassesAsNamed) ∧
    (∀ (s s' : Session) (i : Intent), (Intent.parse strict source).outcome s = (.ok i, s') →
      i.PassesAsNamed) ∧
    ∀ (c : Compiler) (s s' : Session) (r : Compilation),
      (c.compile source).outcome s = (.ok r, s') → "Intent must have a name" ∉ r.complaints := by
  refine ⟨?_, ?_, ?_⟩
  · intro s s₁ s₂ tokens d htokens hparse
    have hd := isWellShaped_of_outcome htokens hparse
    refine ⟨hd.toNode, ⟨⟨.plain d⟩, ?_⟩, ?_⟩
    · intro l t
      obtain ⟨hnotices, hread⟩ := ofTokens_scan_text hd l
      exact ⟨_, _, _, Token.outcome_tokenize_of_ok (fun _ => hnotices) t,
        outcome_parse_of_ok hread _⟩
    · intro t t' i hlower
      exact Intent.passesAsNamed_of_isWord (Intent.isWord_name_of_outcome_ofNode hd hlower)
  · intro s s' i h
    obtain ⟨j, s₁, hsource, h⟩ := Work.outcome_bind_eq_ok_iff.1 h
    obtain ⟨_, s₂, -, h⟩ := Work.outcome_bind_eq_ok_iff.1 h
    cases h
    exact Intent.passesAsNamed_of_isWord (Intent.isWord_name_of_outcome_ofSource hsource)
  · intro c s s' r h
    have hname {i : Intent} {s₁ : Session}
        (hsource : (Intent.ofSource c.config.strictLexing source).outcome s = (.ok i, s₁)) :
        "Intent must have a name" ∉ i.complaints c.config.maxComplexity :=
      Intent.noName_notMem_complaints (Intent.isWord_name_of_outcome_ofSource hsource) _
    cases Compiler.course_of_outcome h with
    | @refused e => cases e <;> exact List.not_mem_nil
    | invalid hsource => exact hname hsource
    | unplanned hsource => exact hname hsource
    | planned hsource => exact hname hsource

/-- A source with a stray character and a key that is written twice: it is refused strictly, but
what is read from it otherwise can be written so that it is not. -/
theorem shaped_of_source_stray :
    let source := "intent shop @ \x7b goal: 'a' more: \x7b goal: [\"b\"] \x7d goal: fast \x7d"
    let s : Session := ⟨.constant ⟨0⟩, .constant "a", .constant 0.0, [], {}, ""⟩
    ((Token.tokenize true source).outcome s).1.toOption.isNone = true ∧
    ∃ tokens s₁ d s₂, (Token.tokenize false source).outcome s = (.ok tokens, s₁) ∧
      (parse tokens).outcome s₁ = (.ok d, s₂) ∧ Assoc.keys d.body = ["goal", "more"] ∧
      d.toNode.IsShaped ∧ ∀ (l : d.Layout) (t : Session), ∃ tokens' t₁ t₂,
        (Token.tokenize true l.text).outcome t = (.ok tokens', t₁) ∧
        (parse tokens').outcome t₁ = (.ok d, t₂) := by
  intro source s
  have hkeys : (ofTokens (Token.scan source)).toOption.map (fun d => Assoc.keys d.body) =
      some ["goal", "more"] := by decide +kernel
  refine ⟨by decide +kernel, ?_⟩
  cases hread : ofTokens (Token.scan source) with
  | error e =>
      rw [hread] at hkeys
      cases hkeys
  | ok d =>
      rw [hread] at hkeys
      have hlenient : false = true → Token.notices source = [] := by simp
      have htokens := Token.outcome_tokenize_of_ok hlenient s
      have hparse := outcome_parse_of_ok hread
        { s with journal := s.journal ++ Token.records source }
      obtain ⟨hshaped, ⟨-, hback⟩, -⟩ :=
        (shaped_of_source false source).1 _ _ _ _ d htokens hparse
      exact ⟨_, _, d, _, htokens, hparse, Option.some.inj hkeys, hshaped, hback⟩

end Declaration

end IntentPlan
