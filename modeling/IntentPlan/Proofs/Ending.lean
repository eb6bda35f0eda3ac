import IntentPlan.Proofs.Joining
import IntentPlan.Proofs.Viability

/-!
# Errors at the end of a source

Tokens that break off are reported at a place that is reckoned from the text of the last token
(`Cursor.endPosition`).  The last token comes from the last piece of its source that makes one
(`exists_lastPiece`).  The text of a mark or a word is all that stands in its piece, so that the
place is the one behind the piece; a quoted text has its quotes and escapes besides, and the place
is always too early (`Piece.after_source_cases`).
-/

namespace IntentPlan

/-! ## Places behind characters -/

namespace Position

theorem line_after (p : Position) (cs : List Char) :
    (p.after cs).line = p.line + cs.count '\n' := by
  induction cs generalizing p with
  | nil => simp [after]
  | cons c cs ih =>
      change ((p.next c).after cs).line = _
      rw [ih]
      by_cases hc : c = '\n'
      · subst hc
        rw [next_newline, List.count_cons_self]
        push_cast
        omega
      · rw [next_of_ne hc, List.count_cons_of_ne hc]

/-- Without a newline the characters fill columns of one line. -/
theorem after_of_notMem {cs : List Char} (h : '\n' ∉ cs) (p : Position) :
    p.after cs = ⟨p.line, p.column + cs.length⟩ := by
  induction cs generalizing p with
  | nil => simp [after]
  | cons c cs ih =>
      have hc : c ≠ '\n' := fun he => h (he ▸ List.mem_cons_self)
      have hcs : '\n' ∉ cs := fun hmem => h (List.mem_cons_of_mem c hmem)
      change (p.next c).after cs = _
      rw [ih hcs, next_of_ne hc]
      simp only [List.length_cons, mk.injEq, true_and]
      push_cast
      omega

theorem Before.ne {p q : Position} (h : p.Before q) : p ≠ q := by
  rintro rfl
  simp [Before] at h

end Position

namespace Token

/-! ## Pieces and the texts of their tokens -/

theorem newline_ne_of_isWordChar {c : Char} (h : isWordChar c = true) : '\n' ≠ c := by
  rintro rfl
  exact absurd h (by decide)

theorem length_map_char_le (glyphs : List Glyph) :
    (glyphs.map Glyph.char).length ≤ (glyphs.flatMap Glyph.source).length := by
  induction glyphs with
  | nil => simp
  | cons g glyphs ih =>
      have hg : 1 ≤ g.source.length := by cases g <;> simp [Glyph.source]
      rw [List.map_cons, List.flatMap_cons, List.length_cons, List.length_append]
      omega

/-- The place that is reckoned from the text of a token. -/
def reckoned (p : Position) (text : String) : Position := ⟨p.line, p.column + text.length⟩

/-- A text on one line is what it is reckoned to be. -/
theorem after_eq_reckoned {cs : List Char} (h : '\n' ∉ cs) (p : Position) :
    p.after cs = reckoned p (String.ofList cs) := by
  rw [Position.after_of_notMem h, reckoned, String.length_ofList]

/-- The quotes count on one line, and over several lines the place is on a later one. -/
theorem reckoned_before_quoted (quote : Char) (glyphs : List Glyph) (closed : Bool)
    (p : Position) :
    (reckoned p (String.ofList (glyphs.map Glyph.char))).Before
      (p.after (Piece.quoted quote glyphs closed).source) := by
  by_cases hlines : '\n' ∈ (Piece.quoted quote glyphs closed).source
  · have hcount := List.count_pos_iff.2 hlines
    left
    rw [Position.line_after]
    change p.line < _
    omega
  · have hlength := length_map_char_le glyphs
    right
    rw [Position.after_of_notMem hlines, reckoned, String.length_ofList]
    refine ⟨rfl, ?_⟩
    simp only [Piece.source, List.length_cons, List.length_append]
    push_cast
    omega

/-- Marks and words are their own texts.  A quoted text is more than its token tells. -/
theorem Piece.after_source_cases {piece : Piece} (hproper : piece.IsProper) {kind : Kind}
    {text : String} (htoken : piece.token? = some (kind, text)) (p : Position) :
    (kind ≠ .string ∧ reckoned p text = p.after piece.source) ∨
      (kind = .string ∧ (reckoned p text).Before (p.after piece.source)) := by
  cases piece with
  | space c => cases htoken
  | comment body => cases htoken
  | stray c => cases htoken
  | mark kind' c =>
      cases htoken
      left
      have hmark := eq_of_punctuation?_eq_some hproper
      refine ⟨?_, (after_eq_reckoned ?_ p).symm⟩
      · rintro rfl
        rcases hmark with rfl | rfl | rfl | rfl | rfl | rfl <;> cases hproper
      · rcases hmark with rfl | rfl | rfl | rfl | rfl | rfl <;> decide
  | word c more =>
      cases htoken
      left
      refine ⟨?_, (after_eq_reckoned ?_ p).symm⟩
      · split <;> decide
      · intro hmem
        rcases List.mem_cons.1 hmem with rfl | hmore
        · exact absurd hproper.1 (by decide)
        · exact newline_ne_of_isWordChar (hproper.2 _ hmore) rfl
  | quoted quote glyphs closed =>
      cases htoken
      exact .inr ⟨rfl, reckoned_before_quoted quote glyphs closed p⟩

/-! ## The last token of a source -/

/-- A piece stands behind the pieces before it. -/
theorem eq_after_of_locate {p q : Position} {ps : List Piece} {piece : Piece}
    {front back : List (Piece × Position)} (h : locate p ps = front ++ (piece, q) :: back) :
    ps = front.map Prod.fst ++ piece :: back.map Prod.fst ∧
      q = p.after ((front.map Prod.fst).flatMap Piece.source) := by
  have hps : ps = front.map Prod.fst ++ piece :: back.map Prod.fst := by
    rw [← map_fst_locate p ps, h, List.map_append, List.map_cons]
  refine ⟨hps, ?_⟩
  rw [hps, locate_append, locate] at h
  have hlength : (locate p (front.map Prod.fst)).length = front.length := by
    rw [← List.length_map (f := Prod.fst), map_fst_locate, List.length_map]
  have hrest := (List.append_inj h hlength).2
  exact (Prod.mk.inj (List.cons.inj hrest).1).2.symm

/-- The last token is made by a piece, and by none that comes after it. -/
theorem exists_lastPiece {source : String} {t : Token} (h : (scan source).getLast? = some t) :
    ∃ front piece back, pieces source.toList = front ++ piece :: back ∧
      (∀ other ∈ back, other.token? = none) ∧ piece.token? = some (t.kind, t.text) ∧
      t.pos = .behind (front.flatMap Piece.source) := by
  obtain ⟨before, hbefore⟩ := List.getLast?_eq_some_iff.1 h
  rw [scan] at hbefore
  obtain ⟨front, rest, hlocated, -, hlast⟩ := List.filterMap_eq_append_iff.1 hbefore
  obtain ⟨skipped, ⟨piece, q⟩, back, rfl, -, hpiece, hback⟩ := List.filterMap_eq_cons_iff.1 hlast
  rw [← List.append_assoc] at hlocated
  obtain ⟨hpieces, hplace⟩ := eq_after_of_locate hlocated
  refine ⟨_, piece, back.map Prod.fst, hpieces, ?_, ?_, ?_⟩
  · intro other hother
    obtain ⟨⟨_, r⟩, hmem, rfl⟩ := List.mem_map.1 hother
    exact Option.map_eq_none_iff.1 (List.filterMap_eq_nil_iff.1 hback _ hmem)
  · obtain ⟨⟨kind, text⟩, htoken, rfl⟩ := Option.map_eq_some_iff.1 hpiece
    exact htoken
  · rw [pos_of_tokenAt? hpiece, hplace, Position.after_start]

end Token

namespace Declaration

open Token (Tiles Piece tokenize)

/-- An error for want of a token has the place that is reckoned from the last token. -/
theorem pos_of_read_error {tokens : List Token} {e : ParseError} {t : Token}
    (h : ofTokens tokens = .error e) (hend : e.got = none) (hlast : tokens.getLast? = some t) :
    e.pos = Token.reckoned t.pos t.text := by
  rcases hread : read (.ofTokens tokens) with ⟨result, c⟩
  obtain rfl : result = .error e := by rw [← h, ofTokens, hread]
  obtain ⟨htokens, ⟨wanted, rfl⟩, -⟩ := isBlocked_of_read_error hread
  have hpeek : c.peek = none := hend
  simp only [Cursor.fail, hpeek, Cursor.endPosition, htokens, hlast]
  rfl

/-- Where the tokens of a source break off, the error is placed as many columns behind the start of
the last token as its text has characters.  This is behind the last character of the token exactly
if it is not a quoted text.  Behind a quoted text the place is too early. -/
theorem parse_error_behind_last_iff {strict : Bool} {source : String} {s s₁ s₂ : Session}
    {tokens : List Token} {e : ParseError}
    (htokens : (tokenize strict source).outcome s = (.ok tokens, s₁)) (hne : tokens ≠ [])
    (herror : ((parse tokens).outcome s₂).1 = .error e) (hend : e.got = none) :
    ∃ front piece back kind text, Tiles source.toList (front ++ piece :: back) ∧
      (∀ other ∈ back, other.token? = none) ∧ piece.token? = some (kind, text) ∧
      tokens.getLast? = some ⟨kind, text, .behind (front.flatMap Piece.source)⟩ ∧
      e.pos = Token.reckoned (.behind (front.flatMap Piece.source)) text ∧
      (e.pos = .behind (front.flatMap Piece.source ++ piece.source) ↔ kind ≠ .string) ∧
      (kind = .string → e.pos.Before (.behind (front.flatMap Piece.source ++ piece.source))) := by
  obtain rfl := Token.eq_scan_of_outcome_tokenize htokens
  obtain ⟨t, hlast⟩ : ∃ t, (Token.scan source).getLast? = some t :=
    ⟨_, List.getLast?_eq_some_getLast hne⟩
  obtain ⟨front, piece, back, hpieces, hback, htoken, hplace⟩ := Token.exists_lastPiece hlast
  rw [outcome_parse_fst] at herror
  have hpos := pos_of_read_error herror hend hlast
  have hmem : piece ∈ Token.pieces source.toList := by simp [hpieces]
  have hproper := Token.isProper_of_mem_pieces hmem
  have hcases := Piece.after_source_cases hproper htoken t.pos
  rw [← hpos, hplace, Position.behind_after] at hcases
  refine ⟨front, piece, back, t.kind, t.text, Token.tiles_iff.2 hpieces.symm, hback, htoken, ?_, ?_,
    ?_, ?_⟩
  · rw [hlast, ← hplace]
  · rw [hpos, hplace]
  · rcases hcases with ⟨hkind, heq⟩ | ⟨hkind, hbefore⟩
    · exact iff_of_true heq hkind
    · exact iff_of_false hbefore.ne (not_not.2 hkind)
  · intro hkind
    rcases hcases with ⟨hnot, -⟩ | ⟨-, hbefore⟩
    · exact absurd hkind hnot
    · exact hbefore

/-- A name breaks off on the second line, and a comment comes after it. -/
theorem parse_error_behind_last_iff_name :
    let source := "intent relay\n\x7b route # to"
    let s : Session := ⟨.constant ⟨0⟩, .constant "a", .constant 0.0, [], {}, ""⟩
    ∃ tokens s₁ e, (tokenize false source).outcome s = (.ok tokens, s₁) ∧ tokens ≠ [] ∧
      ((parse tokens).outcome s₁).1 = .error e ∧ e.got = none ∧ e.pos = ⟨2, 8⟩ ∧
      ∃ front piece back, Tiles source.toList (front ++ piece :: back) ∧
        piece.token? = some (.identifier, "route") ∧
        e.pos = .behind (front.flatMap Piece.source ++ piece.source) := by
  intro source s
  have hscan : Token.scan source = [⟨.keyword, "intent", ⟨1, 1⟩⟩,
      ⟨.identifier, "relay", ⟨1, 8⟩⟩, ⟨.brace, "\x7b", ⟨2, 1⟩⟩,
      ⟨.identifier, "route", ⟨2, 3⟩⟩] := by decide +kernel
  have htokens : (tokenize false source).outcome s = _ :=
    Token.outcome_tokenize_of_ok (fun h => by cases h) s
  have herror : ofTokens (Token.scan source) = .error ⟨.kind .colon, none, ⟨2, 8⟩⟩ := by
    rw [hscan]
    rfl
  have hne : Token.scan source ≠ [] := by
    rw [hscan]
    exact List.cons_ne_nil _ _
  obtain ⟨front, piece, back, kind, text, htiles, -, htoken, hlast, -, hiff, -⟩ :=
    parse_error_behind_last_iff htokens hne ((outcome_parse_fst _ s).trans herror) rfl
  rw [hscan] at hlast
  obtain ⟨rfl, rfl, -⟩ := Token.mk.inj (Option.some.inj hlast)
  exact ⟨_, _, _, htokens, hne, (outcome_parse_fst _ _).trans herror, rfl, rfl, front, piece, back,
    htiles, htoken, hiff.2 (by decide)⟩

/-- A quoted text is the last token, and the body is left open behind it.  The closing quote fills
the twentieth column, but the error is placed before it. -/
theorem parse_error_before_closing_quote :
    let source := "intent a \x7b goal: \"x\""
    let s : Session := ⟨.constant ⟨0⟩, .constant "a", .constant 0.0, [], {}, ""⟩
    ∃ tokens s₁ e front, (tokenize false source).outcome s = (.ok tokens, s₁) ∧ tokens ≠ [] ∧
      ((parse tokens).outcome s₁).1 = .error e ∧ e.got = none ∧
      Tiles source.toList (front ++ [.quoted '"' [.plain 'x'] true]) ∧
      tokens.getLast? = some ⟨.string, "x", .behind (front.flatMap Piece.source)⟩ ∧
      Position.behind (front.flatMap Piece.source ++ ['"', 'x', '"']) = ⟨1, 21⟩ ∧
      e.pos = ⟨1, 19⟩ := by
  intro source s
  have hscan : Token.scan source = [⟨.keyword, "intent", ⟨1, 1⟩⟩, ⟨.identifier, "a", ⟨1, 8⟩⟩,
      ⟨.brace, "\x7b", ⟨1, 10⟩⟩, ⟨.keyword, "goal", ⟨1, 12⟩⟩, ⟨.colon, ":", ⟨1, 16⟩⟩,
      ⟨.string, "x", ⟨1, 18⟩⟩] := by decide +kernel
  have herror : ofTokens (Token.scan source) = .error ⟨.entryOrClose, none, ⟨1, 19⟩⟩ := by
    rw [hscan]
    rfl
  have hpieces : Token.pieces source.toList = (Token.pieces source.toList).dropLast ++
      [.quoted '"' [.plain 'x'] true] := by decide +kernel
  have htokens : (tokenize false source).outcome s = _ :=
    Token.outcome_tokenize_of_ok (fun h => by cases h) s
  refine ⟨_, _, _, (Token.pieces source.toList).dropLast, htokens, ?_,
    (outcome_parse_fst _ _).trans herror, rfl, Token.tiles_iff.2 hpieces.symm, ?_, ?_, rfl⟩
  · rw [hscan]
    exact List.cons_ne_nil _ _
  · rw [hscan]
    decide +kernel
  · decide +kernel

end Declaration

end IntentPlan
