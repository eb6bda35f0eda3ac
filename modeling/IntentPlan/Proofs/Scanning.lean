import IntentPlan.Proofs.Outcome
import IntentPlan.Token.Scan

/-!
# Laws of scanning

How a source falls into pieces, and what of that shows in its tokens.  For every sort of piece there
is one equation that cuts it off the front of a source (`pieces_space` to `pieces_word`).  The kinds
and texts of the tokens and the faults depend on the pieces alone; their places are added afterwards
(`map_lexeme_scan`, `notices_eq_nil_iff`).
-/

namespace IntentPlan.Token

/-- What a token is without its place. -/
def lexeme (t : Token) : Kind × String := (t.kind, t.text)

/-! ## Cutting off a piece -/

@[simp] theorem pieces_nil : pieces [] = [] := by
  rw [pieces]

theorem pieces_cons (c : Char) (rest : List Char) :
    pieces (c :: rest) = (splitPiece c rest).1 :: pieces (splitPiece c rest).2 := by
  rw [pieces]

theorem pieces_space {c : Char} (h : isSpace c = true) (rest : List Char) :
    pieces (c :: rest) = .space c :: pieces rest := by
  rw [pieces_cons, splitPiece, if_pos h]

theorem pieces_comment {body : List Char} (h : '\n' ∉ body) (rest : List Char) :
    pieces ('#' :: (body ++ '\n' :: rest)) = .comment body :: pieces ('\n' :: rest) := by
  have hbody : ∀ c ∈ body, (c != '\n') = true := by
    intro c hc
    simpa using fun he : c = '\n' => h (he ▸ hc)
  rw [pieces_cons, splitPiece, if_neg (by decide), if_pos rfl,
    List.takeWhile_append_of_pos hbody, List.dropWhile_append_of_pos hbody]
  simp

theorem eq_of_punctuation?_eq_some {c : Char} {kind : Kind} (h : punctuation? c = some kind) :
    c = '\x7b' ∨ c = '\x7d' ∨ c = '[' ∨ c = ']' ∨ c = ':' ∨ c = ',' := by
  simp only [punctuation?, Bool.or_eq_true, decide_eq_true_eq] at h
  grind

theorem pieces_mark {c : Char} {kind : Kind} (h : punctuation? c = some kind) (rest : List Char) :
    pieces (c :: rest) = .mark kind c :: pieces rest := by
  have hsplit : splitPiece c rest = (.mark kind c, rest) := by
    rcases eq_of_punctuation?_eq_some h with rfl | rfl | rfl | rfl | rfl | rfl <;>
      obtain rfl := Option.some.inj h <;> rfl
  rw [pieces_cons, hsplit]

theorem splitQuoted_escaped (quote c : Char) {rest after : List Char} {glyphs : List Glyph}
    {closed : Bool} (h : splitQuoted quote rest = (glyphs, closed, after)) :
    splitQuoted quote ('\\' :: c :: rest) = (.escaped c :: glyphs, closed, after) := by
  rw [splitQuoted, h]

theorem splitQuoted_plain {quote c : Char} (hquote : c ≠ quote) (hc : c ≠ '\\')
    {rest after : List Char} {glyphs : List Glyph} {closed : Bool}
    (h : splitQuoted quote rest = (glyphs, closed, after)) :
    splitQuoted quote (c :: rest) = (.plain c :: glyphs, closed, after) := by
  rw [splitQuoted, if_neg hquote, h]
  exact fun _ _ he => absurd he hc

theorem splitQuoted_closed {quote : Char} (h : quote ≠ '\\') (rest : List Char) :
    splitQuoted quote (quote :: rest) = ([], true, rest) := by
  rw [splitQuoted, if_pos rfl]
  exact fun _ _ he => absurd he h

/-- A quote is neither white space nor the start of a comment nor a mark. -/
theorem splitPiece_quote {quote : Char} (h : isQuote quote = true) (rest : List Char) :
    splitPiece quote rest = (.quoted quote (splitQuoted quote rest).1 (splitQuoted quote rest).2.1,
      (splitQuoted quote rest).2.2) := by
  simp only [isQuote, Bool.or_eq_true, decide_eq_true_eq] at h
  rcases h with rfl | rfl <;> rfl

theorem pieces_quoted {quote : Char} (h : isQuote quote = true) {cs rest : List Char}
    {glyphs : List Glyph} {closed : Bool} (hsplit : splitQuoted quote cs = (glyphs, closed, rest)) :
    pieces (quote :: cs) = .quoted quote glyphs closed :: pieces rest := by
  rw [pieces_cons, splitPiece_quote h, hsplit]

/-- There is no further character of a word at the front. -/
def Apart (cs : List Char) : Prop := ∀ c ∈ cs.head?, isWordChar c = false

theorem Apart.cons {c : Char} (h : isWordChar c = false) (cs : List Char) : Apart (c :: cs) := by
  intro c' hc'
  obtain rfl : c = c' := by simpa using hc'
  exact h

/-- A word is none of the other pieces, and the character that starts it tells so. -/
theorem splitPiece_word {c : Char} (h : isWordStart c = true) (rest : List Char) :
    splitPiece c rest = (.word c (rest.takeWhile isWordChar), rest.dropWhile isWordChar) := by
  have hne : ∀ d : Char, isWordStart d = false → c ≠ d := by
    rintro d hd rfl
    rw [h] at hd
    cases hd
  have hspace : isSpace c = false := by
    simp [isSpace, hne ' ' (by decide), hne '\t' (by decide), hne '\r' (by decide),
      hne '\n' (by decide)]
  have hmark : punctuation? c = none := by
    simp [punctuation?, hne '\x7b' (by decide), hne '\x7d' (by decide), hne '[' (by decide),
      hne ']' (by decide), hne ':' (by decide), hne ',' (by decide)]
  have hquote : isQuote c = false := by
    simp [isQuote, hne '\'' (by decide), hne '"' (by decide)]
  simp [splitPiece, hspace, hne '#' (by decide), hmark, hquote, h]

theorem pieces_word {c : Char} {more rest : List Char} (h : isWordStart c = true)
    (hmore : ∀ d ∈ more, isWordChar d = true) (hrest : Apart rest) :
    pieces (c :: (more ++ rest)) = .word c more :: pieces rest := by
  rw [pieces_cons, splitPiece_word h, List.takeWhile_append_of_pos hmore,
    List.dropWhile_append_of_pos hmore]
  cases rest with
  | nil => simp
  | cons d rest =>
      have hd : isWordChar d = false := hrest d rfl
      simp [hd]

/-- A letter or an underscore, and then letters, digits and underscores. -/
def IsWord (s : String) : Prop :=
  ∃ c more, s.toList = c :: more ∧ isWordStart c = true ∧ ∀ d ∈ more, isWordChar d = true

theorem isWord_of_toList {s : String} (c : Char) (more : List Char) (h : s.toList = c :: more)
    (hc : isWordStart c = true) (hmore : more.all isWordChar = true) : IsWord s :=
  ⟨c, more, h, hc, List.all_eq_true.1 hmore⟩

/-- Words that are keywords make a token of a kind of their own. -/
def wordKind (s : String) : Kind := if s ∈ keywords then .keyword else .identifier

/-! ## What every piece is -/

/-- The characters of a piece are those that its sort allows. -/
def Piece.IsProper : Piece → Prop
  | .space c => isSpace c = true
  | .comment body => '\n' ∉ body
  | .mark kind c => punctuation? c = some kind
  | .quoted quote _ _ => isQuote quote = true
  | .word c more => isWordStart c = true ∧ ∀ d ∈ more, isWordChar d = true
  | .stray c => isSpace c = false ∧ isQuote c = false ∧ isWordStart c = false

theorem isProper_splitPiece (c : Char) (rest : List Char) : (splitPiece c rest).1.IsProper := by
  rw [splitPiece]
  split
  · rename_i hspace
    exact hspace
  · rename_i hspace
    split
    · intro hmem
      have hne := List.all_eq_true.1 List.all_takeWhile _ hmem
      simp at hne
    · split
      · rename_i kind hmark
        exact hmark
      · split
        · rename_i hquote
          exact hquote
        · rename_i hquote
          split
          · rename_i hstart
            exact ⟨hstart, List.all_eq_true.1 List.all_takeWhile⟩
          · rename_i hstart
            exact ⟨by simpa using hspace, by simpa using hquote, by simpa using hstart⟩

theorem isProper_of_mem_pieces {cs : List Char} {piece : Piece} (h : piece ∈ pieces cs) :
    piece.IsProper := by
  induction cs using pieces.induct with
  | case1 => simp at h
  | case2 c rest ih =>
      rw [pieces_cons] at h
      rcases List.mem_cons.1 h with rfl | hmem
      · exact isProper_splitPiece c rest
      · exact ih hmem

/-! ## Sources that are taken apart from the front

`Scans` says of some characters that scanning takes them apart in the same way, without a fault,
whatever comes after them.  It is closed under concatenation; only a word needs to know the
character after it. -/

/-- The characters make these tokens, whatever comes after them. -/
def Scans (cs : List Char) (tokens : List (Kind × String)) : Prop :=
  ∃ ps : List Piece, (∀ rest, pieces (cs ++ rest) = ps ++ pieces rest) ∧
    ps.filterMap Piece.token? = tokens ∧ ∀ piece ∈ ps, piece.fault? = none

namespace Scans

theorem nil : Scans [] [] := ⟨[], fun _ => rfl, rfl, by simp⟩

theorem append {cs cs' : List Char} {ts ts' : List (Kind × String)} (h : Scans cs ts)
    (h' : Scans cs' ts') : Scans (cs ++ cs') (ts ++ ts') := by
  obtain ⟨ps, hps, htokens, hfaults⟩ := h
  obtain ⟨ps', hps', htokens', hfaults'⟩ := h'
  refine ⟨ps ++ ps', ?_, ?_, ?_⟩
  · intro rest
    rw [List.append_assoc, hps, hps', List.append_assoc]
  · rw [List.filterMap_append, htokens, htokens']
  · intro piece hpiece
    rcases List.mem_append.1 hpiece with hmem | hmem
    · exact hfaults piece hmem
    · exact hfaults' piece hmem

theorem space {c : Char} (h : isSpace c = true) : Scans [c] [] :=
  ⟨[.space c], fun rest => pieces_space h rest, rfl, by simp [Piece.fault?]⟩

theorem comment {body : List Char} (h : '\n' ∉ body) : Scans ('#' :: (body ++ ['\n'])) [] := by
  refine ⟨[.comment body, .space '\n'], fun rest => ?_, rfl, by simp [Piece.fault?]⟩
  have hshape : '#' :: (body ++ ['\n']) ++ rest = '#' :: (body ++ '\n' :: rest) := by simp
  have hnewline : isSpace '\n' = true := by decide
  rw [hshape, pieces_comment h, pieces_space hnewline]
  rfl

theorem mark {c : Char} {kind : Kind} (h : punctuation? c = some kind) :
    Scans [c] [(kind, String.ofList [c])] :=
  ⟨[.mark kind c], fun rest => pieces_mark h rest, rfl, by simp [Piece.fault?]⟩

theorem quoted {quote : Char} (h : isQuote quote = true) {cs : List Char} {glyphs : List Glyph}
    (hsplit : ∀ rest, splitQuoted quote (cs ++ rest) = (glyphs, true, rest)) :
    Scans (quote :: cs) [(.string, String.ofList (glyphs.map Glyph.char))] :=
  ⟨[.quoted quote glyphs true], fun rest => pieces_quoted h (hsplit rest), rfl,
    by simp [Piece.fault?]⟩

theorem word {s : String} (hs : IsWord s) {cs : List Char} {ts : List (Kind × String)}
    (hcs : ∀ rest, Apart (cs ++ rest)) (h : Scans cs ts) :
    Scans (s.toList ++ cs) ((wordKind s, s) :: ts) := by
  obtain ⟨c, more, hchars, hc, hmore⟩ := hs
  obtain ⟨ps, hps, htokens, hfaults⟩ := h
  refine ⟨.word c more :: ps, ?_, ?_, ?_⟩
  · intro rest
    rw [hchars, List.append_assoc, List.cons_append, pieces_word hc hmore (hcs rest), hps]
    rfl
  · have htext : String.ofList (c :: more) = s := by rw [← hchars, String.ofList_toList]
    rw [List.filterMap_cons, htokens]
    simp only [Piece.token?, htext]
    rfl
  · intro piece hpiece
    rcases List.mem_cons.1 hpiece with rfl | hmem
    · rfl
    · exact hfaults piece hmem

end Scans

/-! ## Tokens and faults of the pieces -/

theorem map_lexeme_locate (p : Position) (ps : List Piece) :
    ((locate p ps).filterMap tokenAt?).map lexeme = ps.filterMap Piece.token? := by
  induction ps generalizing p with
  | nil => rfl
  | cons piece ps ih =>
      rw [locate, List.filterMap_cons, List.filterMap_cons]
      cases h : piece.token? with
      | none => simp [tokenAt?, h, ih]
      | some kt => simp [tokenAt?, h, ih, lexeme]

theorem map_lexeme_scan (source : String) :
    (scan source).map lexeme = (pieces source.toList).filterMap Piece.token? :=
  map_lexeme_locate .start _

theorem notices_eq_nil_iff {source : String} :
    notices source = [] ↔ ∀ piece ∈ pieces source.toList, piece.fault? = none := by
  have h : ∀ (ps : List Piece) (p : Position), (locate p ps).filterMap noticeAt? = [] ↔
      ∀ piece ∈ ps, piece.fault? = none := by
    intro ps
    induction ps with
    | nil => simp [locate]
    | cons piece ps ih =>
        intro p
        rw [locate, List.filterMap_cons]
        cases hf : piece.fault? with
        | none => simp [noticeAt?, hf, ih]
        | some fault => simp [noticeAt?, hf]
  exact h _ _

theorem Scans.map_lexeme {cs : List Char} {ts : List (Kind × String)} (h : Scans cs ts) :
    (scan (String.ofList cs)).map lexeme = ts := by
  obtain ⟨ps, hps, htokens, -⟩ := h
  have hpieces := hps []
  rw [pieces_nil, List.append_nil, List.append_nil] at hpieces
  rw [map_lexeme_scan, String.toList_ofList, hpieces, htokens]

theorem Scans.notices_eq_nil {cs : List Char} {ts : List (Kind × String)} (h : Scans cs ts) :
    notices (String.ofList cs) = [] := by
  obtain ⟨ps, hps, -, hfaults⟩ := h
  have hpieces := hps []
  rw [pieces_nil, List.append_nil, List.append_nil] at hpieces
  rw [notices_eq_nil_iff, String.toList_ofList, hpieces]
  exact hfaults

/-- The tokens that are words have the texts of words, and these decide which of them are
keywords. -/
theorem word_of_mem_scan {source : String} {t : Token} (ht : t ∈ scan source)
    (hkind : t.kind = .identifier ∨ t.kind = .keyword) :
    IsWord t.text ∧ t.kind = wordKind t.text := by
  have hmem : lexeme t ∈ (scan source).map lexeme := List.mem_map_of_mem ht
  rw [map_lexeme_scan] at hmem
  obtain ⟨piece, hpiece, htoken⟩ := List.mem_filterMap.1 hmem
  have hproper := isProper_of_mem_pieces hpiece
  cases piece with
  | space c => cases htoken
  | comment body => cases htoken
  | stray c => cases htoken
  | mark kind c =>
      obtain ⟨rfl, -⟩ := Prod.mk.inj (Option.some.inj htoken)
      rcases eq_of_punctuation?_eq_some hproper with rfl | rfl | rfl | rfl | rfl | rfl <;>
        rcases hkind with hk | hk <;> rw [hk] at hproper <;> cases hproper
  | quoted quote glyphs closed =>
      obtain ⟨hk, -⟩ := Prod.mk.inj (Option.some.inj htoken)
      rcases hkind with hk' | hk' <;> rw [hk'] at hk <;> cases hk
  | word c more =>
      obtain ⟨hkind, htext⟩ := Prod.mk.inj (Option.some.inj htoken)
      refine ⟨⟨c, more, by rw [← htext, String.toList_ofList], hproper.1, hproper.2⟩, ?_⟩
      rw [← hkind, ← htext]
      rfl

theorem isWord_of_mem_scan {source : String} {t : Token} (ht : t ∈ scan source)
    (hkind : t.kind = .identifier ∨ t.kind = .keyword) : IsWord t.text :=
  (word_of_mem_scan ht hkind).1

/-! ## Outcomes -/

/-- A scan that stops at the first fault gives the first notice of one that goes on, or else the
same tokens. -/
theorem scanStrictFrom_eq (p : Position) (cs : List Char) :
    scanStrictFrom p cs = ((locate p (pieces cs)).filterMap noticeAt?).head?.elim
      (.ok ((locate p (pieces cs)).filterMap tokenAt?)) .error := by
  induction cs using pieces.induct generalizing p with
  | case1 =>
      rw [scanStrictFrom, pieces_nil]
      rfl
  | case2 c rest ih =>
      rw [scanStrictFrom, pieces_cons, locate, List.filterMap_cons, List.filterMap_cons]
      generalize (splitPiece c rest).1 = piece at ih ⊢
      cases hnotice : noticeAt? (piece, p) with
      | some notice => rfl
      | none =>
          simp only [ih]
          cases ((locate (p.after piece.source) (pieces (splitPiece c rest).2)).filterMap
            noticeAt?).head? with
          | some notice => rfl
          | none => cases tokenAt? (piece, p) <;> rfl

theorem scanStrict_eq (source : String) :
    scanStrict source = (notices source).head?.elim (.ok (scan source)) .error :=
  scanStrictFrom_eq .start source.toList

theorem scanStrict_eq_ok_iff {source : String} {tokens : List Token} :
    scanStrict source = .ok tokens ↔ notices source = [] ∧ tokens = scan source := by
  rw [scanStrict_eq]
  cases notices source with
  | nil => simp [eq_comm]
  | cons n ns => simp

theorem outcome_tokenize_of_ok {strict : Bool} {source : String}
    (h : strict = true → notices source = []) (s : Session) :
    (tokenize strict source).outcome s =
      (.ok (scan source), { s with journal := s.journal ++ records source }) := by
  have hscan : (if strict then scanStrict source else .ok (scan source)) = .ok (scan source) := by
    cases strict with
    | false => rfl
    | true => exact scanStrict_eq_ok_iff.2 ⟨h rfl, rfl⟩
  rw [tokenize, Work.outcome_bind, Work.outcome_ofExcept, hscan]
  rfl

theorem outcome_tokenize_of_error {source : String} {n : Notice}
    (h : scanStrict source = .error n) (s : Session) :
    (tokenize true source).outcome s = (.error n, s) := by
  rw [tokenize, Work.outcome_bind, Work.outcome_ofExcept, if_pos rfl, h]

/-- Whether faults are refused or not, the tokens are the same. -/
theorem eq_scan_of_outcome_tokenize {strict : Bool} {source : String} {s s' : Session}
    {tokens : List Token} (h : (tokenize strict source).outcome s = (.ok tokens, s')) :
    tokens = scan source := by
  cases strict with
  | false =>
      rw [outcome_tokenize_of_ok (fun hstrict => by cases hstrict)] at h
      cases h
      rfl
  | true =>
      cases hscan : scanStrict source with
      | error n =>
          rw [outcome_tokenize_of_error hscan] at h
          cases h
      | ok tokens' =>
          obtain ⟨hnotices, -⟩ := scanStrict_eq_ok_iff.1 hscan
          rw [outcome_tokenize_of_ok fun _ => hnotices] at h
          cases h
          rfl

theorem outcome_tokenize_strict (source : String) (s : Session) :
    ((tokenize true source).outcome s).1 = scanStrict source := by
  cases h : scanStrict source with
  | ok tokens =>
      obtain ⟨hnotices, rfl⟩ := scanStrict_eq_ok_iff.1 h
      rw [outcome_tokenize_of_ok fun _ => hnotices]
  | error n => rw [outcome_tokenize_of_error h]

end IntentPlan.Token
