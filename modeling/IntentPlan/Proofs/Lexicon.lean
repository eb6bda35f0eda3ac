import IntentPlan.Proofs.Lowering
import IntentPlan.Proofs.Tiling

/-!
# The lexical grammar

The stretches of a source that belong together are said here from the characters alone
(`Segment.Stands`): how a stretch of each sort is written, what may follow it, and which token or
fault it gives.  Nothing of this refers to the scan.  A source is divided in one way only
(`divides_iff`), and the scan gives the tokens of this division, each at the place that is counted
from all the characters before it (`filterMap_tokenAt?_placed`).
-/

namespace IntentPlan

namespace Token

/-! ## Stretches of characters -/

/-- The characters that are tokens by themselves. -/
def marks : List (Char × Kind) :=
  [('\x7b', .brace), ('\x7d', .brace), ('[', .array), (']', .array), (':', .colon), (',', .comma)]

def IsLetter (c : Char) : Prop := c = '_' ∨ 'a' ≤ c ∧ c ≤ 'z' ∨ 'A' ≤ c ∧ c ≤ 'Z'

def IsLetterOrDigit (c : Char) : Prop := IsLetter c ∨ '0' ≤ c ∧ c ≤ '9'

/-- The words that are no identifiers. -/
def reserved : List String :=
  ["intent", "goal", "capabilities", "constraints", "architecture", "success_criteria"]

/-- How a text is written between quotes: a backslash stands before the quote, before another
backslash, and before any other character that is to be taken as it is. -/
inductive Writes (quote : Char) : List Char → List Char → Prop
  | nil : Writes quote [] []
  | plain {c : Char} {written meant : List Char} (hquote : c ≠ quote) (hback : c ≠ '\\')
      (h : Writes quote written meant) : Writes quote (c :: written) (c :: meant)
  | escaped (c : Char) {written meant : List Char} (h : Writes quote written meant) :
      Writes quote ('\\' :: c :: written) (c :: meant)

/-- Characters that belong together, with the token and the fault that they give. -/
structure Segment where
  chars : List Char
  token? : Option (Kind × String) := none
  fault? : Option Fault := none

/-- A stretch may stand before the rest of a source. -/
inductive Segment.Stands : Segment → List Char → Prop
  | space {c : Char} {rest : List Char} (hc : c ∈ [' ', '\t', '\r', '\n']) :
      Stands ⟨[c], none, none⟩ rest
  | comment {body rest : List Char} (hbody : '\n' ∉ body) (hrest : ∀ c ∈ rest.head?, c = '\n') :
      Stands ⟨'#' :: body, none, none⟩ rest
  | mark {c : Char} {kind : Kind} {rest : List Char} (hc : (c, kind) ∈ marks) :
      Stands ⟨[c], some (kind, String.ofList [c]), none⟩ rest
  | quoted {quote : Char} {written meant rest : List Char} (hquote : quote ∈ ['\'', '"'])
      (h : Writes quote written meant) :
      Stands ⟨quote :: (written ++ [quote]), some (.string, String.ofList meant), none⟩ rest
  | unclosed {quote : Char} {written meant : List Char} (hquote : quote ∈ ['\'', '"'])
      (h : Writes quote written meant) :
      Stands ⟨quote :: written, some (.string, String.ofList meant), some .unterminated⟩ []
  /-- A backslash at the very end of the source stands for itself. -/
  | brokenOff {quote : Char} {written meant : List Char} (hquote : quote ∈ ['\'', '"'])
      (h : Writes quote written meant) :
      Stands ⟨quote :: (written ++ ['\\']), some (.string, String.ofList (meant ++ ['\\'])),
        some .unterminated⟩ []
  | keyword {c : Char} {more rest : List Char} (hc : IsLetter c)
      (hmore : ∀ d ∈ more, IsLetterOrDigit d) (hrest : ∀ d ∈ rest.head?, ¬IsLetterOrDigit d)
      (hword : String.ofList (c :: more) ∈ reserved) :
      Stands ⟨c :: more, some (.keyword, String.ofList (c :: more)), none⟩ rest
  | identifier {c : Char} {more rest : List Char} (hc : IsLetter c)
      (hmore : ∀ d ∈ more, IsLetterOrDigit d) (hrest : ∀ d ∈ rest.head?, ¬IsLetterOrDigit d)
      (hword : String.ofList (c :: more) ∉ reserved) :
      Stands ⟨c :: more, some (.identifier, String.ofList (c :: more)), none⟩ rest
  | stray {c : Char} {rest : List Char} (hspace : c ∉ [' ', '\t', '\r', '\n'])
      (hcomment : c ≠ '#') (hmark : ∀ kind, (c, kind) ∉ marks) (hquote : c ∉ ['\'', '"'])
      (hletter : ¬IsLetter c) : Stands ⟨[c], none, some (.unexpected c)⟩ rest

/-- The stretches follow each other without gaps. -/
inductive Divides : List Char → List Segment → Prop
  | nil : Divides [] []
  | cons {g : Segment} {rest : List Char} {gs : List Segment} (hstands : g.Stands rest)
      (hrest : Divides rest gs) : Divides (g.chars ++ rest) (g :: gs)

theorem Segment.Stands.chars_ne_nil {g : Segment} {rest : List Char} (h : g.Stands rest) :
    g.chars ≠ [] := by
  cases h <;> exact List.cons_ne_nil _ _

/-! ## Pieces as stretches -/

theorem mem_marks_iff {c : Char} {kind : Kind} :
    (c, kind) ∈ marks ↔ punctuation? c = some kind := by
  constructor
  · intro h
    simp only [marks, List.mem_cons, Prod.mk.injEq, List.not_mem_nil, or_false] at h
    rcases h with
      ⟨rfl, rfl⟩ | ⟨rfl, rfl⟩ | ⟨rfl, rfl⟩ | ⟨rfl, rfl⟩ | ⟨rfl, rfl⟩ | ⟨rfl, rfl⟩ <;> rfl
  · intro h
    rcases eq_of_punctuation?_eq_some h with rfl | rfl | rfl | rfl | rfl | rfl <;>
      (obtain rfl := Option.some.inj h; simp [marks])

theorem isLetter_iff {c : Char} : IsLetter c ↔ isWordStart c = true := by
  simp [IsLetter, isWordStart, or_assoc]

theorem isLetterOrDigit_iff {c : Char} : IsLetterOrDigit c ↔ isWordChar c = true := by
  simp [IsLetterOrDigit, isLetter_iff, isWordChar]

theorem writes_iff {quote : Char} {written meant : List Char} :
    Writes quote written meant ↔ ∃ glyphs : List Glyph, written = glyphs.flatMap Glyph.source ∧
      meant = glyphs.map Glyph.char ∧ .plain quote ∉ glyphs ∧ .plain '\\' ∉ glyphs := by
  constructor
  · intro h
    induction h with
    | nil => exact ⟨[], rfl, rfl, by simp, by simp⟩
    | @plain c _ _ hquote hback _ ih =>
        obtain ⟨glyphs, rfl, rfl, hnoQuote, hnoBack⟩ := ih
        exact ⟨.plain c :: glyphs, rfl, rfl, by simp [hnoQuote, hquote.symm],
          by simp [hnoBack, hback.symm]⟩
    | escaped c _ ih =>
        obtain ⟨glyphs, rfl, rfl, hnoQuote, hnoBack⟩ := ih
        exact ⟨.escaped c :: glyphs, rfl, rfl, by simp [hnoQuote], by simp [hnoBack]⟩
  · rintro ⟨glyphs, rfl, rfl, hnoQuote, hnoBack⟩
    induction glyphs with
    | nil => exact .nil
    | cons g glyphs ih =>
        rw [List.mem_cons, not_or] at hnoQuote hnoBack
        have hrest := ih hnoQuote.2 hnoBack.2
        cases g with
        | escaped c => exact .escaped c hrest
        | plain c =>
            exact .plain (fun hc => hnoQuote.1 (hc ▸ rfl)) (fun hc => hnoBack.1 (hc ▸ rfl)) hrest

/-- Between quotes a backslash stands for itself at most once, at the end of what is not closed. -/
theorem Quotes.cases {quote : Char} {glyphs : List Glyph} {closed : Bool} {rest : List Char}
    (h : Quotes quote glyphs closed rest) :
    .plain '\\' ∉ glyphs ∨
      closed = false ∧ ∃ front, glyphs = front ++ [.plain '\\'] ∧ .plain '\\' ∉ front := by
  by_cases hback : .plain '\\' ∈ glyphs
  · obtain ⟨front, back, rfl⟩ := List.append_of_mem hback
    obtain ⟨rfl, rfl⟩ := h.backslash_last front back rfl
    refine .inr ⟨rfl, front, rfl, ?_⟩
    intro hmem
    obtain ⟨front, back, rfl⟩ := List.append_of_mem hmem
    have hback := (h.backslash_last front (back ++ [.plain '\\']) (by simp)).1
    exact List.append_ne_nil_of_right_ne_nil back (List.cons_ne_nil _ _) hback
  · exact .inl hback

theorem quotes_of_notMem {quote : Char} {glyphs : List Glyph} {closed : Bool} {rest : List Char}
    (hquote : .plain quote ∉ glyphs) (hback : .plain '\\' ∉ glyphs)
    (hrest : closed = false → rest = []) : Quotes quote glyphs closed rest := by
  refine ⟨hquote, ?_, hrest⟩
  rintro front back rfl
  simp at hback

theorem quotes_brokenOff {quote : Char} (hquote : quote ∈ ['\'', '"']) {glyphs : List Glyph}
    (hnoQuote : .plain quote ∉ glyphs) (hback : .plain '\\' ∉ glyphs) :
    Quotes quote (glyphs ++ [.plain '\\']) false [] := by
  have hne : quote ≠ '\\' := by
    rintro rfl
    exact absurd hquote (by decide)
  refine ⟨by simp [hnoQuote, hne], ?_, fun _ => rfl⟩
  intro front back heq
  -- the backslash that is found is the last glyph, since there is none before it
  rcases List.append_eq_append_iff.1 heq with ⟨between, rfl, hlast⟩ | ⟨between, rfl, hlast⟩
  · cases between with
    | nil => exact ⟨(List.cons.inj hlast).2.symm, rfl⟩
    | cons g between => simp at hlast
  · cases between with
    | nil => exact ⟨(List.cons.inj hlast).2, rfl⟩
    | cons g between =>
        obtain ⟨rfl, -⟩ := List.cons.inj hlast
        simp at hback

/-- A piece as a stretch of characters with what it gives. -/
def Piece.segment (piece : Piece) : Segment := ⟨piece.source, piece.token?, piece.fault?⟩

namespace Piece

theorem segment_unclosed (quote : Char) (glyphs : List Glyph) :
    (quoted quote glyphs false).segment = ⟨quote :: glyphs.flatMap Glyph.source,
      some (.string, String.ofList (glyphs.map Glyph.char)), some .unterminated⟩ := by
  simp [segment, source, token?, fault?]

theorem segment_brokenOff (quote : Char) (glyphs : List Glyph) :
    (quoted quote (glyphs ++ [.plain '\\']) false).segment =
      ⟨quote :: (glyphs.flatMap Glyph.source ++ ['\\']),
        some (.string, String.ofList (glyphs.map Glyph.char ++ ['\\'])), some .unterminated⟩ := by
  rw [segment_unclosed, List.flatMap_append, List.map_append]
  rfl

theorem segment_keyword {c : Char} {more : List Char} (h : String.ofList (c :: more) ∈ reserved) :
    (word c more).segment = ⟨c :: more, some (.keyword, String.ofList (c :: more)), none⟩ := by
  have hword : String.ofList (c :: more) ∈ keywords := h
  simp only [segment, source, token?, fault?, if_pos hword]

theorem segment_identifier {c : Char} {more : List Char}
    (h : String.ofList (c :: more) ∉ reserved) :
    (word c more).segment = ⟨c :: more, some (.identifier, String.ofList (c :: more)), none⟩ := by
  have hword : String.ofList (c :: more) ∉ keywords := h
  simp only [segment, source, token?, fault?, if_neg hword]

end Piece

/-- What is between quotes, and whether the source ends in it, tells the sort of the stretch. -/
theorem stands_quoted {quote : Char} {glyphs : List Glyph} {closed : Bool} {rest : List Char}
    (hquote : quote ∈ ['\'', '"']) (h : Quotes quote glyphs closed rest) :
    (Piece.quoted quote glyphs closed).segment.Stands rest := by
  rcases h.cases with hback | ⟨rfl, front, rfl, hback⟩
  · have hwrites : Writes quote _ _ := writes_iff.2 ⟨glyphs, rfl, rfl, h.plain_notMem, hback⟩
    cases closed with
    | true => exact .quoted hquote hwrites
    | false =>
        obtain rfl := h.rest_eq_nil rfl
        rw [Piece.segment_unclosed]
        exact .unclosed hquote hwrites
  · obtain rfl := h.rest_eq_nil rfl
    have hnoQuote : .plain quote ∉ front :=
      fun hmem => h.plain_notMem (List.mem_append_left _ hmem)
    rw [Piece.segment_brokenOff]
    exact .brokenOff hquote (writes_iff.2 ⟨front, rfl, rfl, hnoQuote, hback⟩)

theorem fits_word_iff {c : Char} {more rest : List Char} :
    (Piece.word c more).Fits rest ↔ IsLetter c ∧ (∀ d ∈ more, IsLetterOrDigit d) ∧
      ∀ d ∈ rest.head?, ¬IsLetterOrDigit d := by
  simp only [Piece.Fits, Apart, isLetter_iff, isLetterOrDigit_iff, Bool.not_eq_true]

theorem fits_stray_iff {c : Char} {rest : List Char} :
    (Piece.stray c).Fits rest ↔ c ∉ [' ', '\t', '\r', '\n'] ∧ c ≠ '#' ∧
      (∀ kind, (c, kind) ∉ marks) ∧ c ∉ ['\'', '"'] ∧ ¬IsLetter c := by
  simp only [Piece.Fits, mem_spaces_iff, mem_marks_iff, mem_quotes_iff, isLetter_iff,
    Bool.not_eq_true, Option.eq_none_iff_forall_ne_some, ne_eq]

/-- A piece that fits is a stretch of the grammar. -/
theorem Piece.Fits.stands {piece : Piece} {rest : List Char} (h : piece.Fits rest) :
    piece.segment.Stands rest := by
  cases piece with
  | space c => exact .space h
  | comment body => exact .comment h.1 h.2
  | mark kind c => exact .mark (mem_marks_iff.2 h)
  | quoted quote glyphs closed => exact stands_quoted h.1 h.2
  | word c more =>
      obtain ⟨hc, hmore, hrest⟩ := fits_word_iff.1 h
      by_cases hword : String.ofList (c :: more) ∈ reserved
      · rw [segment_keyword hword]
        exact .keyword hc hmore hrest hword
      · rw [segment_identifier hword]
        exact .identifier hc hmore hrest hword
  | stray c =>
      obtain ⟨hspace, hcomment, hmark, hquote, hletter⟩ := fits_stray_iff.1 h
      exact .stray hspace hcomment hmark hquote hletter

/-- Every stretch of the grammar is that of a piece. -/
theorem Segment.Stands.exists_piece {g : Segment} {rest : List Char} (h : g.Stands rest) :
    ∃ piece : Piece, piece.Fits rest ∧ piece.segment = g := by
  cases h with
  | @space c _ hc => exact ⟨.space c, hc, rfl⟩
  | @comment body _ hbody hrest => exact ⟨.comment body, ⟨hbody, hrest⟩, rfl⟩
  | @mark c kind _ hc => exact ⟨.mark kind c, mem_marks_iff.1 hc, rfl⟩
  | @quoted quote _ _ _ hquote hwrites =>
      obtain ⟨glyphs, rfl, rfl, hnoQuote, hback⟩ := writes_iff.1 hwrites
      exact ⟨.quoted quote glyphs true, ⟨hquote, quotes_of_notMem hnoQuote hback (by simp)⟩, rfl⟩
  | @unclosed quote _ _ hquote hwrites =>
      obtain ⟨glyphs, rfl, rfl, hnoQuote, hback⟩ := writes_iff.1 hwrites
      exact ⟨.quoted quote glyphs false, ⟨hquote, quotes_of_notMem hnoQuote hback fun _ => rfl⟩,
        Piece.segment_unclosed quote glyphs⟩
  | @brokenOff quote _ _ hquote hwrites =>
      obtain ⟨glyphs, rfl, rfl, hnoQuote, hback⟩ := writes_iff.1 hwrites
      exact ⟨.quoted quote (glyphs ++ [.plain '\\']) false,
        ⟨hquote, quotes_brokenOff hquote hnoQuote hback⟩, Piece.segment_brokenOff quote glyphs⟩
  | @keyword c more _ hc hmore hrest hword =>
      exact ⟨.word c more, fits_word_iff.2 ⟨hc, hmore, hrest⟩, Piece.segment_keyword hword⟩
  | @identifier c more _ hc hmore hrest hword =>
      exact ⟨.word c more, fits_word_iff.2 ⟨hc, hmore, hrest⟩, Piece.segment_identifier hword⟩
  | @stray c _ hspace hcomment hmark hquote hletter =>
      exact ⟨.stray c, fits_stray_iff.2 ⟨hspace, hcomment, hmark, hquote, hletter⟩, rfl⟩

/-- A source is divided in one way only. -/
theorem divides_iff {cs : List Char} {gs : List Segment} :
    Divides cs gs ↔ gs = (pieces cs).map Piece.segment := by
  constructor
  · intro h
    induction h with
    | nil => rw [pieces_nil, List.map_nil]
    | cons hstands _ ih =>
        obtain ⟨piece, hfits, rfl⟩ := hstands.exists_piece
        rw [Piece.segment, pieces_of_fits hfits, List.map_cons, ih]
        rfl
  · rintro rfl
    have htiles := tiles_pieces cs
    generalize pieces cs = ps at htiles
    induction htiles with
    | nil => exact .nil
    | cons hfits _ ih => exact .cons hfits.stands ih

/-! ## Places of stretches -/

/-- Each stretch with the place behind all the characters before it. -/
def placed (gs : List Segment) : List (Segment × Position) :=
  gs.zipIdx.map fun (g, n) => (g, .behind ((gs.take n).flatMap Segment.chars))

namespace Segment

/-- The token of a stretch at a place. -/
def tokenAt? (g : Segment) (p : Position) : Option Token :=
  g.token?.map fun (kind, text) => ⟨kind, text, p⟩

/-- The fault of a stretch at a place. -/
def noticeAt? (g : Segment) (p : Position) : Option Notice := g.fault?.map fun fault => ⟨fault, p⟩

end Segment

theorem map_segment_locate_behind (cs : List Char) (ps : List Piece) :
    (locate (.behind cs) ps).map (fun q => (q.1.segment, q.2)) =
      (ps.map Piece.segment).zipIdx.map fun (g, n) =>
        (g, .behind (cs ++ ((ps.map Piece.segment).take n).flatMap Segment.chars)) := by
  induction ps generalizing cs with
  | nil => rfl
  | cons piece ps ih =>
      rw [locate, Position.behind_after, List.map_cons, ih, List.map_cons, List.zipIdx_cons,
        List.zipIdx_succ, List.map_cons, List.map_map]
      simp [Function.comp_def, Piece.segment]

/-- Going on from piece to piece leads to the places that are counted from the start. -/
theorem map_segment_locate_start (ps : List Piece) :
    (locate .start ps).map (fun q => (q.1.segment, q.2)) = placed (ps.map Piece.segment) :=
  map_segment_locate_behind [] ps

theorem filterMap_tokenAt?_placed (source : String) :
    (placed ((pieces source.toList).map Piece.segment)).filterMap (fun q => q.1.tokenAt? q.2) =
      scan source := by
  rw [← map_segment_locate_start, List.filterMap_map]
  rfl

theorem filterMap_noticeAt?_placed (source : String) :
    (placed ((pieces source.toList).map Piece.segment)).filterMap (fun q => q.1.noticeAt? q.2) =
      notices source := by
  rw [← map_segment_locate_start, List.filterMap_map]
  rfl

theorem line_le_of_mem_placed {gs : List Segment} {q : Segment × Position} (h : q ∈ placed gs) :
    q.2.line ≤ (gs.flatMap Segment.chars).count '\n' + 1 := by
  obtain ⟨⟨_, n⟩, -, rfl⟩ := List.mem_map.1 h
  have hcount : (gs.flatMap Segment.chars).count '\n' =
      ((gs.take n).flatMap Segment.chars).count '\n' +
        ((gs.drop n).flatMap Segment.chars).count '\n' := by
    rw [← List.count_append, ← List.flatMap_append, List.take_append_drop]
  simp only [Position.behind, hcount]
  omega

theorem Divides.flatMap_chars {cs : List Char} {gs : List Segment} (h : Divides cs gs) :
    gs.flatMap Segment.chars = cs := by
  induction h with
  | nil => rfl
  | cons _ _ ih => rw [List.flatMap_cons, ih]

theorem Divides.chars_ne_nil {cs : List Char} {gs : List Segment} (h : Divides cs gs) :
    ∀ g ∈ gs, g.chars ≠ [] := by
  induction h with
  | nil => simp
  | cons hstands _ ih => exact List.forall_mem_cons.2 ⟨hstands.chars_ne_nil, ih⟩

/-! ## Places of tokens -/

theorem pairwise_scan (source : String) :
    (scan source).Pairwise fun a b => a.pos.Before b.pos := by
  rw [scan, List.pairwise_filterMap]
  refine (pairwise_locate _ _).imp ?_
  intro a b hbefore t ht u hu
  rw [pos_of_tokenAt? ht, pos_of_tokenAt? hu]
  exact hbefore

theorem line_le_of_mem_scan {source : String} {t : Token} (h : t ∈ scan source) :
    t.pos.line ≤ Text.lineCount source := by
  rw [← filterMap_tokenAt?_placed] at h
  obtain ⟨⟨g, p⟩, hmem, ht⟩ := List.mem_filterMap.1 h
  obtain ⟨_, -, rfl⟩ := Option.map_eq_some_iff.1 ht
  have hline := line_le_of_mem_placed hmem
  rw [(divides_iff.2 rfl).flatMap_chars] at hline
  exact hline

end Token

/-- The lines of an intent are those of its source. -/
theorem Intent.lineCount_of_outcome_parse {strict : Bool} {source : String} {s s' : Session}
    {i : Intent} (h : (Intent.parse strict source).outcome s = (.ok i, s')) :
    i.lineCount = Text.lineCount source := by
  obtain ⟨j, s₁, hsource, h⟩ := Work.outcome_bind_eq_ok_iff.1 h
  cases h
  exact lineCount_of_outcome_ofSource hsource

namespace Token

/-- A place as it is written in messages. -/
def placeText (p : Position) : String := toString p.line ++ ":" ++ toString p.column

theorem Notice.exists_warning_eq (n : Notice) :
    ∃ what, n.warning = what ++ " at " ++ placeText n.pos := by
  obtain ⟨fault, p⟩ := n
  cases fault with
  | unterminated => exact ⟨"Unterminated string starting", rfl⟩
  | unexpected c =>
      exact ⟨"Dropping unexpected character " ++ Text.quoted (String.ofList [c]),
        String.append_assoc.symm⟩

theorem Notice.exists_message_eq (n : Notice) :
    ∃ what, n.message = "Lex error at " ++ placeText n.pos ++ ": " ++ what := by
  obtain ⟨fault, p⟩ := n
  cases fault with
  | unterminated => exact ⟨_, rfl⟩
  | unexpected c => exact ⟨_, rfl⟩

/-- A source is divided into stretches in one way only: blanks, comments, marks, quoted texts, words
and characters that belong to nothing.  A scan gives the tokens of the marks, the quoted texts and
the words, in their order, each at the line and the column that the characters before its stretch
lead to, so that no token stands before an earlier one or below the last line.  Texts that are not
closed and characters that belong to nothing are placed in the same way: a scan that goes on warns
of each of them, and a strict one stops at the first; both tell the place. -/
theorem tokenize_placed (source : String) :
    ∃ gs : List Segment, (∀ gs', Divides source.toList gs' ↔ gs' = gs) ∧
      gs.flatMap Segment.chars = source.toList ∧ (∀ g ∈ gs, g.chars ≠ []) ∧
      ∃ (tokens : List Token) (notices : List Notice),
        tokens = (placed gs).filterMap (fun q => q.1.tokenAt? q.2) ∧
        notices = (placed gs).filterMap (fun q => q.1.noticeAt? q.2) ∧
        (∀ s, (tokenize false source).outcome s = (.ok tokens, { s with
          journal := s.journal ++ (notices.map (fun n => ⟨.warning, origin, n.warning⟩) ++
            [summaryRecord tokens.length (notices.countP Notice.isDrop)]) })) ∧
        (∀ s, ((tokenize true source).outcome s).1 = notices.head?.elim (.ok tokens) .error) ∧
        (∀ n ∈ notices, (∃ what, n.warning = what ++ " at " ++ placeText n.pos) ∧
          ∃ what, n.message = "Lex error at " ++ placeText n.pos ++ ": " ++ what) ∧
        (tokens.Pairwise fun a b => a.pos.Before b.pos) ∧
        (∀ t ∈ tokens, t.pos.line ≤ source.toList.count '\n' + 1) ∧
        ∀ strict s i s', (Intent.parse strict source).outcome s = (.ok i, s') →
          ∀ t ∈ tokens, t.pos.line ≤ i.lineCount := by
  have hdivides : Divides source.toList _ := divides_iff.2 rfl
  refine ⟨_, fun gs => divides_iff, hdivides.flatMap_chars, hdivides.chars_ne_nil, scan source,
    notices source, (filterMap_tokenAt?_placed source).symm,
    (filterMap_noticeAt?_placed source).symm, ?_, ?_, ?_, pairwise_scan source,
    fun t ht => line_le_of_mem_scan ht, ?_⟩
  · intro s
    exact outcome_tokenize_of_ok (fun h => by cases h) s
  · intro s
    rw [outcome_tokenize_strict, scanStrict_eq]
  · intro n _
    exact ⟨n.exists_warning_eq, n.exists_message_eq⟩
  · intro strict s i s' hparse t ht
    rw [Intent.lineCount_of_outcome_parse hparse]
    exact line_le_of_mem_scan ht

-- a newline after a backslash opens a line as well
example : (scan "a 'x\\\ny' b").map Token.pos = [⟨1, 1⟩, ⟨1, 3⟩, ⟨2, 4⟩] := by decide +kernel

end Token

end IntentPlan
