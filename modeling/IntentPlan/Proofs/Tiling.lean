import IntentPlan.Proofs.Scanning
import Mathlib.Data.List.Induction
import Mathlib.Data.List.TakeWhile

/-!
# Pieces of a source and their places

What it means that a source falls into pieces is said here without scanning it (`Tiles`): the pieces
follow each other without gaps, and each ends where its sort demands, given what comes after it.  A
source falls into pieces in one way only, the one that scanning finds (`tiles_iff`).

The place behind some characters can be counted from all of them (`Position.behind`).  Scanning goes
on from one place to the next instead, and comes to the same ones (`Position.after_start`).
-/

namespace IntentPlan

/-! ## Places -/

namespace Position

/-- The place behind some characters: every newline opens a line, and the characters since the last
newline are the columns that are filled. -/
def behind (cs : List Char) : Position where
  line := 1 + cs.count '\n'
  column := 1 + (cs.reverse.takeWhile (· != '\n')).length

/-- The order in which places are read. -/
def Before (p q : Position) : Prop := p.line < q.line ∨ p.line = q.line ∧ p.column < q.column

theorem Before.trans {p q r : Position} (hpq : p.Before q) (hqr : q.Before r) : p.Before r := by
  simp only [Before] at *
  omega

theorem next_newline (p : Position) : p.next '\n' = ⟨p.line + 1, 1⟩ := rfl

theorem next_of_ne {c : Char} (h : c ≠ '\n') (p : Position) :
    p.next c = ⟨p.line, p.column + 1⟩ := if_neg h

theorem behind_concat (cs : List Char) (c : Char) : behind (cs ++ [c]) = (behind cs).next c := by
  by_cases hc : c = '\n'
  · subst hc
    simp [next_newline, behind, Int.add_assoc]
  · simp [next_of_ne hc, behind, hc, Int.add_assoc]

theorem after_append (p : Position) (cs ds : List Char) :
    p.after (cs ++ ds) = (p.after cs).after ds :=
  List.foldl_append

/-- Going on from place to place is counting from the start. -/
theorem after_start (cs : List Char) : start.after cs = behind cs := by
  induction cs using List.reverseRecOn with
  | nil => rfl
  | append_singleton cs c ih =>
      rw [after_append, ih, behind_concat]
      rfl

theorem behind_after (cs ds : List Char) : (behind cs).after ds = behind (cs ++ ds) := by
  rw [← after_start, ← after_append, after_start]

theorem before_next (p : Position) (c : Char) : p.Before (p.next c) := by
  by_cases hc : c = '\n'
  · subst hc
    exact .inl (Int.lt_succ p.line)
  · rw [next_of_ne hc]
    exact .inr ⟨rfl, Int.lt_succ p.column⟩

theorem before_after (p : Position) {cs : List Char} (h : cs ≠ []) : p.Before (p.after cs) := by
  induction cs generalizing p with
  | nil => exact absurd rfl h
  | cons c cs ih =>
      by_cases hcs : cs = []
      · subst hcs
        exact p.before_next c
      · exact (p.before_next c).trans (ih (p.next c) hcs)

end Position

namespace Token

/-! ## Pieces in their surroundings -/

/-- What is read between quotes: no glyph is the quote itself, and a backslash stands for itself
only as the last character of a source that does not close the quote. -/
structure Quotes (quote : Char) (glyphs : List Glyph) (closed : Bool) (rest : List Char) :
    Prop where
  plain_notMem : Glyph.plain quote ∉ glyphs
  backslash_last : ∀ front back, glyphs = front ++ .plain '\\' :: back → back = [] ∧ closed = false
  rest_eq_nil : closed = false → rest = []

/-- A piece is of its sort and ends where it has to, given what comes after it. -/
def Piece.Fits (rest : List Char) : Piece → Prop
  | .space c => c ∈ [' ', '\t', '\r', '\n']
  | .comment body => '\n' ∉ body ∧ ∀ c ∈ rest.head?, c = '\n'
  | .mark kind c => punctuation? c = some kind
  | .quoted quote glyphs closed => quote ∈ ['\'', '"'] ∧ Quotes quote glyphs closed rest
  | .word c more => isWordStart c = true ∧ (∀ d ∈ more, isWordChar d = true) ∧ Apart rest
  | .stray c =>
    isSpace c = false ∧ c ≠ '#' ∧ punctuation? c = none ∧ isQuote c = false ∧
      isWordStart c = false

/-- The pieces follow each other without gaps, and each fits what comes after it. -/
inductive Tiles : List Char → List Piece → Prop
  | nil : Tiles [] []
  | cons {piece : Piece} {rest : List Char} {ps : List Piece} (hfits : piece.Fits rest)
      (hrest : Tiles rest ps) : Tiles (piece.source ++ rest) (piece :: ps)

theorem Piece.source_ne_nil (piece : Piece) : piece.source ≠ [] := by
  cases piece <;> exact List.cons_ne_nil _ _

theorem Tiles.flatMap_source {cs : List Char} {ps : List Piece} (h : Tiles cs ps) :
    ps.flatMap Piece.source = cs := by
  induction h with
  | nil => rfl
  | cons _ _ ih => rw [List.flatMap_cons, ih]

theorem mem_spaces_iff {c : Char} : c ∈ [' ', '\t', '\r', '\n'] ↔ isSpace c = true := by
  simp [isSpace, or_assoc]

theorem mem_quotes_iff {c : Char} : c ∈ ['\'', '"'] ↔ isQuote c = true := by
  simp [isQuote]

/-! ### The pieces that scanning finds fit -/

theorem Quotes.escaped {quote : Char} {glyphs : List Glyph} {closed : Bool} {rest : List Char}
    (h : Quotes quote glyphs closed rest) (c : Char) :
    Quotes quote (.escaped c :: glyphs) closed rest := by
  refine ⟨by simp [h.plain_notMem], ?_, h.rest_eq_nil⟩
  intro front back heq
  cases front with
  | nil => cases heq
  | cons g front => exact h.backslash_last front back (List.cons.inj heq).2

theorem Quotes.plain {quote c : Char} {glyphs : List Glyph} {closed : Bool} {rest : List Char}
    (h : Quotes quote glyphs closed rest) (hquote : c ≠ quote) (hc : c ≠ '\\') :
    Quotes quote (.plain c :: glyphs) closed rest := by
  refine ⟨by simp [h.plain_notMem, Ne.symm hquote], ?_, h.rest_eq_nil⟩
  intro front back heq
  cases front with
  | nil => exact absurd (Glyph.plain.inj (List.cons.inj heq).1) hc
  | cons g front => exact h.backslash_last front back (List.cons.inj heq).2

theorem Quotes.tail {quote : Char} {g : Glyph} {glyphs : List Glyph} {closed : Bool}
    {rest : List Char} (h : Quotes quote (g :: glyphs) closed rest) :
    Quotes quote glyphs closed rest := by
  refine ⟨fun hmem => h.plain_notMem (List.mem_cons_of_mem g hmem), ?_, h.rest_eq_nil⟩
  rintro front back rfl
  exact h.backslash_last (g :: front) back rfl

theorem quotes_splitQuoted (quote : Char) (cs : List Char) :
    Quotes quote (splitQuoted quote cs).1 (splitQuoted quote cs).2.1
      (splitQuoted quote cs).2.2 := by
  fun_induction splitQuoted quote cs with
  | case1 => exact ⟨by simp, by simp, fun _ => rfl⟩
  | case2 c rest glyphs closed after hsplit ih =>
      rw [hsplit] at ih
      exact ih.escaped c
  | case3 rest => exact ⟨by simp, by simp, by simp⟩
  | case4 c rest hnot hc glyphs closed after hsplit ih =>
      rw [hsplit] at ih
      by_cases hback : c = '\\'
      · -- with a character after it the backslash would have been an escape
        cases rest with
        | cons d rest => exact absurd rfl (hnot d rest hback)
        | nil =>
            cases hsplit
            exact ⟨by simp [Ne.symm hc], by simp [List.singleton_eq_append_iff], fun _ => rfl⟩
      · exact ih.plain hc hback

theorem source_splitQuoted (quote : Char) (cs : List Char) :
    (splitQuoted quote cs).1.flatMap Glyph.source ++
      ((if (splitQuoted quote cs).2.1 then [quote] else []) ++ (splitQuoted quote cs).2.2) =
      cs := by
  fun_induction splitQuoted quote cs with
  | case1 => rfl
  | case2 c rest glyphs closed after hsplit ih =>
      rw [hsplit] at ih
      simpa [Glyph.source] using ih
  | case3 rest => rfl
  | case4 c rest _ _ glyphs closed after hsplit ih =>
      rw [hsplit] at ih
      simpa [Glyph.source] using ih

theorem eq_false_of_head?_dropWhile {p : Char → Bool} {cs : List Char} {c : Char}
    (h : c ∈ (cs.dropWhile p).head?) : p c = false := by
  have hnot := List.head?_dropWhile_not p cs
  rw [Option.mem_def.1 h] at hnot
  simpa using hnot

/-- The piece at the front fits the rest, and nothing is lost between them. -/
theorem fits_splitPiece (c : Char) (rest : List Char) :
    (splitPiece c rest).1.Fits (splitPiece c rest).2 ∧
      (splitPiece c rest).1.source ++ (splitPiece c rest).2 = c :: rest := by
  rw [splitPiece]
  split
  · rename_i hspace
    exact ⟨mem_spaces_iff.2 hspace, rfl⟩
  · rename_i hspace
    split
    · rename_i hcomment
      subst hcomment
      refine ⟨⟨?_, ?_⟩, congrArg ('#' :: ·) List.takeWhile_append_dropWhile⟩
      · intro hmem
        simpa using List.all_eq_true.1 List.all_takeWhile _ hmem
      · intro d hd
        simpa using eq_false_of_head?_dropWhile hd
    · rename_i hcomment
      split
      · rename_i kind hmark
        exact ⟨hmark, rfl⟩
      · rename_i hmark
        split
        · rename_i hquote
          refine ⟨⟨mem_quotes_iff.2 hquote, quotes_splitQuoted c rest⟩, ?_⟩
          simpa [Piece.source] using source_splitQuoted c rest
        · rename_i hquote
          split
          · rename_i hstart
            refine ⟨⟨hstart, List.all_eq_true.1 List.all_takeWhile, ?_⟩,
              congrArg (c :: ·) List.takeWhile_append_dropWhile⟩
            exact fun d hd => eq_false_of_head?_dropWhile hd
          · rename_i hstart
            simp only [Bool.not_eq_true] at hspace hquote hstart
            exact ⟨⟨hspace, hcomment, hmark, hquote, hstart⟩, rfl⟩

theorem tiles_pieces (cs : List Char) : Tiles cs (pieces cs) := by
  induction cs using pieces.induct with
  | case1 =>
      rw [pieces_nil]
      exact .nil
  | case2 c rest ih =>
      obtain ⟨hfits, hsource⟩ := fits_splitPiece c rest
      rw [pieces_cons, ← hsource]
      exact .cons hfits ih

/-! ### Pieces that fit are the ones that scanning finds -/

theorem splitQuoted_of_quotes {quote : Char} (hquote : quote ≠ '\\') {glyphs : List Glyph}
    {closed : Bool} {rest : List Char} (h : Quotes quote glyphs closed rest) :
    splitQuoted quote (glyphs.flatMap Glyph.source ++ ((if closed then [quote] else []) ++ rest)) =
      (glyphs, closed, rest) := by
  induction glyphs with
  | nil =>
      cases closed with
      | true => exact splitQuoted_closed hquote rest
      | false =>
          rw [h.rest_eq_nil rfl]
          rfl
  | cons g glyphs ih =>
      cases g with
      | escaped c => exact splitQuoted_escaped quote c (ih h.tail)
      | plain c =>
          have hc : c ≠ quote := by
            rintro rfl
            exact h.plain_notMem List.mem_cons_self
          by_cases hback : c = '\\'
          · subst hback
            obtain ⟨rfl, rfl⟩ := h.backslash_last [] glyphs rfl
            rw [h.rest_eq_nil rfl]
            simp [Glyph.source, splitQuoted, hc]
          · exact splitQuoted_plain hc hback (ih h.tail)

/-- A comment may also be the last piece of a source. -/
theorem pieces_comment_end {body : List Char} (h : '\n' ∉ body) :
    pieces ('#' :: body) = [.comment body] := by
  have hbody : ∀ c ∈ body, (c != '\n') = true := by
    intro c hc
    simpa using fun he : c = '\n' => h (he ▸ hc)
  rw [pieces_cons, splitPiece, if_neg (by decide), if_pos rfl, List.takeWhile_eq_self_iff.2 hbody,
    List.dropWhile_eq_nil_iff.2 hbody, pieces_nil]

theorem pieces_stray {c : Char} {rest : List Char} (h : (Piece.stray c).Fits rest) :
    pieces (c :: rest) = .stray c :: pieces rest := by
  obtain ⟨hspace, hcomment, hmark, hquote, hstart⟩ := h
  have hsplit : splitPiece c rest = (.stray c, rest) := by
    simp [splitPiece, hspace, hcomment, hmark, hquote, hstart]
  rw [pieces_cons, hsplit]

theorem pieces_of_fits {piece : Piece} {rest : List Char} (h : piece.Fits rest) :
    pieces (piece.source ++ rest) = piece :: pieces rest := by
  cases piece with
  | space c => exact pieces_space (mem_spaces_iff.1 h) rest
  | comment body =>
      obtain ⟨hbody, hrest⟩ := h
      cases rest with
      | nil =>
          rw [List.append_nil, pieces_nil]
          exact pieces_comment_end hbody
      | cons c rest =>
          obtain rfl := hrest c rfl
          exact pieces_comment hbody rest
  | mark kind c => exact pieces_mark h rest
  | quoted quote glyphs closed =>
      obtain ⟨hquote, hglyphs⟩ := h
      have hne : quote ≠ '\\' := by
        rintro rfl
        exact absurd hquote (by decide)
      have hsplit := splitQuoted_of_quotes hne hglyphs
      rw [← List.append_assoc] at hsplit
      exact pieces_quoted (mem_quotes_iff.1 hquote) hsplit
  | word c more => exact pieces_word h.1 h.2.1 h.2.2
  | stray c => exact pieces_stray h

/-- A source falls into pieces in one way only. -/
theorem tiles_iff {cs : List Char} {ps : List Piece} : Tiles cs ps ↔ ps = pieces cs := by
  constructor
  · intro h
    induction h with
    | nil => exact pieces_nil.symm
    | cons hfits _ ih => rw [pieces_of_fits hfits, ih]
  · rintro rfl
    exact tiles_pieces cs

/-! ## Places of pieces -/

/-- No piece stands before the place from which on pieces are located. -/
theorem eq_or_before_of_mem_locate {p q : Position} {piece : Piece} {ps : List Piece}
    (h : (piece, q) ∈ locate p ps) : q = p ∨ p.Before q := by
  induction ps generalizing p with
  | nil => cases h
  | cons first ps ih =>
      rcases List.mem_cons.1 h with heq | hmem
      · exact .inl (Prod.mk.inj heq).2
      · have hfirst := p.before_after first.source_ne_nil
        rcases ih hmem with rfl | hbefore
        · exact .inr hfirst
        · exact .inr (hfirst.trans hbefore)

theorem pairwise_locate (p : Position) (ps : List Piece) :
    (locate p ps).Pairwise fun a b => a.2.Before b.2 := by
  induction ps generalizing p with
  | nil => exact .nil
  | cons first ps ih =>
      refine List.pairwise_cons.2 ⟨?_, ih _⟩
      rintro ⟨piece, q⟩ hmem
      have hfirst := p.before_after first.source_ne_nil
      rcases eq_or_before_of_mem_locate hmem with rfl | hbefore
      · exact hfirst
      · exact hfirst.trans hbefore

theorem pos_of_tokenAt? {located : Piece × Position} {t : Token} (h : tokenAt? located = some t) :
    t.pos = located.2 := by
  obtain ⟨piece, p⟩ := located
  obtain ⟨⟨kind, text⟩, -, rfl⟩ := Option.map_eq_some_iff.1 h
  rfl

end Token

end IntentPlan
