import IntentPlan.Proofs.Notices
import IntentPlan.Proofs.Tiling

/-!
# Characters that are dropped

A character that is dropped leaves a gap between the pieces around it, as a space would.  To put
spaces for all characters that are reported as dropped is to put spaces for the stray pieces
(`map_blank_locateChars`, `toList_blanked`), and that changes neither the other pieces
(`pieces_blankedSource`) nor the place of any of them (`locate_blanked`).
-/

namespace IntentPlan

namespace Position

theorem Before.asymm {p q : Position} (h : p.Before q) : ¬q.Before p := by
  simp only [Before] at *
  omega

end Position

namespace Token

/-! ## Characters and their places -/

/-- Each character with its place. -/
def locateChars (p : Position) : List Char → List (Char × Position)
  | [] => []
  | c :: cs => (c, p) :: locateChars (p.next c) cs

theorem locateChars_append (p : Position) (cs ds : List Char) :
    locateChars p (cs ++ ds) = locateChars p cs ++ locateChars (p.after cs) ds := by
  induction cs generalizing p with
  | nil => rfl
  | cons c cs ih =>
      rw [List.cons_append, locateChars, ih]
      rfl

theorem map_fst_locateChars (p : Position) (cs : List Char) :
    (locateChars p cs).map Prod.fst = cs := by
  induction cs generalizing p with
  | nil => rfl
  | cons c cs ih => rw [locateChars, List.map_cons, ih]

theorem before_after_of_mem_locateChars {p q : Position} {c : Char} {cs : List Char}
    (h : (c, q) ∈ locateChars p cs) : ¬q.Before p ∧ q.Before (p.after cs) := by
  induction cs generalizing p with
  | nil => cases h
  | cons d cs ih =>
      rcases List.mem_cons.1 h with heq | hmem
      · obtain rfl := (Prod.mk.inj heq).2
        exact ⟨fun hbefore => hbefore.asymm hbefore, q.before_after (List.cons_ne_nil d cs)⟩
      · obtain ⟨hstart, hend⟩ := ih hmem
        exact ⟨fun hbefore => hstart (hbefore.trans (p.before_next d)), hend⟩

/-! ## Spaces for dropped characters -/

/-- A space, if the character at the place is dropped. -/
def blank (dropped : Char × Position → Bool) (l : Char × Position) : Char :=
  if dropped l then ' ' else l.1

/-- The source with a space for every character that is reported as dropped. -/
def blanked (logged : List Journal.Record) (source : String) : String :=
  String.ofList ((locateChars .start source.toList).map
    (blank fun l => decide (Notice.record ⟨.unexpected l.1, l.2⟩ ∈ logged)))

/-- A piece with a space for a dropped character. -/
def Piece.blanked : Piece → Piece
  | .stray _ => .space ' '
  | piece => piece

/-- The characters of the pieces, with spaces for those that are dropped. -/
def blankedSource (ps : List Piece) : List Char := ps.flatMap fun piece => piece.blanked.source

/-- No other character than a stray one is changed. -/
theorem map_blank_piece {dropped : Char × Position → Bool} {p : Position} {piece : Piece}
    (h : ∀ l ∈ locateChars p piece.source, dropped l = true ↔ piece = .stray l.1) :
    (locateChars p piece.source).map (blank dropped) = piece.blanked.source := by
  by_cases hstray : ∃ c, piece = .stray c
  · obtain ⟨c, rfl⟩ := hstray
    have hdropped : dropped (c, p) = true := (h (c, p) List.mem_cons_self).2 rfl
    simp [Piece.source, Piece.blanked, locateChars, blank, hdropped]
  · have hblank : ∀ l ∈ locateChars p piece.source, blank dropped l = l.1 := by
      intro l hl
      refine if_neg fun hdropped => ?_
      exact hstray ⟨l.1, (h l hl).1 hdropped⟩
    have hsame : piece.blanked = piece := by
      cases piece with
      | stray c => exact absurd ⟨c, rfl⟩ hstray
      | _ => rfl
    rw [List.map_congr_left hblank, map_fst_locateChars, hsame]

/-- If the stray pieces are what is dropped, spaces for dropped characters are spaces for these
pieces. -/
theorem map_blank_locateChars (dropped : Char × Position → Bool) {p : Position} {ps : List Piece}
    (h : ∀ c q, ¬q.Before p → (dropped (c, q) = true ↔ (Piece.stray c, q) ∈ locate p ps)) :
    (locateChars p (ps.flatMap Piece.source)).map (blank dropped) = blankedSource ps := by
  -- what was dropped before the place that is reached does not matter for the pieces from there on
  induction ps generalizing p with
  | nil => rfl
  | cons piece ps ih =>
      have hnext := p.before_after piece.source_ne_nil
      rw [List.flatMap_cons, locateChars_append, List.map_append, blankedSource, List.flatMap_cons]
      congr 1
      · apply map_blank_piece
        rintro ⟨c, q⟩ hmem
        obtain ⟨hstart, hend⟩ := before_after_of_mem_locateChars hmem
        rw [h c q hstart, locate, List.mem_cons]
        constructor
        · rintro (heq | hlater)
          · exact (Prod.mk.inj heq).1.symm
          · rcases eq_or_before_of_mem_locate hlater with rfl | hbefore
            · exact absurd hend hend.asymm
            · exact absurd hend hbefore.asymm
        · rintro rfl
          obtain rfl : q = p := by simpa [Piece.source, locateChars] using hmem
          exact .inl rfl
      · apply ih
        intro c q hq
        have hstart : ¬q.Before p := fun hbefore => hq (hbefore.trans hnext)
        rw [h c q hstart, locate, List.mem_cons, or_iff_right]
        intro heq
        obtain rfl := (Prod.mk.inj heq).2
        exact hq hnext

/-! ## Pieces of the source with spaces -/

/-- A source and the one with spaces start alike, or the one with spaces starts with a space. -/
theorem Tiles.head?_blankedSource {cs : List Char} {ps : List Piece} (h : Tiles cs ps) :
    (blankedSource ps).head? = cs.head? ∨
      (blankedSource ps).head? = some ' ' ∧ ∃ c, cs.head? = some c ∧ isSpace c = false := by
  cases h with
  | nil => exact .inl rfl
  | @cons piece rest ps hfits _ =>
      cases piece with
      | stray c => exact .inr ⟨rfl, c, rfl, hfits.1⟩
      | _ => exact .inl rfl

/-- Spaces in place of dropped characters let every piece end where it did. -/
theorem Piece.Fits.blanked {piece : Piece} {rest : List Char} {ps : List Piece}
    (h : piece.Fits rest) (hrest : Tiles rest ps) : piece.blanked.Fits (blankedSource ps) := by
  cases piece with
  | space c => exact h
  | mark kind c => exact h
  | stray c => exact mem_spaces_iff.2 rfl
  | comment body =>
      refine ⟨h.1, ?_⟩
      rcases hrest.head?_blankedSource with hsame | ⟨-, c, hc, hspace⟩
      · rw [hsame]
        exact h.2
      · -- behind a comment there is a newline, and that is not dropped
        obtain rfl := h.2 c hc
        cases hspace
  | word c more =>
      refine ⟨h.1, h.2.1, ?_⟩
      rcases hrest.head?_blankedSource with hsame | ⟨hspace, -⟩
      · rw [Apart, hsame]
        exact h.2.2
      · intro d hd
        obtain rfl : ' ' = d := by simpa [hspace] using hd
        decide
  | quoted quote glyphs closed =>
      refine ⟨h.1, h.2.plain_notMem, h.2.backslash_last, fun hclosed => ?_⟩
      obtain rfl := h.2.rest_eq_nil hclosed
      obtain rfl : ps = [] := by simpa using tiles_iff.1 hrest
      rfl

theorem Tiles.blanked {cs : List Char} {ps : List Piece} (h : Tiles cs ps) :
    Tiles (blankedSource ps) (ps.map Piece.blanked) := by
  induction h with
  | nil => exact .nil
  | cons hfits hrest ih => exact .cons (hfits.blanked hrest) ih

theorem pieces_blankedSource (cs : List Char) :
    pieces (blankedSource (pieces cs)) = (pieces cs).map Piece.blanked :=
  (tiles_iff.1 (tiles_pieces cs).blanked).symm

/-- A space takes as much room as a dropped character, which is no newline. -/
theorem Piece.IsProper.after_blanked {piece : Piece} (h : piece.IsProper) (p : Position) :
    p.after piece.blanked.source = p.after piece.source := by
  cases piece with
  | stray c =>
      have hc : c ≠ '\n' := by
        rintro rfl
        cases h.1
      change p.next ' ' = p.next c
      rw [Position.next_of_ne (by decide), Position.next_of_ne hc]
  | _ => rfl

theorem locate_blanked {ps : List Piece} (h : ∀ piece ∈ ps, piece.IsProper) (p : Position) :
    locate p (ps.map Piece.blanked) = (locate p ps).map fun l => (l.1.blanked, l.2) := by
  induction ps generalizing p with
  | nil => rfl
  | cons piece ps ih =>
      have hproper := h piece List.mem_cons_self
      rw [List.map_cons, locate, locate, hproper.after_blanked, List.map_cons,
        ih fun piece hmem => h piece (List.mem_cons_of_mem _ hmem)]

/-! ## Scans of the source with spaces -/

theorem noticeAt?_eq_unexpected_iff {l : Piece × Position} {c : Char} {p : Position} :
    noticeAt? l = some ⟨.unexpected c, p⟩ ↔ l = (.stray c, p) := by
  obtain ⟨piece, q⟩ := l
  cases piece with
  | stray d => simp [noticeAt?, Piece.fault?]
  | quoted quote glyphs closed => cases closed <;> simp [noticeAt?, Piece.fault?]
  | _ => simp [noticeAt?, Piece.fault?]

theorem unexpected_mem_notices_iff {source : String} {c : Char} {p : Position} :
    ⟨.unexpected c, p⟩ ∈ notices source ↔ (.stray c, p) ∈ located source := by
  simp only [notices, List.mem_filterMap, noticeAt?_eq_unexpected_iff, exists_eq_right]

/-- The characters that are reported as dropped are the stray ones. -/
theorem toList_blanked (source : String) :
    (blanked (records source) source).toList = blankedSource (pieces source.toList) := by
  have hdropped : ∀ c q, ¬q.Before .start →
      (decide (Notice.record ⟨.unexpected c, q⟩ ∈ records source) = true ↔
        (Piece.stray c, q) ∈ locate .start (pieces source.toList)) := by
    intro c q _
    rw [decide_eq_true_iff, record_mem_records_iff, unexpected_mem_notices_iff]
    rfl
  have hblank := map_blank_locateChars
    (fun l => decide (Notice.record ⟨.unexpected l.1, l.2⟩ ∈ records source)) hdropped
  rw [(tiles_pieces source.toList).flatMap_source] at hblank
  rw [blanked, String.toList_ofList, hblank]

theorem located_blanked (source : String) :
    located (blanked (records source) source) =
      (located source).map fun l => (l.1.blanked, l.2) := by
  rw [located, toList_blanked, pieces_blankedSource,
    locate_blanked fun piece hpiece => isProper_of_mem_pieces hpiece, located]

theorem tokenAt?_blanked (l : Piece × Position) : tokenAt? (l.1.blanked, l.2) = tokenAt? l := by
  obtain ⟨piece, p⟩ := l
  cases piece <;> rfl

theorem noticeAt?_blanked (l : Piece × Position) :
    noticeAt? (l.1.blanked, l.2) = (noticeAt? l).filter fun n => !n.isDrop := by
  obtain ⟨piece, p⟩ := l
  cases piece with
  | quoted quote glyphs closed => cases closed <;> rfl
  | _ => rfl

theorem scan_blanked (source : String) : scan (blanked (records source) source) = scan source := by
  rw [scan, located_blanked, List.filterMap_map, scan]
  simp only [Function.comp_def, tokenAt?_blanked]

/-- What is left to report are the texts without a closing quote. -/
theorem notices_blanked (source : String) :
    notices (blanked (records source) source) = (notices source).filter fun n => !n.isDrop := by
  rw [notices, located_blanked, List.filterMap_map, notices, List.filter_filterMap]
  simp only [Function.comp_def, noticeAt?_blanked]

/-- A dropped character acts like a space.  With a space for every character that is reported as
dropped the same tokens are found at the same places, and no character is dropped any more.  If
every text has its closing quote, a strict scan finds these tokens as well. -/
theorem tokenize_blanked (source : String) :
    ∃ (tokens : List Token) (logged logged' : List Journal.Record),
      (∀ s, (tokenize false source).outcome s =
        (.ok tokens, { s with journal := s.journal ++ logged })) ∧
      (∀ s, (tokenize false (blanked logged source)).outcome s =
        (.ok tokens, { s with journal := s.journal ++ logged' })) ∧
      (∀ c p, Notice.record ⟨.unexpected c, p⟩ ∉ logged') ∧
      summaryRecord tokens.length 0 ∈ logged' ∧
      ((∀ p, Notice.record ⟨.unterminated, p⟩ ∉ logged) →
        ∀ s, ((tokenize true (blanked logged source)).outcome s).1 = .ok tokens) := by
  have hscan := scan_blanked source
  have hnotices := notices_blanked source
  refine ⟨scan source, records source, records (blanked (records source) source),
    outcome_tokenize_of_ok (by simp), fun s => ?_, fun c p hmem => ?_, ?_, fun hclosed s => ?_⟩
  · rw [outcome_tokenize_of_ok (by simp), hscan]
  · rw [record_mem_records_iff, hnotices, List.mem_filter] at hmem
    cases hmem.2
  · rw [records, hscan, hnotices, List.countP_filter]
    simp
  · have hnone : (notices source).filter (fun n => !n.isDrop) = [] := by
      refine List.filter_eq_nil_iff.2 fun n hn => ?_
      obtain ⟨fault, p⟩ := n
      cases fault with
      | unterminated => exact absurd (record_mem_records_iff.2 hn) (hclosed p)
      | unexpected c => simp [Notice.isDrop]
    rw [outcome_tokenize_strict, scanStrict_eq, hnotices, hnone, hscan]
    rfl

-- a word is cut in two, while quoted texts and comments stay as they are
example : blanked (records "a$b '$' # $") "a$b '$' # $" = "a b '$' # $" := by decide +kernel

end Token

end IntentPlan
