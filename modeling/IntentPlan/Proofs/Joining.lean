import IntentPlan.Proofs.Tiling

/-!
# Sources one below the other

A source is put below another one with a newline between them.  No piece of the upper source reaches
over the newline, unless it is a text without a closing quote, and so the pieces of both stand one
after the other (`pieces_join`).  The places of the lower source move down by the lines of the upper
one and keep their columns (`locate_down`).
-/

namespace IntentPlan

namespace Position

/-- The place in the same column some lines below. -/
def down (n : Int) (p : Position) : Position := ⟨p.line + n, p.column⟩

theorem down_next (n : Int) (p : Position) (c : Char) : (p.down n).next c = (p.next c).down n := by
  by_cases hc : c = '\n'
  · subst hc
    simp only [next_newline, down, mk.injEq, and_true]
    omega
  · rw [next_of_ne hc, next_of_ne hc]
    rfl

theorem down_after (n : Int) (p : Position) (cs : List Char) :
    (p.down n).after cs = (p.after cs).down n := by
  induction cs generalizing p with
  | nil => rfl
  | cons c cs ih =>
      change ((p.down n).next c).after cs = ((p.next c).after cs).down n
      rw [down_next, ih]

/-- Behind a newline the first column of the next line is reached. -/
theorem after_newline (cs : List Char) :
    start.after (cs ++ ['\n']) = start.down (cs.count '\n' + 1) := by
  rw [after_start, behind_concat, next_newline]
  simp only [behind, down, start, mk.injEq, and_true]
  omega

end Position

namespace Token

/-- The token moved some lines down. -/
def down (n : Int) (t : Token) : Token := { t with pos := t.pos.down n }

/-- The notice moved some lines down. -/
def Notice.down (n : Int) (notice : Notice) : Notice := { notice with pos := notice.pos.down n }

/-! ## Pieces over a newline -/

/-- What is put below does not change a piece that is not left open. -/
theorem Piece.Fits.join {piece : Piece} {rest : List Char} (h : piece.Fits rest)
    (hclosed : piece.fault? ≠ some .unterminated) (below : List Char) :
    piece.Fits (rest ++ '\n' :: below) := by
  cases piece with
  | space c => exact h
  | mark kind c => exact h
  | stray c => exact h
  | comment body =>
      refine ⟨h.1, fun c hc => ?_⟩
      cases rest with
      | nil => simpa using hc.symm
      | cons d rest => exact h.2 c hc
  | word c more =>
      refine ⟨h.1, h.2.1, ?_⟩
      cases rest with
      | nil => exact .cons (by decide) below
      | cons d rest => exact h.2.2
  | quoted quote glyphs closed =>
      cases closed with
      | false => exact absurd rfl hclosed
      | true => exact ⟨h.1, h.2.plain_notMem, h.2.backslash_last, by simp⟩

/-- The pieces before one that is left open stay as they are. -/
theorem Tiles.pieces_join {cs : List Char} {front back : List Piece} (h : Tiles cs (front ++ back))
    (hclosed : ∀ piece ∈ front, piece.fault? ≠ some .unterminated) (below : List Char) :
    pieces (cs ++ '\n' :: below) =
      front ++ pieces (back.flatMap Piece.source ++ '\n' :: below) := by
  induction front generalizing cs with
  | nil =>
      rw [List.nil_append] at h
      rw [h.flatMap_source, List.nil_append]
  | cons piece front ih =>
      cases h with
      | cons hfits hrest =>
          have hjoin := hfits.join (hclosed piece List.mem_cons_self) below
          rw [List.append_assoc, pieces_of_fits hjoin, List.cons_append,
            ih hrest fun piece hmem => hclosed piece (List.mem_cons_of_mem _ hmem)]

theorem pieces_join {cs : List Char}
    (hclosed : ∀ piece ∈ pieces cs, piece.fault? ≠ some .unterminated) (below : List Char) :
    pieces (cs ++ '\n' :: below) = pieces cs ++ .space '\n' :: pieces below := by
  have htiles : Tiles cs (pieces cs ++ []) := by
    rw [List.append_nil]
    exact tiles_pieces cs
  rw [htiles.pieces_join hclosed, List.flatMap_nil, List.nil_append, pieces_space rfl]

/-! ## Places below a newline -/

theorem locate_down (n : Int) (p : Position) (ps : List Piece) :
    locate (p.down n) ps = (locate p ps).map fun l => (l.1, l.2.down n) := by
  induction ps generalizing p with
  | nil => rfl
  | cons piece ps ih =>
      rw [locate, locate, Position.down_after, ih]
      rfl

theorem map_fst_locate (p : Position) (ps : List Piece) : (locate p ps).map Prod.fst = ps := by
  induction ps generalizing p with
  | nil => rfl
  | cons piece ps ih => rw [locate, List.map_cons, ih]

theorem locate_append (p : Position) (ps qs : List Piece) :
    locate p (ps ++ qs) = locate p ps ++ locate (p.after (ps.flatMap Piece.source)) qs := by
  induction ps generalizing p with
  | nil => rfl
  | cons piece ps ih =>
      rw [List.cons_append, locate, ih, List.flatMap_cons, Position.after_append]
      rfl

theorem toList_join (source below : String) :
    (source ++ "\n" ++ below).toList = source.toList ++ '\n' :: below.toList := by
  simp

/-- The pieces of a source that is put below are those of the source, some lines further down. -/
theorem located_join {source : String}
    (hclosed : ∀ piece ∈ pieces source.toList, piece.fault? ≠ some .unterminated) (below : String) :
    located (source ++ "\n" ++ below) = located source ++
      (.space '\n', .behind source.toList) ::
        (located below).map fun l => (l.1, l.2.down (source.toList.count '\n' + 1)) := by
  have hplace : (Position.start.after source.toList).after (Piece.space '\n').source =
      Position.start.down (source.toList.count '\n' + 1) := by
    rw [← Position.after_append]
    exact Position.after_newline _
  rw [located, located, located, toList_join, pieces_join hclosed, locate_append,
    (tiles_pieces _).flatMap_source, locate, hplace, locate_down, Position.after_start]

/-! ## Tokens and notices below a newline -/

theorem tokenAt?_down (n : Int) (l : Piece × Position) :
    tokenAt? (l.1, l.2.down n) = (tokenAt? l).map (Token.down n) := by
  obtain ⟨piece, p⟩ := l
  simp only [tokenAt?, Option.map_map]
  rfl

theorem noticeAt?_down (n : Int) (l : Piece × Position) :
    noticeAt? (l.1, l.2.down n) = (noticeAt? l).map (Notice.down n) := by
  obtain ⟨piece, p⟩ := l
  simp only [noticeAt?, Option.map_map]
  rfl

/-- No text of the source is left without its closing quote. -/
def Closed (source : String) : Prop := ∀ n ∈ notices source, n.fault ≠ .unterminated

theorem Closed.fault?_ne {source : String} (h : Closed source) {piece : Piece}
    (hpiece : piece ∈ pieces source.toList) : piece.fault? ≠ some .unterminated := by
  intro hfault
  have hlocated : piece ∈ (located source).map Prod.fst := by
    rw [located, map_fst_locate]
    exact hpiece
  obtain ⟨⟨_, p⟩, hmem, rfl⟩ := List.mem_map.1 hlocated
  refine h ⟨.unterminated, p⟩ (List.mem_filterMap.2 ⟨_, hmem, ?_⟩) rfl
  simp [noticeAt?, hfault]

theorem Closed.scanStrict_ne {source : String} (h : Closed source) (p : Position) :
    scanStrict source ≠ .error ⟨.unterminated, p⟩ := by
  rw [scanStrict_eq]
  cases hnotices : notices source with
  | nil => nofun
  | cons n ns =>
      intro heq
      obtain rfl := Except.error.inj heq
      exact h _ (hnotices ▸ List.mem_cons_self) rfl

/-- What pieces make of themselves and their places alone stands one after the other as well. -/
theorem filterMap_located_join {α : Type} {source : String} (h : Closed source) (below : String)
    {f : Piece × Position → Option α} {g : α → α} (hspace : ∀ c p, f (.space c, p) = none)
    (hdown : ∀ l, f (l.1, l.2.down (source.toList.count '\n' + 1)) = (f l).map g) :
    (located (source ++ "\n" ++ below)).filterMap f =
      (located source).filterMap f ++ ((located below).filterMap f).map g := by
  rw [located_join fun piece => h.fault?_ne, List.filterMap_append,
    List.filterMap_cons_none (hspace _ _), List.filterMap_map, List.map_filterMap]
  simp only [Function.comp_def, hdown]

theorem scan_join {source : String} (h : Closed source) (below : String) :
    scan (source ++ "\n" ++ below) =
      scan source ++ (scan below).map (Token.down (source.toList.count '\n' + 1)) :=
  filterMap_located_join h below (fun _ _ => rfl) (tokenAt?_down _)

theorem notices_join {source : String} (h : Closed source) (below : String) :
    notices (source ++ "\n" ++ below) =
      notices source ++ (notices below).map (Notice.down (source.toList.count '\n' + 1)) :=
  filterMap_located_join h below (fun _ _ => rfl) (noticeAt?_down _)

/-- The pieces up to the first fault, if that is not a text without a closing quote. -/
theorem exists_front_of_notice {p : Position} {ps : List Piece} {n : Notice} {ns : List Notice}
    (h : (locate p ps).filterMap noticeAt? = n :: ns) (hn : n.fault ≠ .unterminated) :
    ∃ front back, ps = front ++ back ∧ (∀ piece ∈ front, piece.fault? ≠ some .unterminated) ∧
      (locate p front).filterMap noticeAt? = [n] := by
  induction ps generalizing p with
  | nil => cases h
  | cons piece ps ih =>
      rw [locate, List.filterMap_cons] at h
      cases hfault : piece.fault? with
      | none =>
          have hnone : noticeAt? (piece, p) = none := by simp [noticeAt?, hfault]
          rw [hnone] at h
          obtain ⟨front, back, rfl, hclosed, hnotice⟩ := ih h
          refine ⟨piece :: front, back, rfl, ?_, ?_⟩
          · rintro piece' (_ | ⟨_, hmem⟩)
            · simp [hfault]
            · exact hclosed piece' hmem
          · rw [locate, List.filterMap_cons_none hnone, hnotice]
      | some fault =>
          have hsome : noticeAt? (piece, p) = some ⟨fault, p⟩ := by simp [noticeAt?, hfault]
          rw [hsome] at h
          obtain rfl := (List.cons.inj h).1
          refine ⟨[piece], ps, rfl, ?_, ?_⟩
          · simpa [hfault] using hn
          · rw [locate, List.filterMap_cons_some hsome]
            rfl

/-- The first thing that is wrong with the upper source is the first with both. -/
theorem head?_notices_join {source : String} {n : Notice} {ns : List Notice}
    (h : notices source = n :: ns) (hn : n.fault ≠ .unterminated) (below : String) :
    (notices (source ++ "\n" ++ below)).head? = some n := by
  obtain ⟨front, back, hpieces, hclosed, hnotice⟩ := exists_front_of_notice h hn
  have htiles : Tiles source.toList (front ++ back) := hpieces ▸ tiles_pieces source.toList
  rw [notices, located, toList_join, htiles.pieces_join hclosed, locate_append,
    List.filterMap_append, hnotice]
  rfl

/-- A strict scan stops in the upper source, or else in the lower one, or else nowhere. -/
theorem scanStrict_join {source : String} (h : ∀ p, scanStrict source ≠ .error ⟨.unterminated, p⟩)
    (below : String) :
    scanStrict (source ++ "\n" ++ below) = do
      let upper ← scanStrict source
      let lower ← (scanStrict below).mapError (Notice.down (source.toList.count '\n' + 1))
      return upper ++ lower.map (Token.down (source.toList.count '\n' + 1)) := by
  rw [scanStrict_eq source] at h ⊢
  cases hnotices : notices source with
  | cons n ns =>
      have hn : n.fault ≠ .unterminated := by
        obtain ⟨fault, p⟩ := n
        rintro rfl
        exact h p (by rw [hnotices]; rfl)
      rw [scanStrict_eq, head?_notices_join hnotices hn]
      rfl
  | nil =>
      have hclosed : Closed source := by simp [Closed, hnotices]
      rw [scanStrict_eq, scanStrict_eq, notices_join hclosed, scan_join hclosed, hnotices]
      cases notices below with
      | nil => rfl
      | cons n ns => rfl

/-- The tokens of two sources with a newline between them are the tokens of the upper one and then
those of the lower one, as many lines further down as the upper one has.  A strict scan stops at
what is wrong with the upper source, or else at what is wrong with the lower one, moved down
likewise.  Only a text without a closing quote would go on below the newline; a strict scan may stop
before it comes to one. -/
theorem tokenize_join (source below : String) (s : Session) :
    (Closed source → ∃ upper lower,
      ((tokenize false source).outcome s).1 = .ok upper ∧
      ((tokenize false below).outcome s).1 = .ok lower ∧
      ((tokenize false (source ++ "\n" ++ below)).outcome s).1 =
        .ok (upper ++ lower.map (Token.down (source.toList.count '\n' + 1)))) ∧
    ((Closed source ∨ ∀ p, ((tokenize true source).outcome s).1 ≠ .error ⟨.unterminated, p⟩) →
      ((tokenize true (source ++ "\n" ++ below)).outcome s).1 = do
        let upper ← ((tokenize true source).outcome s).1
        let lower ← ((tokenize true below).outcome s).1.mapError
          (Notice.down (source.toList.count '\n' + 1))
        return upper ++ lower.map (Token.down (source.toList.count '\n' + 1))) := by
  have hlenient (source : String) : ((tokenize false source).outcome s).1 = .ok (scan source) := by
    rw [outcome_tokenize_of_ok (by simp)]
  simp only [hlenient, outcome_tokenize_strict]
  constructor
  · intro h
    exact ⟨scan source, scan below, rfl, rfl, by rw [scan_join h]⟩
  · rintro (h | h)
    · exact scanStrict_join h.scanStrict_ne below
    · exact scanStrict_join h below

/-- The upper source has a text over two lines and ends in a comment with a quote in it. -/
theorem tokenize_join_comment :
    let source := "a 'x\ny' $ # b 'c"
    let below := "'p\nq' % d"
    let s : Session := ⟨.constant ⟨0⟩, .constant "", .constant 0.0, [], {}, ""⟩
    Closed source ∧
    (∃ upper lower,
      ((tokenize false source).outcome s).1 = .ok upper ∧
      ((tokenize false below).outcome s).1 = .ok lower ∧
      ((tokenize false (source ++ "\n" ++ below)).outcome s).1 =
        .ok (upper ++ lower.map (Token.down (source.toList.count '\n' + 1)))) ∧
    ((tokenize true (source ++ "\n" ++ below)).outcome s).1 = do
      let upper ← ((tokenize true source).outcome s).1
      let lower ← ((tokenize true below).outcome s).1.mapError
        (Notice.down (source.toList.count '\n' + 1))
      return upper ++ lower.map (Token.down (source.toList.count '\n' + 1)) := by
  intro source below s
  have hclosed : Closed source := by
    unfold Closed
    decide +kernel
  obtain ⟨hlenient, hstrict⟩ := tokenize_join source below s
  exact ⟨hclosed, hlenient hclosed, hstrict (.inl hclosed)⟩

-- an open text takes in what is put below it
example : (scan ("a 'b" ++ "\n" ++ "c")).map Token.text = ["a", "b\nc"] := by decide +kernel

end Token

end IntentPlan
