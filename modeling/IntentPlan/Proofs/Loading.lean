import IntentPlan.Command
import IntentPlan.Proofs.Documents
import IntentPlan.Proofs.Outcome
import Mathlib.Data.List.Induction

/-!
# Batch files of two kinds

The items of a batch are written one on a line, or all in one list.  A line may be blank, and blanks
at its ends do not count (`forall₂_contentLines`), so that a line with a document on it is read as
this document.  But a document may hold, in one of its texts, a character that ends a line and is
neither a newline nor a carriage return.  Such a document is cut in two, and its first part is none
(`Json.readChars_of_cut`).  There the two kinds of files differ, and only there.
-/

namespace IntentPlan

namespace Text

open Json (Trims)

/-! ## Lines that are not blank -/

/-- The line, unless it is blank. -/
def keep (line : List Char) : List (List Char) := if line.all isBlank then [] else [line]

/-- The lines that are not blank, of a text that starts in the middle of a line. -/
def contentFrom (line cs : List Char) : List (List Char) :=
  (splitLinesFrom line cs).filter fun line => !line.all isBlank

def contentLines (cs : List Char) : List (List Char) := contentFrom [] cs

theorem filter_cons_keep (line : List Char) (lines : List (List Char)) :
    ((line :: lines).filter fun line => !line.all isBlank) =
      keep line ++ lines.filter fun line => !line.all isBlank := by
  rw [List.filter_cons, keep]
  cases line.all isBlank with
  | true => rfl
  | false => rfl

theorem contentFrom_nil (line : List Char) : contentFrom line [] = keep line.reverse := by
  rw [contentFrom, splitLinesFrom]
  cases line with
  | nil => rfl
  | cons c line => exact (filter_cons_keep _ []).trans (List.append_nil _)

theorem contentFrom_cons {c : Char} (h : c ≠ '\r') (line cs : List Char) :
    contentFrom line (c :: cs) = if isLineBreak c then keep line.reverse ++ contentLines cs
      else contentFrom (c :: line) cs := by
  rw [contentFrom, splitLinesFrom.eq_3 line c cs (fun _ hc => absurd hc h)]
  split
  · exact filter_cons_keep _ _
  · rfl

theorem contentFrom_append {cs : List Char} (h : '\r' ∉ cs) (line more : List Char) :
    contentFrom line (cs ++ '\n' :: more) = contentFrom line cs ++ contentLines more := by
  induction cs generalizing line with
  | nil => rw [List.nil_append, contentFrom_cons (by decide), contentFrom_nil]; rfl
  | cons c cs ih =>
      obtain ⟨hc, hcs⟩ : '\r' ≠ c ∧ '\r' ∉ cs := by simpa using h
      rw [List.cons_append, contentFrom_cons (Ne.symm hc), contentFrom_cons (Ne.symm hc)]
      split
      · rw [contentLines, ih hcs, List.append_assoc]
        rfl
      · exact ih hcs (c :: line)

/-- The lines of lines that are put together are the lines of each of them. -/
theorem contentLines_intercalate {lines : List (List Char)} (h : ∀ line ∈ lines, '\r' ∉ line) :
    contentLines (List.intercalate ['\n'] lines) = lines.flatMap contentLines := by
  induction lines with
  | nil => rfl
  | cons line lines ih =>
      cases lines with
      | nil => simp
      | cons next lines =>
          have hrest := ih fun line hline => h line (List.mem_cons_of_mem _ hline)
          have hline := h line List.mem_cons_self
          rw [List.intercalate_cons_cons, List.append_assoc, List.flatMap_cons, ← hrest]
          exact contentFrom_append hline [] _

/-- Characters that do not break the line go on with it. -/
theorem contentFrom_line_append {cs : List Char} (h : ∀ c ∈ cs, isLineBreak c = false)
    (line more : List Char) :
    contentFrom line (cs ++ more) = contentFrom (cs.reverse ++ line) more := by
  induction cs generalizing line with
  | nil => rfl
  | cons c cs ih =>
      have hc := h c List.mem_cons_self
      have hreturn : c ≠ '\r' := by
        rintro rfl
        cases hc
      rw [List.cons_append, contentFrom_cons hreturn, hc, if_neg Bool.false_ne_true,
        ih fun x hx => h x (List.mem_cons_of_mem _ hx)]
      simp

theorem contentLines_of_notMem {cs : List Char} (h : ∀ c ∈ cs, isLineBreak c = false) :
    contentLines cs = keep cs := by
  have hline := contentFrom_line_append h [] []
  rwa [List.append_nil, List.append_nil, contentFrom_nil, List.reverse_reverse] at hline

/-- The first line of a text ends where the text first breaks. -/
theorem contentLines_of_break {cs more : List Char} {c : Char}
    (h : ∀ c ∈ cs, isLineBreak c = false) (hc : isLineBreak c = true) (hreturn : c ≠ '\r') :
    contentLines (cs ++ c :: more) = keep cs ++ contentLines more := by
  rw [contentLines, contentFrom_line_append h, contentFrom_cons hreturn, if_pos hc, List.append_nil,
    List.reverse_reverse]

theorem contentFrom_of_blank {cs line : List Char} (hline : ∀ c ∈ line, isBlank c = true)
    (h : ∀ c ∈ cs, isBlank c = true) (hreturn : '\r' ∉ cs) : contentFrom line cs = [] := by
  have hkeep : ∀ line : List Char, (∀ c ∈ line, isBlank c = true) → keep line.reverse = [] := by
    intro line hline
    rw [keep, if_pos]
    exact List.all_eq_true.2 fun c hc => hline c (List.mem_reverse.1 hc)
  induction cs generalizing line with
  | nil => rw [contentFrom_nil, hkeep line hline]
  | cons c cs ih =>
      obtain ⟨hc, hcs⟩ : '\r' ≠ c ∧ '\r' ∉ cs := by simpa using hreturn
      have hrest : ∀ c ∈ cs, isBlank c = true := fun x hx => h x (List.mem_cons_of_mem _ hx)
      rw [contentFrom_cons (Ne.symm hc)]
      split
      · rw [hkeep line hline]
        exact ih nofun hrest hcs
      · exact ih (List.forall_mem_cons.2 ⟨h c List.mem_cons_self, hline⟩) hrest hcs

/-! ## Blanks at the ends of a text -/

theorem forall₂_trims_refl (lines : List (List Char)) : List.Forall₂ Trims lines lines :=
  List.forall₂_same.2 fun line _ => .refl line

theorem forall₂_trims_trans {xs ys zs : List (List Char)} (h : List.Forall₂ Trims xs ys)
    (h' : List.Forall₂ Trims ys zs) : List.Forall₂ Trims xs zs := by
  induction h generalizing zs with
  | nil => exact h'
  | cons hfirst _ ih =>
      cases h' with
      | cons hfirst' hrest' => exact .cons (hfirst.trans hfirst') (ih hrest')

theorem forall₂_keep {line cs : List Char} (h : Trims line cs) :
    List.Forall₂ Trims (keep line) (keep cs) := by
  have hblank : cs.all isBlank = line.all isBlank := by
    obtain ⟨front, back, rfl, hfront, hback⟩ := h
    rw [List.all_append, List.all_append, List.all_eq_true.2 hfront, List.all_eq_true.2 hback,
      Bool.true_and, Bool.and_true]
  rw [keep, keep, hblank]
  split
  · exact .nil
  · exact .cons h .nil

/-- Blanks at the start of the first line do not change the others. -/
theorem forall₂_contentFrom_append {cs blanks : List Char} (hreturn : '\r' ∉ cs)
    (hblanks : ∀ c ∈ blanks, isBlank c = true) (line : List Char) :
    List.Forall₂ Trims (contentFrom line cs) (contentFrom (line ++ blanks) cs) := by
  have hline : ∀ line : List Char, Trims line.reverse (line ++ blanks).reverse := by
    intro line
    refine ⟨blanks.reverse, [], by simp, fun c hc => hblanks c (List.mem_reverse.1 hc), nofun⟩
  induction cs generalizing line with
  | nil =>
      rw [contentFrom_nil, contentFrom_nil]
      exact forall₂_keep (hline line)
  | cons c cs ih =>
      obtain ⟨hc, hcs⟩ : '\r' ≠ c ∧ '\r' ∉ cs := by simpa using hreturn
      rw [contentFrom_cons (Ne.symm hc), contentFrom_cons (Ne.symm hc)]
      split
      · exact List.rel_append (forall₂_keep (hline line)) (forall₂_trims_refl _)
      · exact ih hcs (c :: line)

theorem forall₂_contentLines_cons {cs : List Char} {c : Char} (hreturn : '\r' ∉ c :: cs)
    (hc : isBlank c = true) : List.Forall₂ Trims (contentLines cs) (contentLines (c :: cs)) := by
  obtain ⟨hne, hcs⟩ : '\r' ≠ c ∧ '\r' ∉ cs := by simpa using hreturn
  rw [contentLines, contentLines, contentFrom_cons (Ne.symm hne)]
  split
  · exact forall₂_trims_refl _
  · exact forall₂_contentFrom_append hcs (fun x hx => List.mem_singleton.1 hx ▸ hc) []

theorem forall₂_contentFrom_concat {cs : List Char} {c : Char} (hreturn : '\r' ∉ cs ++ [c])
    (hc : isBlank c = true) (line : List Char) :
    List.Forall₂ Trims (contentFrom line cs) (contentFrom line (cs ++ [c])) := by
  induction cs generalizing line with
  | nil =>
      have hne : c ≠ '\r' := by
        rintro rfl
        exact hreturn (by simp)
      rw [List.nil_append, contentFrom_cons hne, contentFrom_nil]
      split
      · rw [contentLines, contentFrom_nil]
        exact (List.append_nil (keep line.reverse)).symm ▸ forall₂_trims_refl _
      · rw [contentFrom_nil]
        exact forall₂_keep ⟨[], [c], by simp, nofun, fun x hx => List.mem_singleton.1 hx ▸ hc⟩
  | cons x cs ih =>
      obtain ⟨hx, hcs⟩ : '\r' ≠ x ∧ '\r' ∉ cs ++ [c] := by simpa using hreturn
      rw [List.cons_append, contentFrom_cons (Ne.symm hx), contentFrom_cons (Ne.symm hx)]
      split
      · exact List.rel_append (forall₂_trims_refl _) (ih hcs [])
      · exact ih hcs (x :: line)

/-- A text is trimmed by taking blanks from its two ends. -/
theorem trims_trimChars (cs : List Char) : Trims (trimChars cs) cs := by
  refine ⟨cs.takeWhile isBlank, ((cs.dropWhile isBlank).reverse.takeWhile isBlank).reverse, ?_,
    List.all_eq_true.1 List.all_takeWhile, fun c hc => ?_⟩
  · rw [trimChars, List.append_assoc, ← List.reverse_append, List.takeWhile_append_dropWhile,
      List.reverse_reverse, List.takeWhile_append_dropWhile]
  · exact List.all_eq_true.1 List.all_takeWhile c (List.mem_reverse.1 hc)

/-- The lines of a trimmed text are those of the text, without some blanks at their ends. -/
theorem forall₂_contentLines {cs line : List Char} (h : Trims line cs) (hreturn : '\r' ∉ cs) :
    List.Forall₂ Trims (contentLines line) (contentLines cs) := by
  obtain ⟨front, back, rfl, hfront, hback⟩ := h
  rw [List.append_assoc] at hreturn ⊢
  induction front with
  | nil =>
      induction back using List.reverseRecOn with
      | nil =>
          rw [List.append_nil]
          exact forall₂_trims_refl _
      | append_singleton back c ih =>
          rw [List.nil_append, ← List.append_assoc] at hreturn ⊢
          refine forall₂_trims_trans (ih (fun x hx => hback x (by simp [hx])) ?_)
            (forall₂_contentFrom_concat hreturn (hback c (by simp)) [])
          exact fun hmem => hreturn (List.mem_append_left _ hmem)
  | cons c front ih =>
      refine forall₂_trims_trans (ih ?_ fun x hx => hfront x (List.mem_cons_of_mem _ hx))
        (forall₂_contentLines_cons hreturn (hfront c List.mem_cons_self))
      exact fun hmem => hreturn (List.mem_cons_of_mem _ hmem)

end Text

/-! ## Files with a document on every line -/

namespace Command

open Text (contentLines isLineBreak)

/-- The characters that end a line but may stand in a document that has no newline and no carriage
return. -/
def separators : List Char := ['\u0085', '\u2028', '\u2029']

theorem mem_separators {cs : List Char} {d : Datum} (h : Json.readChars cs = .ok d)
    (hnewline : '\n' ∉ cs) (hreturn : '\r' ∉ cs) {c : Char} (hc : c ∈ cs)
    (hbreak : isLineBreak c = true) : c ∈ separators := by
  have hplain := Json.isPlain_of_readChars h c hc
  simp only [isLineBreak, List.mem_cons, List.not_mem_nil, or_false, decide_eq_true_eq] at hbreak
  obtain rfl | rfl | rfl | rfl | rfl | rfl | rfl | rfl | rfl | rfl := hbreak
  · exact absurd hc hnewline
  · exact absurd hc hreturn
  · cases hplain
  · cases hplain
  · cases hplain
  · cases hplain
  · cases hplain
  · exact .head _
  · exact .tail _ (.head _)
  · exact .tail _ (.tail _ (.head _))

theorem of_mem_separators {c : Char} (h : c ∈ separators) :
    isLineBreak c = true ∧ Text.isBlank c = true ∧ Json.isSpace c = false := by
  simp only [separators, List.mem_cons, List.not_mem_nil, or_false] at h
  obtain rfl | rfl | rfl := h
  · exact ⟨rfl, rfl, rfl⟩
  · exact ⟨rfl, rfl, rfl⟩
  · exact ⟨rfl, rfl, rfl⟩

theorem read_eq_ok_iff {text : String} {d : Datum} :
    Json.read text = .ok d ↔ Json.readChars text.toList = .ok d := by
  rw [Json.read]
  cases Json.readChars text.toList with
  | ok d' => simp
  | error e => simp

/-- The items of a file with lines are read from the lines that are not blank. -/
theorem itemsOf_lines {path : Path} (hpath : Text.lower path.suffix = ".jsonl") (text : String) :
    itemsOf path text =
      (((contentLines (Text.trimChars text.toList)).map String.ofList).mapM Json.read).mapError
        .json := by
  have hlines : (Text.splitLines (Text.trim text)).filter (fun line => !Text.allBlank line) =
      (contentLines (Text.trimChars text.toList)).map String.ofList := by
    rw [Text.splitLines, Text.trim, String.toList_ofList, List.filter_map, contentLines,
      Text.contentFrom]
    congr 2
    funext line
    simp [Text.allBlank]
  rw [itemsOf, if_pos hpath, hlines]
  split
  · rename_i hempty
    have hnil : Text.trimChars text.toList = [] := by simpa [Text.trim] using hempty
    rw [hnil]
    rfl
  · rfl

theorem trimChars_bracketed (cs : List Char) :
    Text.trimChars ('[' :: (cs ++ [']'])) = '[' :: (cs ++ [']']) := by
  have hreverse : ('[' :: (cs ++ [']'])).reverse = ']' :: ('[' :: cs).reverse := by simp
  rw [Text.trimChars, List.dropWhile_cons_of_neg (by decide), hreverse,
    List.dropWhile_cons_of_neg (by decide), ← hreverse, List.reverse_reverse]

/-- The items of a file with a list are read from the list. -/
theorem itemsOf_list {path : Path} (hpath : Text.lower path.suffix ≠ ".jsonl")
    {docs : List String} {values : List Datum}
    (h : List.Forall₂ (fun doc d => Json.read doc = .ok d) docs values) :
    itemsOf path ("[" ++ String.intercalate "," docs ++ "]") = .ok values := by
  have htext : ("[" ++ String.intercalate "," docs ++ "]").toList =
      '[' :: (List.intercalate [','] (docs.map String.toList) ++ [']']) := by
    rw [String.toList_append, String.toList_append, String.toList_intercalate]
    rfl
  have htrim : Text.trim ("[" ++ String.intercalate "," docs ++ "]") =
      String.ofList ('[' :: (List.intercalate [','] (docs.map String.toList) ++ [']'])) := by
    rw [Text.trim, htext, trimChars_bracketed]
  have hread : Json.read (String.ofList
      ('[' :: (List.intercalate [','] (docs.map String.toList) ++ [']']))) =
        .ok (.list values) := by
    rw [read_eq_ok_iff, String.toList_ofList]
    refine Json.readChars_list (List.forall₂_map_left_iff.2 (h.imp fun _ _ hdoc => ?_))
    exact read_eq_ok_iff.1 hdoc
  rw [itemsOf, htrim, if_neg (by simp), if_neg hpath, hread]

/-! ## Lines with documents on them -/

/-- The lines of a file that are not blank. -/
def documents (lines : List String) : List String := lines.filter fun line => !Text.allBlank line

section

variable {lines : List String}
variable (hlines : ∀ line ∈ lines, '\n' ∉ line.toList ∧ '\r' ∉ line.toList ∧
  (Text.allBlank line = true ∨ ∃ d, Json.read line = .ok d))

include hlines

theorem return_notMem_intercalate : '\r' ∉ (String.intercalate "\n" lines).toList := by
  rw [String.toList_intercalate]
  induction lines with
  | nil => simp
  | cons line lines ih =>
      have hline := (hlines line List.mem_cons_self).2.1
      have hrest := ih fun line hline => hlines line (List.mem_cons_of_mem _ hline)
      cases lines with
      | nil => simpa using hline
      | cons next lines =>
          rw [List.map_cons, List.map_cons, List.intercalate_cons_cons]
          simp only [List.mem_append, not_or]
          exact ⟨⟨hline, by decide⟩, hrest⟩

theorem exists_of_mem_documents {doc : String} (h : doc ∈ documents lines) :
    '\n' ∉ doc.toList ∧ '\r' ∉ doc.toList ∧ ∃ d, Json.readChars doc.toList = .ok d := by
  obtain ⟨hmem, hsome⟩ := List.mem_filter.1 h
  obtain ⟨hnewline, hreturn, hblank | ⟨d, hd⟩⟩ := hlines doc hmem
  · rw [hblank] at hsome
    cases hsome
  · exact ⟨hnewline, hreturn, d, read_eq_ok_iff.1 hd⟩

theorem exists_values : ∃ values,
    List.Forall₂ (fun doc d => Json.read doc = .ok d) (documents lines) values := by
  have hvalue : ∀ doc ∈ documents lines, ∃ d, Json.read doc = .ok d := by
    intro doc hdoc
    obtain ⟨-, -, d, hd⟩ := exists_of_mem_documents hlines hdoc
    exact ⟨d, read_eq_ok_iff.2 hd⟩
  generalize documents lines = docs at hvalue
  induction docs with
  | nil => exact ⟨[], .nil⟩
  | cons doc docs ih =>
      obtain ⟨d, hd⟩ := hvalue doc List.mem_cons_self
      obtain ⟨values, hvalues⟩ := ih fun doc hdoc => hvalue doc (List.mem_cons_of_mem _ hdoc)
      exact ⟨d :: values, .cons hd hvalues⟩

/-- The lines of a file are those of the documents on it. -/
theorem contentLines_lines :
    contentLines (String.intercalate "\n" lines).toList =
      (documents lines).flatMap fun doc => contentLines doc.toList := by
  have hreturn : ∀ line ∈ lines.map String.toList, '\r' ∉ line := by
    intro _ hline
    obtain ⟨line, hmem, rfl⟩ := List.mem_map.1 hline
    exact (hlines line hmem).2.1
  rw [String.toList_intercalate]
  refine (Text.contentLines_intercalate hreturn).trans ?_
  rw [List.flatMap_map, documents]
  clear hreturn
  induction lines with
  | nil => rfl
  | cons line lines ih =>
      rw [List.flatMap_cons, ih fun line hline => hlines line (List.mem_cons_of_mem _ hline),
        List.filter_cons]
      split
      · rfl
      · rename_i hblank
        have hall : ∀ c ∈ line.toList, Text.isBlank c = true := by
          simpa [Text.allBlank] using hblank
        rw [contentLines, Text.contentFrom_of_blank (List.forall_mem_nil _) hall
          (hlines line List.mem_cons_self).2.1]
        rfl

/-- A document without a separator is a line. -/
theorem contentLines_document {doc : String} (hdoc : doc ∈ documents lines)
    (h : ∀ c ∈ separators, c ∉ doc.toList) : contentLines doc.toList = [doc.toList] := by
  obtain ⟨hnewline, hreturn, d, hd⟩ := exists_of_mem_documents hlines hdoc
  have hbreak : ∀ c ∈ doc.toList, isLineBreak c = false := by
    intro c hc
    rw [Bool.eq_false_iff]
    exact fun hbreak => h c (mem_separators hd hnewline hreturn hc hbreak) hc
  have hblank : doc.toList.all Text.isBlank = false := by
    simpa [Text.allBlank] using (List.mem_filter.1 hdoc).2
  rw [Text.contentLines_of_notMem hbreak, Text.keep]
  simp [hblank]

/-- A document with a separator is cut, and its first part is no document. -/
theorem exists_cut_of_document {doc : String} (hdoc : doc ∈ documents lines) {c : Char}
    (hseparator : c ∈ separators) (hc : c ∈ doc.toList) :
    ∃ part ∈ contentLines doc.toList, ∀ line d, Json.Trims line part →
      Json.readChars line ≠ .ok d := by
  obtain ⟨hnewline, hreturn, d, hd⟩ := exists_of_mem_documents hlines hdoc
  obtain ⟨x, hfirst⟩ := Option.isSome_iff_exists.1
    (List.find?_isSome.2 ⟨c, hc, (of_mem_separators hseparator).1⟩)
  obtain ⟨hx, part, more, hcs, hpart⟩ := List.find?_eq_some_iff_append.1 hfirst
  rw [hcs] at hnewline hreturn hd ⊢
  obtain ⟨-, hblank, hspace⟩ := of_mem_separators
    (mem_separators hd hnewline hreturn (List.mem_append_right _ List.mem_cons_self) hx)
  have hbreak : ∀ c ∈ part, isLineBreak c = false := fun c hc => by simpa using hpart c hc
  have hne : x ≠ '\r' := by
    rintro rfl
    exact hreturn (by simp)
  have hkeep : Text.keep part = [part] := by
    obtain ⟨y, hy, hyblank⟩ := Json.exists_of_cut hblank hspace hd
    rw [Text.keep, if_neg]
    intro hall
    rw [List.all_eq_true.1 hall y hy] at hyblank
    cases hyblank
  refine ⟨part, ?_, fun line d' htrims => Json.readChars_of_cut hblank hspace hd htrims d'⟩
  rw [Text.contentLines_of_break hbreak hx hne, hkeep]
  simp

end

theorem exists_mem_of_forall₂ {α β : Type} {R : α → β → Prop} {xs : List α} {ys : List β}
    (h : List.Forall₂ R xs ys) {y : β} (hy : y ∈ ys) : ∃ x ∈ xs, R x y := by
  induction h with
  | nil => cases hy
  | cons hfirst _ ih =>
      rcases List.mem_cons.1 hy with rfl | hy
      · exact ⟨_, List.mem_cons_self, hfirst⟩
      · obtain ⟨x, hx, hxy⟩ := ih hy
        exact ⟨x, List.mem_cons_of_mem _ hx, hxy⟩

/-- Documents that lost some blanks at their ends have the same values. -/
theorem forall₂_read_of_trims {trimmed : List (List Char)} {docs : List String}
    {values : List Datum} (htrims : List.Forall₂ Json.Trims trimmed (docs.map String.toList))
    (h : List.Forall₂ (fun doc d => Json.read doc = .ok d) docs values) :
    List.Forall₂ (fun line d => Json.read line = .ok d) (trimmed.map String.ofList) values := by
  induction h generalizing trimmed with
  | nil =>
      cases htrims
      exact .nil
  | cons hdoc _ ih =>
      cases htrims with
      | cons hfirst hrest =>
          refine .cons (read_eq_ok_iff.2 ?_) (ih hrest)
          rw [String.toList_ofList]
          exact Json.readChars_of_trims (read_eq_ok_iff.1 hdoc) hfirst

theorem exists_of_isSome_toOption {ε α : Type} {x : Except ε α}
    (h : x.toOption.isSome = true) : ∃ a, x = .ok a := by
  cases x with
  | error e => cases h
  | ok a => exact ⟨a, rfl⟩

theorem outcome_loadItems {path : Path} {text : String} {s : Session}
    (h : s.files.readText path = .ok text) :
    (loadItems path).outcome s = (itemsOf path text, s) := by
  have hread : (Work.readFile path).outcome s = (.ok text, s) := by
    change (s.files.readText path, s) = _
    rw [h]
  rw [loadItems, Work.outcome_bind, Work.outcome_mapError, hread]
  rfl

/-- The items of a file with one document on every line that is not blank are those of a file with
the list of these documents, unless a document holds one of three characters that end a line and are
no newline and no carriage return.  A file with lines is then refused, while the list is read all
the same. -/
theorem loadItems_lines (path path' : Path) (lines : List String) (s : Session)
    (hpath : Text.lower path.suffix = ".jsonl") (hpath' : Text.lower path'.suffix ≠ ".jsonl")
    (hlines : ∀ line ∈ lines, '\n' ∉ line.toList ∧ '\r' ∉ line.toList ∧
      (Text.allBlank line = true ∨ ∃ d, Json.read line = .ok d))
    (hread : s.files.readText path = .ok (String.intercalate "\n" lines))
    (hread' : s.files.readText path' =
      .ok ("[" ++ String.intercalate "," (documents lines) ++ "]")) :
    ∃ values, (documents lines).mapM Json.read = .ok values ∧
      (loadItems path').outcome s = (.ok values, s) ∧
      ((∀ doc ∈ documents lines, ∀ c ∈ separators, c ∉ doc.toList) →
        (loadItems path).outcome s = (.ok values, s)) ∧
      ((∃ doc ∈ documents lines, ∃ c ∈ separators, c ∈ doc.toList) →
        ∃ e, (loadItems path).outcome s = (.error (.json e), s)) := by
  obtain ⟨values, hvalues⟩ := exists_values hlines
  have htrims := Text.forall₂_contentLines
    (Text.trims_trimChars (String.intercalate "\n" lines).toList)
    (return_notMem_intercalate hlines)
  rw [contentLines_lines hlines] at htrims
  rw [outcome_loadItems hread, outcome_loadItems hread', itemsOf_list hpath' hvalues,
    itemsOf_lines hpath]
  refine ⟨values, Work.mapM_eq_ok_iff.2 hvalues, rfl, fun hgood => ?_, fun hbad => ?_⟩
  · have hdocs : ((documents lines).flatMap fun doc => contentLines doc.toList) =
        (documents lines).map String.toList := by
      rw [List.flatMap_congr fun doc hdoc => contentLines_document hlines hdoc (hgood doc hdoc)]
      exact List.map_eq_flatMap.symm
    rw [hdocs] at htrims
    rw [Work.mapM_eq_ok_iff.2 (forall₂_read_of_trims htrims hvalues)]
    rfl
  · obtain ⟨doc, hdoc, c, hseparator, hc⟩ := hbad
    obtain ⟨part, hpart, hcut⟩ := exists_cut_of_document hlines hdoc hseparator hc
    obtain ⟨line, hline, htrim⟩ := exists_mem_of_forall₂ htrims
      (List.mem_flatMap.2 ⟨doc, hdoc, hpart⟩)
    cases hmap : ((contentLines (Text.trimChars
        (String.intercalate "\n" lines).toList)).map String.ofList).mapM Json.read with
    | error e => exact ⟨e, rfl⟩
    | ok found =>
        obtain ⟨d, -, hd⟩ := exists_mem_of_forall₂ (Work.mapM_eq_ok_iff.1 hmap).flip
          (List.mem_map_of_mem hline)
        rw [read_eq_ok_iff, String.toList_ofList] at hd
        exact absurd hd (hcut line d htrim)

/-- Two documents among blank lines, one of which is a separator. -/
theorem loadItems_lines_two :
    let lines := [" [1, null] ", "\u2028\t", "", "\"a\\n\""]
    let s : Session := ⟨.constant ⟨0⟩, .constant "a", .constant 0.0, [], ⟨[
      (["b.jsonl"], .file (String.intercalate "\n" lines).toUTF8),
      (["b.json"], .file "[ [1, null] ,\"a\\n\"]".toUTF8)]⟩, ""⟩
    ∃ values, values.map Json.write = ["[\n  1,\n  null\n]", "\"a\\n\""] ∧
      (loadItems ⟨"", ["b.jsonl"]⟩).outcome s = (.ok values, s) ∧
      (loadItems ⟨"", ["b.json"]⟩).outcome s = (.ok values, s) := by
  intro lines s
  have hlines : ∀ line ∈ lines, '\n' ∉ line.toList ∧ '\r' ∉ line.toList ∧
      (Text.allBlank line = true ∨ (Json.read line).toOption.isSome = true) := by
    decide +kernel
  obtain ⟨values, hvalues, hlist, hgood, -⟩ := loadItems_lines ⟨"", ["b.jsonl"]⟩
    ⟨"", ["b.json"]⟩ lines s (by decide +kernel) (by decide +kernel)
    (fun line hline => (hlines line hline).imp_right fun h =>
      h.imp_right fun h => h.imp_right exists_of_isSome_toOption)
    (by decide +kernel) (by decide +kernel)
  have hwritten : ((documents lines).mapM Json.read).toOption.map (List.map Json.write) =
      some ["[\n  1,\n  null\n]", "\"a\\n\""] := by decide +kernel
  have hclean : (documents lines).all (fun doc => separators.all fun c => !doc.toList.contains c) =
      true := by decide +kernel
  rw [hvalues] at hwritten
  refine ⟨values, Option.some.inj hwritten, hgood fun doc hdoc c hc => ?_, hlist⟩
  simpa using List.all_eq_true.1 (List.all_eq_true.1 hclean doc hdoc) c hc

/-- A document with a separator in one of its texts.  A list with it is read, but alone on its line
it is cut within the text. -/
theorem loadItems_separator_refused :
    let doc := "\x7b\"name\": \"relay\", \"source\": " ++
      "\"intent relay \x7b goal: 'pass\u2028on' capabilities: ['x'] \x7d\"\x7d"
    let s : Session := ⟨.constant ⟨0⟩, .constant "a", .constant 0.0, [], ⟨[
      (["b.jsonl"], .file (doc ++ "\n").toUTF8),
      (["b.json"], .file ("[" ++ doc ++ "]").toUTF8)]⟩, ""⟩
    '\n' ∉ doc.toList ∧ '\r' ∉ doc.toList ∧
      (∃ d, Json.read doc = .ok d ∧ (loadItems ⟨"", ["b.json"]⟩).outcome s = (.ok [d], s)) ∧
      (loadItems ⟨"", ["b.jsonl"]⟩).outcome s =
        (.error (.json ⟨.unterminated, 28, 1, 29⟩), s) := by
  intro doc s
  have hsome : (Json.read doc).toOption.isSome = true := by decide +kernel
  obtain ⟨d, hd⟩ := exists_of_isSome_toOption hsome
  have hlist : s.files.readText ⟨"", ["b.json"]⟩ =
      .ok ("[" ++ String.intercalate "," [doc] ++ "]") := by decide +kernel
  have hlines : s.files.readText ⟨"", ["b.jsonl"]⟩ = .ok (doc ++ "\n") := by decide +kernel
  refine ⟨by decide +kernel, by decide +kernel, ⟨d, hd, ?_⟩, ?_⟩
  · rw [outcome_loadItems hlist, itemsOf_list (by decide +kernel) (.cons hd .nil)]
  · have hcut : ((((contentLines (Text.trimChars (doc ++ "\n").toList)).map
        String.ofList).mapM Json.read).map fun _ => ()) =
        .error ⟨.unterminated, 28, 1, 29⟩ := by decide +kernel
    rw [outcome_loadItems hlines, itemsOf_lines (by decide +kernel)]
    cases hmap : ((contentLines (Text.trimChars (doc ++ "\n").toList)).map
        String.ofList).mapM Json.read with
    | ok found =>
        rw [hmap] at hcut
        cases hcut
    | error e =>
        rw [hmap] at hcut
        cases hcut
        rfl

end Command

end IntentPlan
