import IntentPlan.Json.Reader

/-!
# Texts, numbers and words of a document

Reading a literal takes a front of the text and leaves the rest alone: the same characters in front
of another rest are read as the same value.  Of a text this holds for any other rest
(`takesText_of_readText`), of a number for one that the number cannot go on with
(`exists_of_readMagnitude`), and so of words and numbers together (`exists_of_readPlain`).
-/

namespace IntentPlan.Json

open IntentPlan.Decimal

/-! ## Characters -/

/-- A space, or a character that is no control. -/
def isPlain (c : Char) : Bool := isSpace c || 0x20 ≤ c.toNat

/-- Nothing that a number could go on with. -/
def Stops (cs : List Char) : Prop :=
  ∀ c ∈ cs.head?, c.isDigit = false ∧ c ≠ '.' ∧ c ≠ 'e' ∧ c ≠ 'E'

/-- Plain characters, the last of which is no blank. -/
structure Solid (used : List Char) : Prop where
  plain : ∀ c ∈ used, isPlain c = true
  last : ∃ front c, used = front ++ [c] ∧ Text.isBlank c = false

theorem isPlain_of_le {c : Char} (h : 0x20 ≤ c.toNat) : isPlain c = true := by
  simp [isPlain, h]

theorem isPlain_of_isSpace {c : Char} (h : isSpace c = true) : isPlain c = true := by
  simp [isPlain, h]

namespace Solid

theorem ne_nil {used : List Char} (h : Solid used) : used ≠ [] := by
  obtain ⟨front, c, rfl, -⟩ := h.last
  simp

theorem append {front used : List Char} (hfront : ∀ c ∈ front, isPlain c = true)
    (h : Solid used) : Solid (front ++ used) where
  plain c hc := (List.mem_append.1 hc).elim (hfront c) (h.plain c)
  last := by
    obtain ⟨more, c, rfl, hc⟩ := h.last
    exact ⟨front ++ more, c, (List.append_assoc ..).symm, hc⟩

theorem cons {c : Char} {used : List Char} (hc : isPlain c = true) (h : Solid used) :
    Solid (c :: used) :=
  .append (fun _ hd => List.mem_singleton.1 hd ▸ hc) h

theorem singleton {c : Char} (hplain : isPlain c = true) (hblank : Text.isBlank c = false) :
    Solid [c] where
  plain _ hd := List.mem_singleton.1 hd ▸ hplain
  last := ⟨[], c, rfl, hblank⟩

end Solid

/-! ## Texts -/

theorem isPlain_of_hexValue? {c : Char} {n : Nat} (h : hexValue? c = some n) :
    isPlain c = true := by
  have hlower : ∀ low high : Char, 0x20 ≤ low.toNat →
      (decide (low ≤ c) && decide (c ≤ high)) = true → isPlain c = true := by
    intro low high hlow hbetween
    have hle : low ≤ c := of_decide_eq_true (Bool.and_eq_true_iff.1 hbetween).1
    exact isPlain_of_le (Nat.le_trans hlow hle)
  rw [hexValue?] at h
  split at h
  · exact hlower '0' '9' (by decide) ‹_›
  · split at h
    · exact hlower 'a' 'f' (by decide) ‹_›
    · split at h
      · exact hlower 'A' 'F' (by decide) ‹_›
      · cases h

theorem isPlain_of_unit? {a b c d : Char} {n : Nat} (h : unit? a b c d = some n) :
    ∀ x ∈ ['\\', 'u', a, b, c, d], isPlain x = true := by
  simp only [unit?, Option.bind_eq_bind, Option.bind_eq_some_iff] at h
  obtain ⟨_, ha, _, hb, _, hc, _, hd, -⟩ := h
  intro x hx
  simp only [List.mem_cons, List.not_mem_nil, or_false] at hx
  rcases hx with rfl | rfl | rfl | rfl | rfl | rfl
  · rfl
  · rfl
  · exact isPlain_of_hexValue? ha
  · exact isPlain_of_hexValue? hb
  · exact isPlain_of_hexValue? hc
  · exact isPlain_of_hexValue? hd

theorem isPlain_of_simpleEscape? {c e : Char} (h : simpleEscape? c = some e) :
    isPlain c = true := by
  unfold simpleEscape? at h
  split at h
  case h_9 => cases h
  all_goals rfl

theorem readText_escape {start : Nat} {text cs : List Char} {c e : Char} (hunit : c ≠ 'u')
    (hescape : simpleEscape? c = some e) :
    readText start text ('\\' :: c :: cs) = readText start (e :: text) cs := by
  rw [readText.eq_7 start text c cs (fun _ _ _ _ _ _ _ _ _ _ h => absurd h hunit)
    (fun _ _ _ _ _ _ h => absurd h hunit) hunit, hescape]

theorem readText_char {start : Nat} {text cs : List Char} {c : Char} (hquote : c ≠ '"')
    (hslash : c ≠ '\\') (hcontrol : ¬c.toNat < 0x20) :
    readText start text (c :: cs) = readText start (c :: text) cs := by
  rw [readText.eq_8 start text c cs hquote (fun h => absurd h hslash)
    (fun _ _ _ _ _ _ _ _ _ _ h => absurd h hslash) (fun _ _ _ _ _ _ h => absurd h hslash)
    (fun _ h => absurd h hslash) (fun _ _ h => absurd h hslash), if_neg hcontrol]

/-- An escape of four digits that was read has its digits and a character after them. -/
theorem exists_digits_of_readText {start : Nat} {text tail : List Char} {r : String × List Char}
    (h : readText start text ('\\' :: 'u' :: tail) = .ok r) :
    ∃ a b c d z more, tail = a :: b :: c :: d :: z :: more := by
  rcases tail with - | ⟨a, - | ⟨b, - | ⟨c, - | ⟨d, - | ⟨z, more⟩⟩⟩⟩⟩
  · simp [readText] at h
  · simp [readText] at h
  · simp [readText] at h
  · simp [readText] at h
  · simp [readText] at h
  · exact ⟨a, b, c, d, z, more, rfl⟩

/-- A text that starts with an escape takes the whole of it. -/
theorem exists_of_readText_unit {start : Nat} {text used rest tail : List Char}
    {r : String × List Char} (hused : '\\' :: 'u' :: tail = used ++ rest)
    (h : readText start text used = .ok r) :
    ∃ a b c d z more, used = '\\' :: 'u' :: a :: b :: c :: d :: z :: more := by
  rcases used with - | ⟨x, - | ⟨y, used⟩⟩
  · cases h
  · obtain ⟨rfl, -⟩ := List.cons.inj hused
    cases h
  · obtain ⟨rfl, hrest⟩ := List.cons.inj hused
    obtain ⟨rfl, -⟩ := List.cons.inj hrest
    obtain ⟨a, b, c, d, z, more, rfl⟩ := exists_digits_of_readText h
    exact ⟨a, b, c, d, z, more, rfl⟩

/-- The text takes a front of the characters, whatever comes after it. -/
def TakesText (text cs : List Char) (s : String) (rest : List Char) : Prop :=
  ∃ used, cs = used ++ rest ∧ Solid used ∧
    ∀ start more, readText start text (used ++ more) = .ok (s, more)

/-- Two escapes in a row that are no pair are read one after the other. -/
theorem TakesText.unit_unit {text tail rest : List Char} {a b c d e f g h z : Char} {s : String}
    {n : Nat} (hunit : unit? a b c d = some n)
    (hnext : ∀ start more, readText start text ('\\' :: 'u' :: a :: b :: c :: d ::
        '\\' :: 'u' :: e :: f :: g :: h :: z :: more) =
      readText start (unitChar n :: text) ('\\' :: 'u' :: e :: f :: g :: h :: z :: more))
    (htakes : TakesText (unitChar n :: text) ('\\' :: 'u' :: e :: f :: g :: h :: z :: tail) s
      rest) :
    TakesText text ('\\' :: 'u' :: a :: b :: c :: d :: '\\' :: 'u' :: e :: f :: g :: h :: z :: tail)
      s rest := by
  obtain ⟨used, hused, hsolid, hread⟩ := htakes
  obtain ⟨e', f', g', h', z', used, rfl⟩ := exists_of_readText_unit hused
    (by simpa using hread 0 [])
  simp only [List.cons_append, List.cons.injEq, true_and] at hused
  obtain ⟨rfl, rfl, rfl, rfl, rfl, rfl⟩ := hused
  refine ⟨['\\', 'u', a, b, c, d] ++ ('\\' :: 'u' :: e :: f :: g :: h :: z :: used), rfl,
    .append (isPlain_of_unit? hunit) hsolid, fun start more => ?_⟩
  exact (hnext start (used ++ more)).trans (hread start more)

/-- An escape alone is read as one, whatever comes after the text. -/
theorem TakesText.unit {text tail rest : List Char} {a b c d z : Char} {s : String} {n : Nat}
    (hunit : unit? a b c d = some n)
    (hpair : ∀ e f g i z' tail', z = '\\' → tail = 'u' :: e :: f :: g :: i :: z' :: tail' → False)
    (htakes : TakesText (unitChar n :: text) (z :: tail) s rest) :
    TakesText text ('\\' :: 'u' :: a :: b :: c :: d :: z :: tail) s rest := by
  obtain ⟨used, hused, hsolid, hread⟩ := htakes
  rcases used with - | ⟨z', used⟩
  · exact absurd rfl hsolid.ne_nil
  obtain ⟨rfl, rfl⟩ := List.cons.inj hused
  refine ⟨['\\', 'u', a, b, c, d] ++ z :: used, rfl,
    .append (isPlain_of_unit? hunit) hsolid, fun start more => ?_⟩
  -- a second escape here was there before, since it is taken as a whole
  have hnotPair : ∀ e f g i z' tail', z = '\\' →
      used ++ more = 'u' :: e :: f :: g :: i :: z' :: tail' → False := by
    rintro e f g i z' tail' rfl heq
    have hself := hread 0 []
    rw [List.append_nil] at hself
    rcases used with - | ⟨y, used⟩
    · cases hself
    obtain ⟨rfl, -⟩ := List.cons.inj heq
    obtain ⟨e', f', g', i', z'', used', rfl⟩ := exists_digits_of_readText hself
    exact hpair e' f' g' i' z'' (used' ++ rest) rfl rfl
  have hstep := readText.eq_5 start text a b c d z (used ++ more) hnotPair
  rw [hunit] at hstep
  exact hstep.trans (hread start more)

theorem takesText_of_readText {start : Nat} {text cs rest : List Char} {s : String}
    (h : readText start text cs = .ok (s, rest)) : TakesText text cs s rest := by
  fun_induction readText start text cs with
  | case2 text rest =>
      cases h
      exact ⟨['"'], rfl, .singleton rfl rfl, fun _ _ => rfl⟩
  | case6 text a b c d e f g i z tail high hhigh hisHigh low hlow hisLow ih =>
      obtain ⟨used, hused, hsolid, hread⟩ := ih h
      rcases used with - | ⟨z', used⟩
      · exact absurd rfl hsolid.ne_nil
      obtain ⟨rfl, rfl⟩ := List.cons.inj hused
      refine ⟨['\\', 'u', a, b, c, d] ++ (['\\', 'u', e, f, g, i] ++ z :: used), rfl,
        .append (isPlain_of_unit? hhigh) (.append (isPlain_of_unit? hlow) hsolid), ?_⟩
      intro start more
      refine Eq.trans ?_ (hread start more)
      simp only [List.cons_append, List.nil_append, readText, hhigh, hisHigh, hlow, hisLow, if_true]
  | case7 text a b c d e f g i z tail high hhigh hisHigh low hlow hisLow ih =>
      refine (ih h).unit_unit hhigh fun start more => ?_
      rw [readText.eq_4, hhigh]
      simp only [hisHigh, hlow, hisLow, if_true, if_false, Bool.false_eq_true]
  | case8 text a b c d e f g i z tail high hhigh hisHigh ih =>
      refine (ih h).unit_unit hhigh fun start more => ?_
      rw [readText.eq_4, hhigh]
      simp only [hisHigh, if_false, Bool.false_eq_true]
  | case10 text a b c d z tail hpair n hunit ih => exact (ih h).unit hunit hpair
  | case13 text c tail hlong hshort hunit e hescape ih =>
      obtain ⟨used, rfl, hsolid, hread⟩ := ih h
      refine ⟨['\\', c] ++ used, rfl, .append ?_ hsolid, fun start more => ?_⟩
      · intro x hx
        rcases List.mem_cons.1 hx with rfl | hx
        · rfl
        · rw [List.mem_singleton.1 hx]
          exact isPlain_of_simpleEscape? hescape
      · exact (readText_escape hunit hescape).trans (hread start more)
  | case15 text c tail hquote hnil hlong hshort hunit hcons hcontrol ih =>
      obtain ⟨used, rfl, hsolid, hread⟩ := ih h
      refine ⟨[c] ++ used, rfl, .append ?_ hsolid, fun start more => ?_⟩
      · intro x hx
        rw [List.mem_singleton.1 hx]
        exact isPlain_of_le (Nat.le_of_not_lt hcontrol)
      · have hslash : c ≠ '\\' := by
          rintro rfl
          cases hrest : used ++ rest with
          | nil => exact hnil rfl hrest
          | cons y ys => exact hcons y ys rfl hrest
        exact (readText_char hquote hslash hcontrol).trans (hread start more)
  | case1 | case3 | case4 | case5 | case9 | case11 | case12 | case14 => cases h

/-! ## Numbers -/

/-- Nothing that digits could go on with. -/
def NoDigit (cs : List Char) : Prop := ∀ c ∈ cs.head?, c.isDigit = false

theorem le_toNat_of_isDigit {c : Char} (h : c.isDigit = true) : 48 ≤ c.toNat ∧ c.toNat ≤ 57 := by
  obtain ⟨hzero, hnine⟩ : decide ('0' ≤ c) = true ∧ decide (c ≤ '9') = true :=
    Bool.and_eq_true_iff.1 h
  exact ⟨of_decide_eq_true hzero, of_decide_eq_true hnine⟩

theorem isPlain_of_isDigit {c : Char} (h : c.isDigit = true) : isPlain c = true :=
  isPlain_of_le (Nat.le_trans (by decide) (le_toNat_of_isDigit h).1)

theorem isBlank_of_isDigit {c : Char} (h : c.isDigit = true) : Text.isBlank c = false := by
  obtain ⟨hzero, hnine⟩ := le_toNat_of_isDigit h
  simp [Text.isBlank, Text.inSpans, Text.blankSpans]
  omega

theorem solid_digits {ds : List Char} (hne : ds ≠ []) (h : ∀ d ∈ ds, d.isDigit = true) :
    Solid ds where
  plain d hd := isPlain_of_isDigit (h d hd)
  last := ⟨ds.dropLast, ds.getLast hne, (List.dropLast_concat_getLast hne).symm,
    isBlank_of_isDigit (h _ (List.getLast_mem hne))⟩

theorem takeWhile_digits {ds more : List Char} (h : ∀ d ∈ ds, d.isDigit = true)
    (hmore : NoDigit more) : (ds ++ more).takeWhile Char.isDigit = ds ∧
      (ds ++ more).dropWhile Char.isDigit = more := by
  rw [List.takeWhile_append_of_pos h, List.dropWhile_append_of_pos h]
  cases more with
  | nil => exact ⟨List.append_nil ds, rfl⟩
  | cons c more =>
      have hc : c.isDigit = false := hmore c rfl
      rw [List.takeWhile_cons_of_neg (by simp [hc]), List.dropWhile_cons_of_neg (by simp [hc])]
      exact ⟨List.append_nil ds, rfl⟩

/-- Every text is digits and what comes after them. -/
theorem exists_digits (cs : List Char) : ∃ ds rest, cs = ds ++ rest ∧
    (∀ d ∈ ds, d.isDigit = true) ∧ NoDigit rest := by
  refine ⟨cs.takeWhile Char.isDigit, cs.dropWhile Char.isDigit,
    List.takeWhile_append_dropWhile.symm, List.all_eq_true.1 List.all_takeWhile, ?_⟩
  intro c hc
  have hhead := List.head?_dropWhile_not Char.isDigit cs
  rw [Option.mem_def.1 hc] at hhead
  exact hhead

theorem splitWhole_digits {d : Char} {ds more : List Char} (hzero : d ≠ '0')
    (h : ∀ x ∈ d :: ds, x.isDigit = true) (hmore : NoDigit more) :
    splitWhole (d :: ds ++ more) = some (d :: ds, more) := by
  obtain ⟨htake, hdrop⟩ := takeWhile_digits h hmore
  unfold splitWhole
  split
  · rename_i heq
    exact absurd (List.cons.inj heq).1 hzero
  · rw [htake, hdrop]
    rfl

theorem exists_of_splitWhole {cs ds rest : List Char} (h : splitWhole cs = some (ds, rest)) :
    cs = ds ++ rest ∧ ds ≠ [] ∧ (∀ d ∈ ds, d.isDigit = true) ∧
      ∀ more, NoDigit more → splitWhole (ds ++ more) = some (ds, more) := by
  obtain ⟨front, after, rfl, hfront, hafter⟩ := exists_digits cs
  cases front with
  | nil =>
      obtain ⟨htake, -⟩ := takeWhile_digits hfront hafter
      unfold splitWhole at h
      split at h
      · rename_i heq
        exact absurd (hafter '0' (congrArg List.head? heq)) (by decide)
      · rw [htake] at h
        cases h
  | cons d front =>
      by_cases hzero : d = '0'
      · subst hzero
        cases h
        exact ⟨rfl, by simp, by simp, fun more _ => rfl⟩
      · rw [splitWhole_digits hzero hfront hafter] at h
        cases h
        exact ⟨rfl, by simp, hfront, fun more hmore => splitWhole_digits hzero hfront hmore⟩

theorem splitPlaces_of_head?_ne {cs : List Char} (h : cs.head? ≠ some '.') :
    splitPlaces cs = ([], cs) := by
  unfold splitPlaces
  split
  · exact absurd rfl h
  · rfl

theorem splitPlaces_digits {ds more : List Char} (hne : ds ≠ []) (h : ∀ d ∈ ds, d.isDigit = true)
    (hmore : NoDigit more) : splitPlaces ('.' :: (ds ++ more)) = (ds, more) := by
  obtain ⟨htake, hdrop⟩ := takeWhile_digits h hmore
  rw [splitPlaces, htake, hdrop, if_neg (by simpa using hne)]

/-- The part of a number that starts in one of these ways is taken as a whole, or nothing is. -/
def TakesPart {α : Type} (split : List Char → α × List Char) (starts : List Char)
    (Free : List Char → Prop) (cs : List Char) : Prop :=
  ∃ used, cs = used ++ (split cs).2 ∧ (used = [] ∨ Solid used ∧ ∃ c ∈ starts, used.head? = some c) ∧
    ∀ more, Free more → split (used ++ more) = ((split cs).1, more)

theorem TakesPart.of_nothing {α : Type} {split : List Char → α × List Char} {starts cs : List Char}
    {Free : List Char → Prop} {a : α} (hfree : ∀ more, Free more → split more = (a, more))
    (h : split cs = (a, cs)) : TakesPart split starts Free cs := by
  refine ⟨[], ?_, .inl rfl, fun more hmore => ?_⟩
  · rw [h]
    rfl
  · rw [h]
    exact hfree more hmore

theorem takesPart_splitPlaces (cs : List Char) :
    TakesPart splitPlaces ['.'] (fun more => NoDigit more ∧ more.head? ≠ some '.') cs := by
  by_cases hpoint : cs.head? = some '.'
  · obtain ⟨tail, rfl⟩ := List.head?_eq_some_iff.1 hpoint
    obtain ⟨ds, rest, rfl, hds, hrest⟩ := exists_digits tail
    by_cases hne : ds = []
    · refine .of_nothing (fun more hmore => splitPlaces_of_head?_ne hmore.2) ?_
      obtain ⟨htake, -⟩ := takeWhile_digits hds hrest
      rw [splitPlaces, htake, if_pos (by simpa using hne)]
    · refine ⟨'.' :: ds, ?_, .inr ⟨.cons rfl (solid_digits hne hds), '.', by simp, rfl⟩, ?_⟩
      · rw [splitPlaces_digits hne hds hrest]
        rfl
      · intro more hmore
        rw [splitPlaces_digits hne hds hrest]
        exact splitPlaces_digits hne hds hmore.1
  · exact .of_nothing (fun more hmore => splitPlaces_of_head?_ne hmore.2)
      (splitPlaces_of_head?_ne hpoint)

/-- A sign is taken, or nothing is. -/
theorem exists_of_splitSign (cs : List Char) :
    ∃ sign, cs = sign ++ (splitSign cs).2 ∧ (∀ c ∈ sign, isPlain c = true) ∧
      ∀ d more, d.isDigit = true →
        splitSign (sign ++ d :: more) = ((splitSign cs).1, d :: more) := by
  have hdigit : ∀ d more, d.isDigit = true → splitSign (d :: more) = (false, d :: more) := by
    intro d more hd
    unfold splitSign
    split
    · rename_i heq
      rw [(List.cons.inj heq).1] at hd
      exact absurd hd (by decide)
    · rename_i heq
      rw [(List.cons.inj heq).1] at hd
      exact absurd hd (by decide)
    · rfl
  unfold splitSign
  split
  · exact ⟨['-'], rfl, by simp [isPlain], fun d more _ => rfl⟩
  · exact ⟨['+'], rfl, by simp [isPlain], fun d more _ => rfl⟩
  · exact ⟨[], rfl, by simp, hdigit⟩

theorem splitExponent_cons (mark : Char) {cs ds more : List Char} {negative : Bool}
    (hsign : splitSign cs = (negative, ds ++ more)) (hds : ∀ d ∈ ds, d.isDigit = true)
    (hmore : NoDigit more) :
    splitExponent (mark :: cs) = if (mark = 'e' ∨ mark = 'E') ∧ ds ≠ [] then
        (some (if negative then -(digitsValue ds : Int) else digitsValue ds), more)
      else (none, mark :: cs) := by
  obtain ⟨htake, hdrop⟩ := takeWhile_digits hds hmore
  simp [splitExponent, hsign, htake, hdrop]

theorem splitExponent_of_stops {cs : List Char} (h : Stops cs) : splitExponent cs = (none, cs) := by
  cases cs with
  | nil => rfl
  | cons mark cs =>
      obtain ⟨-, -, he, hE⟩ := h mark rfl
      obtain ⟨ds, rest, hcs, hds, hrest⟩ := exists_digits (splitSign cs).2
      rw [splitExponent_cons mark (Prod.ext rfl hcs) hds hrest, if_neg]
      rintro ⟨rfl | rfl, -⟩
      · exact he rfl
      · exact hE rfl

theorem takesPart_splitExponent (cs : List Char) :
    TakesPart splitExponent ['e', 'E'] Stops cs := by
  cases cs with
  | nil => exact .of_nothing (fun more hmore => splitExponent_of_stops hmore) rfl
  | cons mark cs =>
      obtain ⟨sign, hsign, hplain, hsplit⟩ := exists_of_splitSign cs
      obtain ⟨ds, rest, hcs, hds, hrest⟩ := exists_digits (splitSign cs).2
      have hexponent := splitExponent_cons mark (Prod.ext rfl hcs) hds hrest
      by_cases hpart : (mark = 'e' ∨ mark = 'E') ∧ ds ≠ []
      · rw [if_pos hpart] at hexponent
        have hmark : isPlain mark = true := by
          rcases hpart.1 with rfl | rfl
          · rfl
          · rfl
        refine ⟨mark :: (sign ++ ds), ?_,
          .inr ⟨.cons hmark (.append hplain (solid_digits hpart.2 hds)), mark, ?_, rfl⟩, ?_⟩
        · rw [hexponent, List.cons_append, List.append_assoc, ← hcs, ← hsign]
        · simpa using hpart.1
        · intro more hmore
          cases ds with
          | nil => exact absurd rfl hpart.2
          | cons d ds =>
              have hagain := hsplit d (ds ++ more) (hds d List.mem_cons_self)
              rw [← List.cons_append, ← List.append_assoc] at hagain
              have hnoDigit : NoDigit more := fun c hc => (hmore c hc).1
              rw [hexponent, List.cons_append, splitExponent_cons mark hagain hds hnoDigit,
                if_pos hpart]
      · refine .of_nothing (fun more hmore => splitExponent_of_stops hmore) ?_
        rw [hexponent, if_neg hpart]

/-- The value of a number depends on its parts alone. -/
theorem readMagnitude_of_parts {negative : Bool} {left : Nat} (left' : Nat) {cs cs' : List Char}
    {whole after after' : List Char} {rest rest' : List Char} {d : Datum}
    (hwhole : splitWhole cs = some (whole, after)) (hwhole' : splitWhole cs' = some (whole, after'))
    (hplaces : (splitPlaces after').1 = (splitPlaces after).1)
    (hexponent : splitExponent (splitPlaces after').2 =
      ((splitExponent (splitPlaces after).2).1, rest'))
    (h : readMagnitude negative left cs = .ok (d, rest)) :
    rest = (splitExponent (splitPlaces after).2).2 ∧
      readMagnitude negative left' cs' = .ok (d, rest') := by
  simp only [readMagnitude, hwhole, hwhole', hplaces, hexponent] at h ⊢
  split at h
  · rename_i hint
    split at h
    · cases h
    · rename_i hlimit
      cases h
      exact ⟨rfl, by rw [if_pos hint, if_neg hlimit]⟩
  · rename_i hint
    cases h
    exact ⟨rfl, by rw [if_neg hint]⟩

theorem Solid.append_part {used part : List Char} {P : Prop} (h : Solid used)
    (hpart : part = [] ∨ Solid part ∧ P) : Solid (used ++ part) := by
  rcases hpart with rfl | ⟨hsolid, -⟩
  · rwa [List.append_nil]
  · exact hsolid.append h.plain

/-- What a part starts with is what the text starts with, if there is such a part. -/
theorem mem_head?_append_of_part {used more starts : List Char} {P : Prop}
    (h : used = [] ∨ P ∧ ∃ c ∈ starts, used.head? = some c) :
    ∀ c ∈ (used ++ more).head?, c ∈ starts ∨ c ∈ more.head? := by
  rcases h with rfl | ⟨-, c, hc, hhead⟩
  · exact fun _ hmem => .inr hmem
  · obtain ⟨tail, rfl⟩ := List.head?_eq_some_iff.1 hhead
    rintro _ ⟨⟩
    exact .inl hc

theorem exists_of_readMagnitude {negative : Bool} {left : Nat} {cs rest : List Char} {d : Datum}
    (h : readMagnitude negative left cs = .ok (d, rest)) :
    ∃ used, cs = used ++ rest ∧ Solid used ∧ (∃ c ∈ used.head?, c.isDigit = true) ∧
      ∀ left more, Stops more → readMagnitude negative left (used ++ more) = .ok (d, more) := by
  rcases hsplit : splitWhole cs with - | ⟨whole, after⟩
  · rw [readMagnitude, hsplit] at h
    cases h
  obtain ⟨rfl, hne, hdigits, hwhole⟩ := exists_of_splitWhole hsplit
  obtain ⟨point, hpoint, hpointPart, hplaces⟩ := takesPart_splitPlaces after
  obtain ⟨mark, hmark, hmarkPart, hexponent⟩ := takesPart_splitExponent (splitPlaces after).2
  obtain ⟨rfl, -⟩ := readMagnitude_of_parts 0 hsplit hsplit rfl rfl h
  refine ⟨whole ++ point ++ mark, ?_, ?_, ?_, fun left' more hmore => ?_⟩
  · rw [List.append_assoc, List.append_assoc, ← hmark, ← hpoint]
  · exact ((solid_digits hne hdigits).append_part hpointPart).append_part hmarkPart
  · obtain ⟨x, xs, rfl⟩ := List.exists_cons_of_ne_nil hne
    exact ⟨x, rfl, hdigits x List.mem_cons_self⟩
  · -- neither a point nor an exponent nor what comes after them goes on with the digits
    have hmarkFree : ∀ c ∈ (mark ++ more).head?, c.isDigit = false ∧ c ≠ '.' := by
      intro c hc
      rcases mem_head?_append_of_part hmarkPart c hc with hmark | hmore'
      · obtain rfl | rfl : c = 'e' ∨ c = 'E' := by simpa using hmark
        · exact ⟨rfl, by decide⟩
        · exact ⟨rfl, by decide⟩
      · exact ⟨(hmore c hmore').1, (hmore c hmore').2.1⟩
    have hpointFree : NoDigit (point ++ (mark ++ more)) := by
      intro c hc
      rcases mem_head?_append_of_part hpointPart c hc with hpoint | hmark
      · rw [List.mem_singleton.1 hpoint]
        rfl
      · exact (hmarkFree c hmark).1
    have hagain := hplaces (mark ++ more)
      ⟨fun c hc => (hmarkFree c hc).1, fun hc => (hmarkFree _ hc).2 rfl⟩
    rw [List.append_assoc, List.append_assoc]
    refine (readMagnitude_of_parts left' hsplit (hwhole _ hpointFree) ?_ ?_ h).2
    · rw [hagain]
    · rw [hagain]
      exact hexponent more hmore

/-! ## Words -/

/-- The characters that a value can start with. -/
def opens (c : Char) : Bool :=
  c.isDigit || ['"', '[', '\x7b', '-', 'n', 't', 'f', 'N', 'I'].contains c

theorem find?_words {w : List Char × Datum} (hw : w ∈ words) (more : List Char) :
    (words.find? fun v => v.1.isPrefixOf (w.1 ++ more)) = some w := by
  simp only [words, List.mem_cons, List.not_mem_nil, or_false] at hw
  rcases hw with rfl | rfl | rfl | rfl | rfl | rfl
  · rfl
  · rfl
  · rfl
  · rfl
  · rfl
  · rfl

theorem solid_concat (front : List Char) {c : Char} (h : (front ++ [c]).all isPlain = true)
    (hc : Text.isBlank c = false) : Solid (front ++ [c]) :=
  ⟨List.all_eq_true.1 h, front, c, rfl, hc⟩

theorem solid_of_mem_words {w : List Char × Datum} (hw : w ∈ words) :
    Solid w.1 ∧ ∃ c ∈ w.1.head?, opens c = true := by
  simp only [words, List.mem_cons, List.not_mem_nil, or_false] at hw
  rcases hw with rfl | rfl | rfl | rfl | rfl | rfl
  · exact ⟨solid_concat ['n', 'u', 'l'] rfl rfl, 'n', rfl, rfl⟩
  · exact ⟨solid_concat ['t', 'r', 'u'] rfl rfl, 't', rfl, rfl⟩
  · exact ⟨solid_concat ['f', 'a', 'l', 's'] rfl rfl, 'f', rfl, rfl⟩
  · exact ⟨solid_concat ['N', 'a'] rfl rfl, 'N', rfl, rfl⟩
  · exact ⟨solid_concat "Infinit".toList rfl rfl, 'I', rfl, rfl⟩
  · exact ⟨solid_concat "-Infinit".toList rfl rfl, '-', rfl, rfl⟩

/-- No word starts with a digit, or with a digit after a minus. -/
theorem find?_words_of_digit {c : Char} (hc : c.isDigit = true) (cs : List Char) :
    (words.find? fun v => v.1.isPrefixOf (c :: cs)) = none ∧
      (words.find? fun v => v.1.isPrefixOf ('-' :: c :: cs)) = none := by
  have hne : ∀ x : Char, x.isDigit = false → (x == c) = false := by
    intro x hx
    rw [beq_eq_false_iff_ne]
    rintro rfl
    rw [hx] at hc
    cases hc
  constructor
  · simp [words, List.isPrefixOf_cons_cons, hne 'n' rfl, hne 't' rfl, hne 'f' rfl, hne 'N' rfl,
      hne 'I' rfl, hne '-' rfl]
  · simp [words, List.isPrefixOf_cons_cons, hne 'I' rfl]

theorem readPlain_of_find?_some {cs w : List Char} {d : Datum}
    (h : (words.find? fun v => v.1.isPrefixOf cs) = some (w, d)) :
    readPlain cs = .ok (d, cs.drop w.length) := by
  rw [readPlain.eq_def, h]

theorem readPlain_minus {cs : List Char}
    (h : (words.find? fun v => v.1.isPrefixOf ('-' :: cs)) = none) :
    readPlain ('-' :: cs) = readMagnitude true (cs.length + 1) cs := by
  rw [readPlain, h]
  rfl

theorem readPlain_of_find?_none {cs : List Char}
    (h : (words.find? fun v => v.1.isPrefixOf cs) = none) (hminus : cs.head? ≠ some '-') :
    readPlain cs = readMagnitude false cs.length cs := by
  rw [readPlain, h]
  rintro rest rfl
  exact hminus rfl

theorem exists_of_readPlain {cs rest : List Char} {d : Datum} (h : readPlain cs = .ok (d, rest)) :
    ∃ used, cs = used ++ rest ∧ Solid used ∧ (∃ c ∈ used.head?, opens c = true) ∧
      ∀ more, Stops more → readPlain (used ++ more) = .ok (d, more) := by
  rcases hword : words.find? fun v => v.1.isPrefixOf cs with - | ⟨w, value⟩
  · by_cases hminus : cs.head? = some '-'
    · obtain ⟨tail, rfl⟩ := List.head?_eq_some_iff.1 hminus
      rw [readPlain_minus hword] at h
      obtain ⟨used, rfl, hsolid, ⟨c, hc, hdigit⟩, hread⟩ := exists_of_readMagnitude h
      obtain ⟨more', rfl⟩ := List.head?_eq_some_iff.1 hc
      refine ⟨'-' :: c :: more', rfl, .cons rfl hsolid, ⟨'-', rfl, rfl⟩, fun more hmore => ?_⟩
      rw [List.cons_append, List.cons_append,
        readPlain_minus (find?_words_of_digit hdigit _).2]
      exact hread _ more hmore
    · rw [readPlain_of_find?_none hword hminus] at h
      obtain ⟨used, rfl, hsolid, ⟨c, hc, hdigit⟩, hread⟩ := exists_of_readMagnitude h
      obtain ⟨more', rfl⟩ := List.head?_eq_some_iff.1 hc
      refine ⟨c :: more', rfl, hsolid, ⟨c, rfl, by rw [opens, hdigit]; rfl⟩, fun more hmore => ?_⟩
      rw [List.cons_append, readPlain_of_find?_none (find?_words_of_digit hdigit _).1]
      · exact hread _ more hmore
      · rintro ⟨⟩
        cases hdigit
  · have hw := List.mem_of_find?_eq_some hword
    have hfront : w.isPrefixOf cs = true := by simpa using List.find?_some hword
    obtain ⟨tail, rfl⟩ := List.isPrefixOf_iff_prefix.1 hfront
    obtain ⟨hsolid, hopens⟩ := solid_of_mem_words hw
    rw [readPlain_of_find?_some hword, List.drop_left] at h
    cases h
    refine ⟨w, rfl, hsolid, hopens, fun more _ => ?_⟩
    rw [readPlain_of_find?_some (find?_words hw more), List.drop_left]

end IntentPlan.Json
