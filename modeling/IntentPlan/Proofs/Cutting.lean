import IntentPlan.Proofs.Lowercase
import IntentPlan.Proofs.Naming

/-!
# Where a slug is cut off

The slug of a text is made of its words, joined by underscores (`slugChars_eq_intercalate`), and cut
off after 48 characters.  Joined words are their own slug (`slug_of_joined`).  A cut in a word or at
its end leaves joined words, but one right behind an underscore leaves the underscore
(`Joined.take`), and that is lost when a slug is made of the slug.  So it depends on the words of
the text alone whether its slug is stable.
-/

namespace IntentPlan.Text

/-! ## Joined words -/

/-- Words of small letters and digits with single underscores between them. -/
inductive Joined : List Char → Prop
  | single {c : Char} (hc : isSlugChar c = true) : Joined [c]
  | cons {c : Char} {cs : List Char} (hc : isSlugChar c = true) (hcs : Joined cs) :
      Joined (c :: cs)
  | underscore {c : Char} {cs : List Char} (hc : isSlugChar c = true) (hcs : Joined cs) :
      Joined (c :: '_' :: cs)

theorem Joined.isNameChar {cs : List Char} (h : Joined cs) : ∀ c ∈ cs, IsNameChar c := by
  induction h with
  | single hc => simpa using isNameChar_of_isSlugChar hc
  | cons hc _ ih => exact List.forall_mem_cons.2 ⟨isNameChar_of_isSlugChar hc, ih⟩
  | underscore hc _ ih =>
      exact List.forall_mem_cons.2 ⟨isNameChar_of_isSlugChar hc,
        List.forall_mem_cons.2 ⟨.inr (.inr rfl), ih⟩⟩

theorem Joined.ne_nil {cs : List Char} (h : Joined cs) : cs ≠ [] := by
  cases h <;> exact List.cons_ne_nil _ _

theorem Joined.getLast?_ne {cs : List Char} (h : Joined cs) : cs.getLast? ≠ some '_' := by
  induction h with
  | single hc => exact fun h => ne_underscore hc (Option.some.inj h)
  | @cons c cs _ hcs ih => rwa [List.getLast?_cons_of_ne_nil hcs.ne_nil]
  | @underscore c cs _ hcs ih =>
      rwa [List.getLast?_cons_cons, List.getLast?_cons_of_ne_nil hcs.ne_nil]

/-- A cut leaves joined words, or joined words and an underscore. -/
theorem Joined.take {cs : List Char} (h : Joined cs) (n : Nat) :
    Joined (cs.take (n + 1)) ∨ ∃ front, cs.take (n + 1) = front ++ ['_'] ∧ Joined front := by
  induction h generalizing n with
  | single hc =>
      rw [List.take_of_length_le (by simp)]
      exact .inl (.single hc)
  | cons hc _ ih =>
      cases n with
      | zero => exact .inl (.single hc)
      | succ n =>
          rw [List.take_succ_cons]
          rcases ih n with hjoined | ⟨front, hfront, hjoined⟩
          · exact .inl (.cons hc hjoined)
          · exact .inr ⟨_ :: front, by rw [hfront, List.cons_append], .cons hc hjoined⟩
  | underscore hc _ ih =>
      cases n with
      | zero => exact .inl (.single hc)
      | succ n =>
          rw [List.take_succ_cons]
          cases n with
          | zero => exact .inr ⟨[_], rfl, .single hc⟩
          | succ n =>
              rw [List.take_succ_cons]
              rcases ih n with hjoined | ⟨front, hfront, hjoined⟩
              · exact .inl (.underscore hc hjoined)
              · exact .inr ⟨_ :: '_' :: front, by rw [hfront]; rfl, .underscore hc hjoined⟩

/-! ## What is read from characters -/

theorem joined_cons_slugChars {c : Char} (hc : isSlugChar c = true) (pending : Bool)
    (cs : List Char) : Joined (c :: slugChars true pending cs) := by
  induction cs generalizing c pending with
  | nil => exact .single hc
  | cons d rest ih =>
      rw [slugChars]
      split
      · rename_i hd
        split
        · exact .underscore hc (ih hd false)
        · exact .cons hc (ih hd false)
      · exact ih hc true

theorem joined_slugChars {cs : List Char} {pending : Bool} (h : slugChars false pending cs ≠ []) :
    Joined (slugChars false pending cs) := by
  rcases slugChars_cases pending cs with hnil | ⟨d, rest, hd, hcons⟩
  · exact absurd hnil h
  · rw [hcons]
    exact joined_cons_slugChars hd false rest

theorem Joined.slugChars_eq {cs : List Char} (h : Joined cs) :
    (∀ started, slugChars started false cs = cs) ∧ slugChars true true cs = '_' :: cs := by
  have hunderscore : isSlugChar '_' = false := by decide
  induction h with
  | single hc => simp [slugChars, hc]
  | cons hc _ ih => simp [slugChars, hc, ih.1]
  | underscore hc _ ih => simp [slugChars, hc, hunderscore, ih.2]

theorem slugChars_concat_underscore (started pending : Bool) (cs : List Char) :
    slugChars started pending (cs ++ ['_']) = slugChars started pending cs := by
  induction cs generalizing started pending with
  | nil => rfl
  | cons c cs ih => simp only [List.cons_append, slugChars, ih]

/-! ## Words -/

/-- The runs of small letters and digits between other characters, which may be empty. -/
def runs (cs : List Char) : List (List Char) := cs.splitOnP fun c => !isSlugChar c

/-- The runs that are not empty. -/
def words (cs : List Char) : List (List Char) := (runs cs).filter fun run => !run.isEmpty

theorem runs_cons_of_not {c : Char} (hc : isSlugChar c = false) (cs : List Char) :
    runs (c :: cs) = [] :: runs cs := by
  simp [runs, List.splitOnP_cons_eq_if_modifyHead, hc]

theorem runs_cons {c : Char} (hc : isSlugChar c = true) {cs run : List Char}
    {more : List (List Char)} (h : runs cs = run :: more) :
    runs (c :: cs) = (c :: run) :: more := by
  rw [runs] at h
  simp [runs, List.splitOnP_cons_eq_if_modifyHead, hc, h]

theorem words_cons_of_not {c : Char} (hc : isSlugChar c = false) (cs : List Char) :
    words (c :: cs) = words cs := by
  simp [words, runs_cons_of_not hc]

theorem intercalate_underscore (word : List Char) (more : List (List Char)) :
    List.intercalate ['_'] (word :: more) = word ++ more.flatMap ('_' :: ·) := by
  induction more generalizing word with
  | nil => simp
  | cons next rest ih =>
      rw [List.intercalate_cons_cons, ih, List.flatMap_cons]
      simp

/-- Behind a letter or digit the first run belongs to the same word, and the other words come after
underscores; all of them do so if something has been left out. -/
theorem slugChars_started (cs : List Char) : ∃ run more, runs cs = run :: more ∧
    slugChars true false cs = run ++ (more.filter fun run => !run.isEmpty).flatMap ('_' :: ·) ∧
    slugChars true true cs = (words cs).flatMap ('_' :: ·) := by
  induction cs with
  | nil => exact ⟨[], [], rfl, rfl, rfl⟩
  | cons c cs ih =>
      obtain ⟨run, more, hruns, hgoing, hbroken⟩ := ih
      cases hc : isSlugChar c with
      | true =>
          refine ⟨c :: run, more, runs_cons hc hruns, ?_, ?_⟩
          · simp [slugChars, hc, hgoing]
          · simp [slugChars, hc, hgoing, words, runs_cons hc hruns]
      | false =>
          refine ⟨[], run :: more, by rw [runs_cons_of_not hc, hruns], ?_, ?_⟩
          · rw [slugChars, hc, if_neg Bool.false_ne_true, hbroken, words, hruns, List.nil_append]
          · rw [slugChars, hc, if_neg Bool.false_ne_true, hbroken, words_cons_of_not hc]

theorem slugChars_eq_intercalate (pending : Bool) (cs : List Char) :
    slugChars false pending cs = List.intercalate ['_'] (words cs) := by
  induction cs generalizing pending with
  | nil => rfl
  | cons c cs ih =>
      cases hc : isSlugChar c with
      | true =>
          obtain ⟨run, more, hruns, hgoing, -⟩ := slugChars_started cs
          have hwords : words (c :: cs) = (c :: run) :: more.filter fun run => !run.isEmpty := by
            simp [words, runs_cons hc hruns]
          rw [hwords, intercalate_underscore]
          simp [slugChars, hc, hgoing]
      | false => rw [slugChars, hc, if_neg Bool.false_ne_true, ih, words_cons_of_not hc]

theorem isSlugChar_of_mem_runs {cs run : List Char} (h : run ∈ runs cs) :
    ∀ c ∈ run, isSlugChar c = true := by
  induction cs generalizing run with
  | nil =>
      rw [List.mem_singleton.1 h]
      simp
  | cons d cs ih =>
      cases hd : isSlugChar d with
      | true =>
          obtain ⟨first, more, hruns, -⟩ := slugChars_started cs
          rw [runs_cons hd hruns] at h
          rw [hruns] at ih
          rcases List.mem_cons.1 h with rfl | h
          · exact List.forall_mem_cons.2 ⟨hd, ih List.mem_cons_self⟩
          · exact ih (List.mem_cons_of_mem _ h)
      | false =>
          rw [runs_cons_of_not hd] at h
          rcases List.mem_cons.1 h with rfl | h
          · simp
          · exact ih h

theorem underscore_notMem_of_mem_words {cs word : List Char} (h : word ∈ words cs) :
    '_' ∉ word := by
  intro hmem
  exact ne_underscore (isSlugChar_of_mem_runs (List.mem_of_mem_filter h) '_' hmem) rfl

/-- Behind `n` characters of joined words there is a break between two words. -/
def BreaksAt (n : Nat) (ws : List (List Char)) : Prop :=
  ∃ front back, ws = front ++ back ∧ front ≠ [] ∧ back ≠ [] ∧
    (List.intercalate ['_'] front).length = n

theorem length_intercalate_cons (word : List Char) {ws : List (List Char)} (h : ws ≠ []) :
    (List.intercalate ['_'] (word :: ws)).length =
      word.length + 1 + (List.intercalate ['_'] ws).length := by
  obtain ⟨next, rest, rfl⟩ := List.exists_cons_of_ne_nil h
  rw [List.intercalate_cons_cons, List.length_append, List.length_append, List.length_singleton]

theorem breaksAt_cons_iff {n : Nat} {word : List Char} {more : List (List Char)} (h : more ≠ []) :
    BreaksAt n (word :: more) ↔
      n = word.length ∨ ∃ m, n = word.length + 1 + m ∧ BreaksAt m more := by
  constructor
  · rintro ⟨front, back, heq, hfront, hback, rfl⟩
    obtain ⟨first, others, rfl⟩ := List.exists_cons_of_ne_nil hfront
    obtain ⟨rfl, rfl⟩ := List.cons.inj heq
    cases others with
    | nil => exact .inl (by simp)
    | cons next rest =>
        have hothers : next :: rest ≠ [] := List.cons_ne_nil _ _
        exact .inr ⟨_, length_intercalate_cons word hothers, next :: rest, back, rfl, hothers,
          hback, rfl⟩
  · rintro (rfl | ⟨m, rfl, front, back, rfl, hfront, hback, rfl⟩)
    · exact ⟨[word], more, rfl, List.cons_ne_nil _ _, h, by simp⟩
    · exact ⟨word :: front, back, rfl, List.cons_ne_nil _ _, hback,
        length_intercalate_cons word hfront⟩

theorem not_breaksAt_singleton (n : Nat) (word : List Char) : ¬BreaksAt n [word] := by
  rintro ⟨front, back, heq, hfront, hback, -⟩
  have hlength := congrArg List.length heq
  have := List.length_pos_iff.2 hfront
  have := List.length_pos_iff.2 hback
  simp only [List.length_singleton, List.length_append] at hlength
  omega

/-- The underscores are the breaks. -/
theorem getElem?_intercalate_iff {ws : List (List Char)} (h : ∀ word ∈ ws, '_' ∉ word) {n : Nat} :
    (List.intercalate ['_'] ws)[n]? = some '_' ↔ BreaksAt n ws := by
  induction ws generalizing n with
  | nil => simp [BreaksAt]
  | cons word more ih =>
      obtain ⟨hword, hmore⟩ := List.forall_mem_cons.1 h
      cases more with
      | nil =>
          refine iff_of_false ?_ (not_breaksAt_singleton n word)
          rw [List.intercalate_singleton]
          exact fun hget => hword (List.mem_of_getElem? hget)
      | cons next rest =>
          rw [List.intercalate_cons_cons, breaksAt_cons_iff (List.cons_ne_nil _ _),
            List.append_assoc, List.getElem?_append, List.singleton_append]
          split
          · rename_i hn
            refine iff_of_false (fun hget => hword (List.mem_of_getElem? hget)) ?_
            rintro (rfl | ⟨m, rfl, -⟩) <;> omega
          · rename_i hn
            obtain ⟨m, rfl⟩ := Nat.exists_eq_add_of_le (Nat.le_of_not_lt hn)
            rw [Nat.add_sub_cancel_left]
            cases m with
            | zero => simp
            | succ m =>
                rw [List.getElem?_cons_succ, ih hmore]
                constructor
                · exact fun hbreak => .inr ⟨m, by omega, hbreak⟩
                · rintro (hzero | ⟨m', hm, hbreak⟩)
                  · omega
                  · obtain rfl : m = m' := by omega
                    exact hbreak

/-! ## Lower case -/

theorem isSmall_of_isNameChar {c : Char} (h : IsNameChar c) : IsSmall c := by
  -- a look at each of the few characters that may be in a name
  have hall : (List.range 123).all (fun n => !decide (IsNameChar (Char.ofNat n)) ||
      decide (IsSmall (Char.ofNat n))) = true := by
    decide +kernel
  have hrange : c.toNat < 123 := by
    rcases h with ⟨-, hz⟩ | ⟨-, hnine⟩ | rfl
    · exact Nat.lt_succ_of_le (UInt32.le_iff_toNat_le.1 (Char.le_def.1 hz))
    · exact Nat.lt_of_le_of_lt (UInt32.le_iff_toNat_le.1 (Char.le_def.1 hnine)) (by decide)
    · decide
  have hc := List.all_eq_true.1 hall c.toNat (List.mem_range.2 hrange)
  simpa [h] using hc

theorem lowerAfter_of_isNameChar {cs : List Char} (h : ∀ c ∈ cs, IsNameChar c)
    (before : List Char) : lowerAfter before cs = cs :=
  lowerAfter_of_forall (fun c hc => isSmall_of_isNameChar (h c hc)) before

/-- Joined words are their own slug, if they are not too long. -/
theorem slug_of_joined {cs : List Char} (h : Joined cs) (hlength : cs.length ≤ 48) :
    slug (String.ofList cs) = String.ofList cs := by
  rw [slug, lower, String.toList_ofList, String.toList_ofList,
    lowerAfter_of_isNameChar h.isNameChar, h.slugChars_eq.1, List.take_of_length_le hlength]
  cases h <;> rfl

/-- An underscore behind joined words is lost. -/
theorem slug_of_joined_concat {cs : List Char} (h : Joined cs) (hlength : cs.length ≤ 48) :
    slug (String.ofList (cs ++ ['_'])) = String.ofList cs := by
  have hchars : ∀ c ∈ cs ++ ['_'], IsNameChar c := by
    intro c hc
    rcases List.mem_append.1 hc with hc | hc
    · exact h.isNameChar c hc
    · exact .inr (.inr (List.mem_singleton.1 hc))
  rw [slug, lower, String.toList_ofList, String.toList_ofList, lowerAfter_of_isNameChar hchars,
    slugChars_concat_underscore, h.slugChars_eq.1, List.take_of_length_le hlength]
  cases h <;> rfl

/-! ## Slugs of slugs -/

/-- The words that a slug is made of. -/
def slugWords (text : String) : List (List Char) := words (lower text).toList

theorem breaksAt_slugWords_iff {text : String} {n : Nat} :
    BreaksAt n (slugWords text) ↔
      (slugChars false false (lower text).toList)[n]? = some '_' := by
  rw [slugChars_eq_intercalate]
  exact (getElem?_intercalate_iff fun word => underscore_notMem_of_mem_words).symm

theorem slug_eq_take {text : String} (h : slugChars false false (lower text).toList ≠ []) :
    slug text = String.ofList ((slugChars false false (lower text).toList).take 48) := by
  obtain ⟨c, cs, hcs⟩ := List.exists_cons_of_ne_nil h
  rw [slug, hcs]
  rfl

/-- A slug is joined words, unless the cut falls right behind a break: then an underscore follows
them. -/
theorem slug_cases (text : String) : ∃ cs, Joined cs ∧ cs.length ≤ 48 ∧
    (¬BreaksAt 47 (slugWords text) ∧ slug text = String.ofList cs ∨
      BreaksAt 47 (slugWords text) ∧ slug text = String.ofList (cs ++ ['_'])) := by
  rw [breaksAt_slugWords_iff]
  by_cases hnil : slugChars false false (lower text).toList = []
  · rw [slug, hnil]
    have hitem : Joined ['i', 't', 'e', 'm'] :=
      .cons (by decide) (.cons (by decide) (.cons (by decide) (.single (by decide))))
    exact ⟨['i', 't', 'e', 'm'], hitem, by decide, .inl ⟨by simp, by decide⟩⟩
  have hjoined := joined_slugChars hnil
  rw [slug_eq_take hnil]
  generalize slugChars false false (lower text).toList = cs at hjoined ⊢
  have hlast : (cs.take 48).getLast? = some '_' ↔ cs[47]? = some '_' := by
    rw [List.getLast?_take, if_neg (by decide)]
    cases hget : cs[47]? with
    | none => simpa using hjoined.getLast?_ne
    | some c => simp
  have hlength : (cs.take 48).length ≤ 48 := List.length_take_le 48 cs
  rcases hjoined.take 47 with hcut | ⟨front, hcut, hfront⟩
  · exact ⟨cs.take 48, hcut, hlength, .inl ⟨fun hget => hcut.getLast?_ne (hlast.2 hget), rfl⟩⟩
  · rw [hcut, List.getLast?_concat] at hlast
    rw [hcut, List.length_append] at hlength
    exact ⟨front, hfront, Nat.le_of_add_right_le hlength, .inr ⟨hlast.1 rfl, by rw [hcut]⟩⟩

/-- A slug never starts with an underscore.  It ends with one exactly if some of the first words of
the text fill 47 places and another word follows, and exactly then the slug of the slug is another
one: it is without that underscore.  The slug of the slug is stable in any case. -/
theorem slug_slug_of_break (text : String) :
    (slug text).toList.head? ≠ some '_' ∧
    ((slug text).toList.getLast? = some '_' ↔ BreaksAt 47 (slugWords text)) ∧
    (¬BreaksAt 47 (slugWords text) → slug (slug text) = slug text) ∧
    (BreaksAt 47 (slugWords text) → slug text = slug (slug text) ++ "_") ∧
    slug (slug (slug text)) = slug (slug text) := by
  refine ⟨(isSlug_slug text).head_ne, ?_⟩
  obtain ⟨cs, hjoined, hlength, ⟨hbreak, hslug⟩ | ⟨hbreak, hslug⟩⟩ := slug_cases text
  · have hstable := slug_of_joined hjoined hlength
    rw [hslug, hstable, hstable, String.toList_ofList]
    exact ⟨iff_of_false hjoined.getLast?_ne hbreak, fun _ => rfl, fun h => absurd h hbreak, rfl⟩
  · rw [hslug, slug_of_joined_concat hjoined hlength, slug_of_joined hjoined hlength,
      String.toList_ofList, List.getLast?_concat]
    exact ⟨iff_of_true rfl hbreak, fun h => absurd hbreak h, fun _ => String.ofList_append, rfl⟩

/-- Forty-seven letters and another word behind them. -/
theorem slug_slug_of_break_long :
    let text := String.ofList (List.replicate 47 'A' ++ [' ', '-', 'b'])
    BreaksAt 47 (slugWords text) ∧ (slug text).toList.getLast? = some '_' ∧
      slug text = slug (slug text) ++ "_" := by
  intro text
  have hwords : slugWords text = [List.replicate 47 'a', ['b']] := by decide +kernel
  have hbreak : BreaksAt 47 (slugWords text) :=
    ⟨[List.replicate 47 'a'], [['b']], hwords, by simp, by simp, by simp⟩
  obtain ⟨-, hlast, -, hslug, -⟩ := slug_slug_of_break text
  exact ⟨hbreak, hlast.2 hbreak, hslug hbreak⟩

/-- The cut behind an underscore leaves it at the end, and the slug is not its own slug. -/
theorem slug_ends_with_underscore :
    let text := String.ofList (List.replicate 47 'a' ++ ['-', 'b'])
    (slug text).toList.getLast? = some '_' ∧ slug (slug text) ≠ slug text := by
  decide +kernel

end IntentPlan.Text
