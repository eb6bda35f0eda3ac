import IntentPlan.Proofs.Listing
import IntentPlan.Proofs.Matching

/-!
# Terms in lower case

A term and the text that it is looked for in are put into lower case apart from each other.  Each
character has its own lower case wherever it stands, but for the capital sigma: that depends on
whether there is a letter before it and none after it.  So a term that stands in a text is found
there if its sigmas have the same form in the term and in the text (`lowerBetween_eq_iff`).  Where
the term itself settles the form of its sigmas this is so in every text (`Settled.sigmasKept`), and
any other term is lost in some text (`exists_lost`).
-/

namespace IntentPlan

namespace Text

/-! ## Lower case in a context -/

/-- The lower case of a word between two texts, the first of which is given backwards. -/
def lowerBetween (before : List Char) : List Char → List Char → List Char
  | [], _ => []
  | c :: rest, after =>
    (if c = 'Σ' then [if isFinalSigma before (rest ++ after) then 'ς' else 'σ']
      else lowerChar c) ++ lowerBetween (c :: before) rest after

theorem lowerAfter_append (before word after : List Char) :
    lowerAfter before (word ++ after) =
      lowerBetween before word after ++ lowerAfter (word.reverse ++ before) after := by
  induction word generalizing before with
  | nil => rfl
  | cons c rest ih =>
      rw [List.cons_append, lowerAfter, lowerBetween, ih, List.reverse_cons, List.append_assoc,
        List.append_assoc]
      rfl

theorem lowerAfter_eq_lowerBetween (before word : List Char) :
    lowerAfter before word = lowerBetween before word [] := by
  have h := lowerAfter_append before word []
  rwa [List.append_nil, lowerAfter, List.append_nil] at h

theorem toList_lower (s : String) : (lower s).toList = lowerBetween [] s.toList [] := by
  rw [lower, String.toList_ofList, lowerAfter_eq_lowerBetween]

/-- The lower case of a text with a word in it has the lower case of the word in its context. -/
theorem lowerBetween_isInfix (before word after : List Char) :
    lowerBetween before.reverse word after <:+: lowerAfter [] (before ++ word ++ after) := by
  rw [List.append_assoc, lowerAfter_append, List.append_nil, lowerAfter_append]
  exact ⟨_, _, List.append_assoc _ _ _⟩

theorem length_lowerBetween (before before' word after after' : List Char) :
    (lowerBetween before word after).length = (lowerBetween before' word after').length := by
  induction word generalizing before before' with
  | nil => rfl
  | cons c rest ih =>
      rw [lowerBetween, lowerBetween, List.length_append, List.length_append,
        ih (c :: before) (c :: before')]
      split <;> rfl

/-- Each capital sigma of the word has the same form between the two texts as in the word by
itself. -/
def SigmasKept (before word after : List Char) : Prop :=
  ∀ front back, word = front ++ 'Σ' :: back →
    isFinalSigma (front.reverse ++ before) (back ++ after) = isFinalSigma front.reverse back

theorem forall_split_cons_iff {x c : Char} {rest : List Char} {P : List Char → List Char → Prop} :
    (∀ front back, c :: rest = front ++ x :: back → P front back) ↔
      (c = x → P [] rest) ∧ ∀ front back, rest = front ++ x :: back → P (c :: front) back := by
  constructor
  · intro h
    refine ⟨?_, ?_⟩
    · rintro rfl
      exact h [] rest rfl
    · rintro front back rfl
      exact h (c :: front) back rfl
  · rintro ⟨hfirst, hothers⟩ front back heq
    cases front with
    | nil =>
        obtain ⟨rfl, rfl⟩ := List.cons.inj heq
        exact hfirst rfl
    | cons d front =>
        obtain ⟨rfl, hrest⟩ := List.cons.inj heq
        exact hothers front back hrest

theorem sigma_form_eq_iff {final final' : Bool} :
    (if final then 'ς' else 'σ') = (if final' then 'ς' else 'σ') ↔ final = final' := by
  cases final <;> cases final' <;> decide

/-- The induction goes along the word, so that a part of it has been passed already. -/
theorem lowerBetween_passed_eq_iff (passed before word after : List Char) :
    lowerBetween (passed ++ before) word after = lowerBetween passed word [] ↔
      ∀ front back, word = front ++ 'Σ' :: back →
        isFinalSigma (front.reverse ++ (passed ++ before)) (back ++ after) =
          isFinalSigma (front.reverse ++ passed) back := by
  induction word generalizing passed with
  | nil => simp [lowerBetween]
  | cons c rest ih =>
      have hrest := ih (c :: passed)
      rw [List.cons_append] at hrest
      rw [lowerBetween, lowerBetween, List.append_nil, forall_split_cons_iff]
      simp only [List.reverse_cons, List.append_assoc, List.singleton_append, List.reverse_nil,
        List.nil_append]
      by_cases hc : c = 'Σ'
      · rw [if_pos hc, if_pos hc, List.singleton_append, List.singleton_append, List.cons.injEq,
          sigma_form_eq_iff, hrest, forall_prop_of_true hc]
      · rw [if_neg hc, if_neg hc, List.append_cancel_left_eq, hrest]
        exact (and_iff_right fun h => absurd h hc).symm

theorem lowerBetween_eq_iff {before word after : List Char} :
    lowerBetween before word after = lowerBetween [] word [] ↔ SigmasKept before word after := by
  simpa [SigmasKept] using lowerBetween_passed_eq_iff [] before word after

/-! ## Sigmas that a word settles -/

/-- Not all of the characters are passed over, so that they decide whether a letter is met. -/
def decides (cs : List Char) : Bool := !cs.all isCaseIgnorable

theorem meetsCased_append (cs more : List Char) :
    meetsCased (cs ++ more) = if decides cs then meetsCased cs else meetsCased more := by
  induction cs with
  | nil => rfl
  | cons c cs ih =>
      cases hc : isCaseIgnorable c with
      | true =>
          simp only [meetsCased, decides] at ih
          simpa [meetsCased, decides, hc] using ih
      | false => simp [meetsCased, decides, hc]

theorem meetsCased_of_not_decides {cs : List Char} (h : decides cs = false) :
    meetsCased cs = false := by
  have happend := meetsCased_append cs []
  rw [List.append_nil, h, if_neg Bool.false_ne_true] at happend
  exact happend

theorem decides_of_meetsCased {cs : List Char} (h : meetsCased cs = true) : decides cs = true := by
  cases hdecides : decides cs with
  | true => rfl
  | false =>
      rw [meetsCased_of_not_decides hdecides] at h
      cases h

theorem decides_reverse (cs : List Char) : decides cs.reverse = decides cs := by
  simp [decides]

/-- The form of a sigma between two parts of a word is the same wherever the word stands: a letter
follows it, or the part before it decides, and then the part after it decides as well or need not be
looked at. -/
def SigmaSettled (front back : List Char) : Prop :=
  meetsCased back = true ∨
    decides front = true ∧ (decides back = true ∨ meetsCased front.reverse = false)

/-- The word settles the form of each of its capital sigmas. -/
def Settled (word : List Char) : Prop :=
  ∀ front back, word = front ++ 'Σ' :: back → SigmaSettled front back

theorem SigmaSettled.isFinalSigma_append {front back : List Char} (h : SigmaSettled front back)
    (before after : List Char) :
    isFinalSigma (front.reverse ++ before) (back ++ after) = isFinalSigma front.reverse back := by
  rw [isFinalSigma, isFinalSigma, meetsCased_append, meetsCased_append, decides_reverse]
  rcases h with hback | ⟨hfront, hback | hletter⟩
  · rw [if_pos (decides_of_meetsCased hback), hback, Bool.not_true, Bool.and_false, Bool.and_false]
  · rw [if_pos hfront, if_pos hback]
  · rw [if_pos hfront, hletter, Bool.false_and, Bool.false_and]

theorem Settled.sigmasKept {word : List Char} (h : Settled word) (before after : List Char) :
    SigmasKept before word after :=
  fun front back heq => (h front back heq).isFinalSigma_append before after

/-- A sigma that is not settled changes its form behind a letter or before one. -/
theorem not_sigmasKept_of_not_settled {word : List Char} (h : ¬Settled word) :
    (∀ x, meetsCased [x] = true → ¬SigmasKept [x] word []) ∨
      ∀ x, meetsCased [x] = true → ¬SigmasKept [] word [x] := by
  simp only [Settled, not_forall] at h
  obtain ⟨front, back, heq, hopen⟩ := h
  simp only [SigmaSettled, not_or, not_and, Bool.not_eq_true] at hopen
  obtain ⟨hback, hopen⟩ := hopen
  cases hfront : decides front with
  | false =>
      refine .inl fun x hx hkept => ?_
      have hform := hkept front back heq
      have hfront' : decides front.reverse = false := by rw [decides_reverse, hfront]
      rw [isFinalSigma, isFinalSigma, meetsCased_append, hfront', if_neg Bool.false_ne_true, hx,
        List.append_nil, hback, meetsCased_of_not_decides hfront'] at hform
      cases hform
  | true =>
      obtain ⟨hback', hletter⟩ := hopen hfront
      rw [Bool.not_eq_false] at hletter
      refine .inr fun x hx hkept => ?_
      have hform := hkept front back heq
      rw [isFinalSigma, isFinalSigma, meetsCased_append back, hback', if_neg Bool.false_ne_true, hx,
        List.append_nil, hback, hletter] at hform
      cases hform

/-! ## Searching -/

theorem occursIn_iff {word text : List Char} : occursIn word text = true ↔ word <:+: text := by
  induction text with
  | nil => rw [occursIn, List.isEmpty_iff, List.infix_nil]
  | cons c rest ih =>
      rw [occursIn, Bool.or_eq_true, List.isPrefixOf_iff_prefix, ih, List.infix_cons_iff]

theorem lowerBetween_ne_nil {word : List Char} (h : word ≠ []) (before after : List Char) :
    lowerBetween before word after ≠ [] := by
  obtain ⟨c, rest, rfl⟩ := List.exists_cons_of_ne_nil h
  rw [lowerBetween, lowerChar]
  split
  · simp
  · split <;> simp

/-- There is always a letter with another lower case than a given one. -/
theorem exists_letter (avoided : Option Char) : ∃ x y, meetsCased [x] = true ∧
    (∀ before after, lowerBetween before [x] after = [y]) ∧ avoided ≠ some y := by
  have hletters : meetsCased ['A'] = true ∧ meetsCased ['B'] = true ∧ lowerChar 'A' = ['a'] ∧
      lowerChar 'B' = ['b'] := by decide +kernel
  obtain ⟨hA, hB, ha, hb⟩ := hletters
  by_cases h : avoided = some 'a'
  · refine ⟨'B', 'b', hB, fun before after => ?_, by rw [h]; decide⟩
    rw [lowerBetween, if_neg (by decide), hb]
    rfl
  · refine ⟨'A', 'a', hA, fun before after => ?_, h⟩
    rw [lowerBetween, if_neg (by decide), ha]
    rfl

/-- A word with a sigma that is not settled is lost in some text. -/
theorem exists_lost {word : List Char} (hne : word ≠ []) (h : ¬Settled word) :
    ∃ before after,
      ¬lowerBetween [] word [] <:+: lowerAfter [] (before ++ word ++ after) := by
  have hnil := lowerBetween_ne_nil hne [] []
  rcases not_sigmasKept_of_not_settled h with hbehind | hbefore
  · obtain ⟨x, y, hx, hlower, hy⟩ := exists_letter (lowerBetween [] word []).head?
    refine ⟨[x], [], fun hfound => ?_⟩
    rw [List.append_nil, lowerAfter_append, hlower, lowerAfter_eq_lowerBetween,
      List.singleton_append, List.infix_cons_iff] at hfound
    rcases hfound with hfirst | hfound
    · refine hy ?_
      rw [List.head?_eq_some_head hnil, hfirst.head hnil, List.head_cons]
    · have heq := hfound.eq_of_length (length_lowerBetween _ _ _ _ _)
      exact hbehind x hx (lowerBetween_eq_iff.1 heq.symm)
  · obtain ⟨x, y, hx, hlower, hy⟩ := exists_letter (lowerBetween [] word []).getLast?
    refine ⟨[], [x], fun hfound => ?_⟩
    rw [List.nil_append, lowerAfter_append, lowerAfter_eq_lowerBetween, hlower,
      List.infix_concat_iff] at hfound
    rcases hfound with hlast | hfound
    · refine hy ?_
      rw [List.getLast?_eq_some_getLast hnil, hlast.getLast hnil, List.getLast_concat]
    · have heq := hfound.eq_of_length (length_lowerBetween _ _ _ _ _)
      exact hbefore x hx (lowerBetween_eq_iff.1 heq.symm)

end Text

/-! ## Conditions -/

/-- The test looks for its terms in the text: it is the goal of the intent, or one of its
capabilities. -/
def TermTest.LooksAt : TermTest → Intent → String → Prop
  | .goalContainsAny, i, text => i.goal = some text
  | .capabilityContainsAny, i, text => text ∈ i.capabilities
  | .capabilitiesCoverAll, i, text => text ∈ i.capabilities

namespace Condition

open Text (SigmasKept Settled)

theorem foundIn_lower_iff {text term : String} :
    foundIn text (Text.lower term) = true ↔
      Text.lowerBetween [] term.toList [] <:+: Text.lowerAfter [] text.toList := by
  rw [foundIn, Text.occursIn_iff, Text.toList_lower, Text.lower, String.toList_ofList]

theorem foundIn_of_sigmasKept {a term b : String}
    (h : SigmasKept a.toList.reverse term.toList b.toList) :
    foundIn (a ++ term ++ b) (Text.lower term) = true := by
  rw [foundIn_lower_iff, String.toList_append, String.toList_append, ← Text.lowerBetween_eq_iff.2 h]
  exact Text.lowerBetween_isInfix _ _ _

theorem exists_not_foundIn {term : String} (hne : term.toList ≠ []) (h : ¬Settled term.toList) :
    ∃ a b, foundIn (a ++ term ++ b) (Text.lower term) = false := by
  obtain ⟨before, after, hlost⟩ := Text.exists_lost hne h
  refine ⟨String.ofList before, String.ofList after, Bool.eq_false_iff.2 fun hfound => hlost ?_⟩
  rwa [foundIn_lower_iff, String.toList_append, String.toList_append, String.toList_ofList,
    String.toList_ofList] at hfound

/-- With one term all tests are alike. -/
theorem holds_search_singleton_of_foundIn {test : TermTest} {i : Intent} {text term : String}
    (htext : test.LooksAt i text) (h : foundIn text term = true) :
    (search test [term]).holds i = true := by
  rw [holds_iff_met]
  cases test with
  | goalContainsAny =>
      refine .goal List.mem_cons_self ?_
      rwa [show i.goal = some text from htext]
  | capabilityContainsAny => exact .capability List.mem_cons_self htext h
  | capabilitiesCoverAll => exact .cover (List.forall_mem_singleton.2 ⟨text, htext, h⟩)

theorem exists_holds_search_singleton (test : TermTest) (text term : String) :
    ∃ i, test.LooksAt i text ∧ (search test [term]).holds i = foundIn text term := by
  refine ⟨⟨"", "", some text, [text], [], none, none, ⟨0⟩, 0, 0⟩, ?_, ?_⟩
  · cases test with
    | goalContainsAny => rfl
    | capabilityContainsAny => exact List.mem_cons_self
    | capabilitiesCoverAll => exact List.mem_cons_self
  · cases test <;> simp [holds, holdsTerms]

theorem build_search_singleton (test : TermTest) {term : String}
    (h : ∃ c ∈ term.toList, Text.isBlank c = false) :
    build (.search test [.str term]) = .ok (.search test [Text.lower term]) := by
  have hblank : Text.allBlank term = false := Intent.allBlank_eq_false_iff.2 h
  have hterms : normalTerms [.str term] = .ok [Text.lower term] := by
    simpa [hblank] using normalTerms_str [term]
  rw [build, hterms]

/-- A term that is not blank makes a condition, and the condition holds of each intent in which the
term stands where it is looked for, if the sigmas of the term have the same form there as in the
term.  It holds of all intents in which the term stands, whatever surrounds it, exactly if the term
settles the form of its sigmas. -/
theorem found_everywhere_iff (test : TermTest) (term : String)
    (hterm : ∃ c ∈ term.toList, Text.isBlank c = false) :
    ∃ condition, build (.search test [.str term]) = .ok condition ∧
      (∀ (a b : String) (i : Intent), test.LooksAt i (a ++ term ++ b) →
        SigmasKept a.toList.reverse term.toList b.toList → condition.holds i = true) ∧
      ((∀ (a b : String) (i : Intent), test.LooksAt i (a ++ term ++ b) →
        condition.holds i = true) ↔ Settled term.toList) := by
  refine ⟨_, build_search_singleton test hterm, ?_, ?_, ?_⟩
  · intro a b i htext hkept
    exact holds_search_singleton_of_foundIn htext (foundIn_of_sigmasKept hkept)
  · intro heverywhere
    by_contra hopen
    obtain ⟨c, hc, -⟩ := hterm
    obtain ⟨a, b, hlost⟩ := exists_not_foundIn (List.ne_nil_of_mem hc) hopen
    obtain ⟨i, htext, hholds⟩ :=
      exists_holds_search_singleton test (a ++ term ++ b) (Text.lower term)
    rw [heverywhere a b i htext, hlost] at hholds
    cases hholds
  · intro hsettled a b i htext
    exact holds_search_singleton_of_foundIn htext
      (foundIn_of_sigmasKept (hsettled.sigmasKept _ _))

/-- A sigma with a letter behind it in the term is never final, so that the term is found between
letters. -/
theorem found_everywhere_iff_sum :
    (∃ c ∈ "Σα".toList, Text.isBlank c = false) ∧ Settled "Σα".toList ∧
    ∃ condition, build (.search .goalContainsAny [.str "Σα"]) = .ok condition ∧
      ∀ i : Intent, i.goal = some ("ΑΣ" ++ "Σα" ++ "Σ") → condition.holds i = true := by
  have hterm : ∃ c ∈ "Σα".toList, Text.isBlank c = false := ⟨'Σ', by decide, by decide⟩
  have hsettled : Settled "Σα".toList := by
    have hsigma : Text.SigmaSettled [] ['α'] := .inl (by decide +kernel)
    show Settled ['Σ', 'α']
    refine Text.forall_split_cons_iff.2 ⟨fun _ => hsigma, ?_⟩
    exact Text.forall_split_cons_iff.2 ⟨fun h => absurd h (by decide), by simp⟩
  obtain ⟨condition, hbuild, -, heverywhere⟩ :=
    found_everywhere_iff .goalContainsAny "Σα" hterm
  exact ⟨hterm, hsettled, condition, hbuild, fun i => heverywhere.2 hsettled "ΑΣ" "Σ" i⟩

/-- At the end of the term the sigma is final, and in the text it is not: none of the tests finds
the term in a text that starts with it. -/
theorem final_sigma_not_found :
    let text := "" ++ "ΑΣ" ++ "Α"
    let i : Intent := ⟨"1", "way", some text, [text], [], none, none, ⟨0⟩, 1, 2⟩
    ∀ test : TermTest, test.LooksAt i text ∧
      (build (.search test [.str "ΑΣ"])).map (·.holds i) = .ok false := by
  intro text i test
  cases test with
  | goalContainsAny => exact ⟨rfl, by decide +kernel⟩
  | capabilityContainsAny => exact ⟨List.mem_cons_self, by decide +kernel⟩
  | capabilitiesCoverAll => exact ⟨List.mem_cons_self, by decide +kernel⟩

end Condition

end IntentPlan
