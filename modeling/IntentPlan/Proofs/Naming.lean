import IntentPlan.Batch
import Mathlib.Data.List.Chain

/-!
# Names of the directories of a batch

Any text becomes a slug: a few small letters and digits, with single underscores between them
(`isSlug_slug`).  The name of an item is its place in the batch and a slug.  The place is the number
in front of the first underscore and can be read back (`placeOf_itemName`), so that items with
different places have different names, whatever they are called and however many digits a place has.
-/

namespace IntentPlan

namespace Text

/-! ## Slugs -/

/-- The characters of a slug. -/
def IsNameChar (c : Char) : Prop := 'a' ≤ c ∧ c ≤ 'z' ∨ '0' ≤ c ∧ c ≤ '9' ∨ c = '_'

instance : DecidablePred IsNameChar := fun c =>
  inferInstanceAs (Decidable ('a' ≤ c ∧ c ≤ 'z' ∨ '0' ≤ c ∧ c ≤ '9' ∨ c = '_'))

/-- A short word of small letters and digits that single underscores divide. -/
structure IsSlug (s : String) : Prop where
  ne_empty : s ≠ ""
  length_le : s.length ≤ 48
  isNameChar : ∀ c ∈ s.toList, IsNameChar c
  head_ne : s.toList.head? ≠ some '_'
  single : ¬['_', '_'] <:+: s.toList

/-- Not two underscores. -/
def NotBoth (a b : Char) : Prop := ¬(a = '_' ∧ b = '_')

theorem ne_underscore {c : Char} (h : isSlugChar c = true) : c ≠ '_' := by
  rintro rfl
  exact absurd h (by decide)

theorem isNameChar_of_isSlugChar {c : Char} (h : isSlugChar c = true) : IsNameChar c := by
  simp only [isSlugChar, Bool.or_eq_true, Bool.and_eq_true, decide_eq_true_eq] at h
  exact h.imp_right .inl

theorem isNameChar_of_mem_slugChars {started pending : Bool} {cs : List Char} {c : Char}
    (h : c ∈ slugChars started pending cs) : IsNameChar c := by
  induction cs generalizing started pending with
  | nil => cases h
  | cons d rest ih =>
      rw [slugChars] at h
      split at h
      · rename_i hd
        have hkept : c = d ∨ c ∈ slugChars true false rest → IsNameChar c := by
          rintro (rfl | hrest)
          · exact isNameChar_of_isSlugChar hd
          · exact ih hrest
        split at h
        · rcases List.mem_cons.1 h with rfl | h
          · exact .inr (.inr rfl)
          · exact hkept (List.mem_cons.1 h)
        · exact hkept (List.mem_cons.1 h)
      · exact ih h

/-- After a letter or digit there is no more than one underscore before the next. -/
theorem isChain_cons_slugChars {d : Char} (hd : isSlugChar d = true) (pending : Bool)
    (cs : List Char) : (d :: slugChars true pending cs).IsChain NotBoth := by
  induction cs generalizing d pending with
  | nil => exact .singleton d
  | cons c rest ih =>
      rw [slugChars]
      split
      · rename_i hc
        split
        · exact .cons_cons (fun h => ne_underscore hd h.1)
            (.cons_cons (fun h => ne_underscore hc h.2) (ih hc false))
        · exact .cons_cons (fun h => ne_underscore hd h.1) (ih hc false)
      · exact ih hd true

/-- A slug starts with the first letter or digit of the text. -/
theorem slugChars_cases (pending : Bool) (cs : List Char) :
    slugChars false pending cs = [] ∨ ∃ d rest, isSlugChar d = true ∧
      slugChars false pending cs = d :: slugChars true false rest := by
  induction cs generalizing pending with
  | nil => exact .inl rfl
  | cons c rest ih =>
      rw [slugChars]
      split
      · rename_i hc
        exact .inr ⟨c, rest, hc, rfl⟩
      · exact ih true

theorem isSlug_ofList {cs : List Char} (hne : cs ≠ []) (hlength : cs.length ≤ 48)
    (hchars : ∀ c ∈ cs, IsNameChar c) (hhead : cs.head? ≠ some '_')
    (hchain : cs.IsChain NotBoth) : IsSlug (String.ofList cs) where
  ne_empty h := hne (by simpa using congrArg String.toList h)
  length_le := by rwa [String.length_ofList]
  isNameChar := by rwa [String.toList_ofList]
  head_ne := by rwa [String.toList_ofList]
  single h := by
    rw [String.toList_ofList] at h
    have hpair := hchain.infix h
    exact (List.isChain_cons_cons.1 hpair).1 ⟨rfl, rfl⟩

theorem isSlug_slug (text : String) : IsSlug (slug text) := by
  rw [slug]
  rcases slugChars_cases false (lower text).toList with hnil | ⟨d, rest, hd, hcons⟩
  · rw [hnil]
    have hchars : ∀ c ∈ ['i', 't', 'e', 'm'], IsNameChar c := fun c hc =>
      isNameChar_of_isSlugChar (List.all_eq_true.1 (by decide) c hc)
    exact isSlug_ofList (by decide) (by decide) hchars (by decide) (by simp [NotBoth])
  · rw [hcons, List.take_succ_cons]
    refine isSlug_ofList (List.cons_ne_nil _ _) ?_ (fun c hc => ?_) ?_ ?_
    · rw [List.length_cons, List.length_take]
      omega
    · rw [← List.take_succ_cons] at hc
      exact isNameChar_of_mem_slugChars (hcons ▸ List.mem_of_mem_take hc)
    · exact fun h => ne_underscore hd (Option.some.inj h)
    · rw [← List.take_succ_cons]
      exact (isChain_cons_slugChars hd false rest).take 48

end Text

namespace Batch

/-! ## Names of items -/

/-- The number in front of the first underscore of a name. -/
def placeOf (name : String) : Nat :=
  Nat.ofDigitChars 10 (name.toList.takeWhile (· != '_')) 0

theorem toList_itemName (index : Nat) (label : String) :
    (itemName index label).toList =
      (List.replicate (3 - (toString index).length) '0' ++ Nat.toDigits 10 index) ++
        '_' :: (Text.slug label).toList := by
  have hindex : (toString index).toList = Nat.toDigits 10 index := Nat.toList_repr
  simp only [itemName, Text.padZeros, String.toList_append, String.toList_ofList, hindex,
    List.append_assoc]
  rfl

theorem isDigit_of_mem_number {width index : Nat} {c : Char}
    (h : c ∈ List.replicate width '0' ++ Nat.toDigits 10 index) : c.isDigit = true := by
  rcases List.mem_append.1 h with hzero | hdigit
  · rw [List.eq_of_mem_replicate hzero]
    rfl
  · exact Nat.isDigit_of_mem_toDigits (by decide) (by decide) hdigit

/-- Zeros in front of a number do not change it, and no digit is an underscore. -/
theorem placeOf_itemName (index : Nat) (label : String) :
    placeOf (itemName index label) = index := by
  rw [placeOf, toList_itemName, List.takeWhile_append_of_pos, List.takeWhile_cons_of_neg,
    List.append_nil, Nat.ofDigitChars_append, Nat.ofDigitChars_replicate_zero]
  · simp
  · simp
  · intro c hc
    rw [bne_iff_ne]
    rintro rfl
    exact absurd (isDigit_of_mem_number hc) (by decide)

theorem eq_of_itemName_eq {i j : Nat} {label label' : String}
    (h : itemName i label = itemName j label') : i = j := by
  rw [← placeOf_itemName i label, h, placeOf_itemName]

theorem isNameChar_of_mem_itemName {index : Nat} {label : String} {c : Char}
    (h : c ∈ (itemName index label).toList) : Text.IsNameChar c := by
  rw [toList_itemName] at h
  rcases List.mem_append.1 h with hnumber | hrest
  · have hdigit := isDigit_of_mem_number hnumber
    obtain ⟨hzero, hnine⟩ : decide ('0' ≤ c) = true ∧ decide (c ≤ '9') = true :=
      Bool.and_eq_true_iff.1 hdigit
    exact .inr (.inl ⟨of_decide_eq_true hzero, of_decide_eq_true hnine⟩)
  · rcases List.mem_cons.1 hrest with rfl | hslug
    · exact .inr (.inr rfl)
    · exact (Text.isSlug_slug label).isNameChar c hslug

/-- A name without points does not lead to another directory. -/
theorem itemName_ne_up (index : Nat) (label : String) : itemName index label ≠ ".." := by
  intro h
  have hpoint : '.' ∈ (itemName index label).toList := by
    rw [h]
    decide
  exact absurd (isNameChar_of_mem_itemName hpoint) (by decide)

theorem itemDirectory_ne {root : Path} {i j : Nat} (h : i ≠ j) (label label' : String) :
    itemDirectory root i label ≠ itemDirectory root j label' := by
  intro heq
  have hparts := congrArg Path.parts heq
  exact h (eq_of_itemName_eq (List.cons.inj (List.append_cancel_left hparts)).1)

end Batch

end IntentPlan
