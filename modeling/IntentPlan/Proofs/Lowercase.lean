import IntentPlan.Text.Blank
import IntentPlan.Text.Case

/-!
# Lower case of lower case

The rows of the table of lower case lead from letters to letters that no row changes any more
(`covers_target`), to none that has a lower case of its own besides the table, and to no blanks
(`avoids_of_mem`).  That is looked up in the table row by row: the images of a row are the code
points of a span, so that most rows are told apart by the ends of their spans alone.

So all characters of a text in lower case are small letters or have no case
(`isSmall_of_mem_lowerAfter`), and such a text is its own lower case (`lowerAfter_of_forall`).
-/

namespace IntentPlan.Text

/-! ## The images of a row -/

namespace CaseShift

variable {r r' : CaseShift} {n : Nat}

/-- The code points that a row maps. -/
def sources (r : CaseShift) : List Nat :=
  List.range' r.first ((r.last - r.first) / r.step + 1) r.step

/-- The images of a row lie before a span or behind it. -/
def avoids (r : CaseShift) (span : Nat × Nat) : Bool :=
  Nat.blt (r.target r.last) span.1 || Nat.blt span.2 (r.target r.first)

/-- No image of a row is mapped by another row. -/
def misses (r r' : CaseShift) : Bool :=
  r.avoids (r'.first, r'.last) || r.sources.all fun n => !r'.covers (r.target n)

theorem covers_iff : r.covers n = true ↔
    (r.first ≤ n ∧ n ≤ r.last) ∧ (n - r.first) % r.step = 0 := by
  simp only [covers, Bool.and_eq_true, decide_eq_true_eq, beq_iff_eq]

theorem target_mono (r : CaseShift) {m n : Nat} (h : m ≤ n) : r.target m ≤ r.target n := by
  apply Int.toNat_le_toNat
  exact Int.add_le_add_right (Int.ofNat_le.2 h) r.offset

theorem mem_sources_of_covers (h : r.covers n = true) : n ∈ r.sources := by
  obtain ⟨⟨hfirst, hlast⟩, hstep⟩ := covers_iff.1 h
  rw [sources, List.mem_range']
  refine ⟨(n - r.first) / r.step, ?_, ?_⟩
  · exact Nat.lt_succ_of_le (Nat.div_le_div_right (Nat.sub_le_sub_right hlast _))
  · rw [Nat.mul_div_cancel' (Nat.dvd_of_mod_eq_zero hstep)]
    omega

theorem target_of_avoids {span : Nat × Nat} (h : r.avoids span = true) (hn : r.covers n = true) :
    r.target n < span.1 ∨ span.2 < r.target n := by
  obtain ⟨⟨hfirst, hlast⟩, -⟩ := covers_iff.1 hn
  rw [avoids, Bool.or_eq_true, Nat.blt_eq, Nat.blt_eq] at h
  rcases h with h | h
  · exact .inl (Nat.lt_of_le_of_lt (r.target_mono hlast) h)
  · exact .inr (Nat.lt_of_lt_of_le h (r.target_mono hfirst))

theorem covers_target_of_misses (h : r.misses r' = true) (hn : r.covers n = true) :
    r'.covers (r.target n) = false := by
  rw [misses, Bool.or_eq_true] at h
  rcases h with h | h
  · apply Bool.eq_false_iff.2
    intro hcovers
    obtain ⟨⟨hfirst, hlast⟩, -⟩ := covers_iff.1 hcovers
    rcases target_of_avoids h hn with hlt | hlt
    · exact Nat.not_lt.2 hfirst hlt
    · exact Nat.not_lt.2 hlast hlt
  · have hcovers := List.all_eq_true.1 h n (mem_sources_of_covers hn)
    rwa [Bool.not_eq_true'] at hcovers

end CaseShift

/-! ## The table of lower case -/

/-- Where no image lies: the letter that becomes two, the capital sigma, the code points that are no
characters, and the blanks. -/
def avoidedSpans : List (Nat × Nat) :=
  (0x130, 0x130) :: (0x3A3, 0x3A3) :: (0xD800, 0xDFFF) :: blankSpans

theorem misses_lowerShifts : lowerShifts.all (fun r => lowerShifts.all r.misses) = true := by
  decide +kernel

theorem avoids_lowerShifts : lowerShifts.all (fun r =>
    Nat.blt (r.target r.last) 0x110000 && avoidedSpans.all r.avoids) = true := by
  decide +kernel

section

variable {r r' : CaseShift} {n : Nat} (hr : r ∈ lowerShifts) (hn : r.covers n = true)
include hr hn

/-- No row leads to a letter that a row changes. -/
theorem covers_target (hr' : r' ∈ lowerShifts) : r'.covers (r.target n) = false := by
  have hrow := List.all_eq_true.1 misses_lowerShifts r hr
  exact CaseShift.covers_target_of_misses (List.all_eq_true.1 hrow r' hr') hn

theorem target_lt : r.target n < 0x110000 := by
  have hrow := List.all_eq_true.1 avoids_lowerShifts r hr
  rw [Bool.and_eq_true, Nat.blt_eq] at hrow
  exact Nat.lt_of_le_of_lt (r.target_mono (CaseShift.covers_iff.1 hn).1.2) hrow.1

theorem target_avoids {span : Nat × Nat} (hspan : span ∈ avoidedSpans) :
    r.target n < span.1 ∨ span.2 < r.target n := by
  have hrow := List.all_eq_true.1 avoids_lowerShifts r hr
  rw [Bool.and_eq_true] at hrow
  exact CaseShift.target_of_avoids (List.all_eq_true.1 hrow.2 span hspan) hn

theorem isValidChar_target : (r.target n).isValidChar := by
  have hlt := target_lt hr hn
  have hspan : (0xD800, 0xDFFF) ∈ avoidedSpans := by simp [avoidedSpans]
  rcases target_avoids hr hn hspan with h | h
  · exact .inl h
  · exact .inr ⟨h, hlt⟩

theorem target_ne {m : Nat} (hm : (m, m) ∈ avoidedSpans) : r.target n ≠ m := by
  rcases target_avoids hr hn hm with h | h
  · exact Nat.ne_of_lt h
  · exact Nat.ne_of_gt h

theorem inSpans_blankSpans_target : inSpans blankSpans (r.target n) = false := by
  apply List.any_eq_false.2
  intro span hspan hmem
  simp only [Bool.and_eq_true, decide_eq_true_eq] at hmem
  have hspan' : span ∈ avoidedSpans := by simp [avoidedSpans, hspan]
  rcases target_avoids hr hn hspan' with h | h
  · exact Nat.not_lt.2 hmem.1 h
  · exact Nat.not_lt.2 hmem.2 h

end

/-! ## Characters -/

/-- A character that stays as it is in lower case, wherever it stands. -/
def IsSmall (c : Char) : Prop := c ≠ 'Σ' ∧ lowerChar c = [c]

instance (c : Char) : Decidable (IsSmall c) := inferInstanceAs (Decidable (_ ∧ _))

/-- Besides the letter that becomes two, a character has one image: by a row, or itself. -/
theorem lowerChar_cases {c : Char} (hc : c ≠ 'İ') : ∃ x, lowerChar c = [x] ∧
    ((∃ r ∈ lowerShifts, r.covers c.toNat = true ∧ x.toNat = r.target c.toNat) ∨
      x = c ∧ ∀ r ∈ lowerShifts, r.covers c.toNat = false) := by
  rw [lowerChar, if_neg hc, shiftCase]
  cases hfind : lowerShifts.find? (·.covers c.toNat) with
  | none =>
      refine ⟨c, rfl, .inr ⟨rfl, fun r hr => ?_⟩⟩
      exact Bool.eq_false_iff.2 (List.find?_eq_none.1 hfind r hr)
  | some r =>
      have hr := List.mem_of_find?_eq_some hfind
      have hn : r.covers c.toNat = true := by simpa using List.find?_some hfind
      obtain ⟨x, hx⟩ : ∃ x : Char, x.toNat = r.target c.toNat :=
        ⟨Char.ofNatAux _ (isValidChar_target hr hn), rfl⟩
      refine ⟨x, ?_, .inl ⟨r, hr, hn, hx⟩⟩
      show [Char.ofNat (r.target c.toNat)] = [x]
      rw [← hx, Char.ofNat_toNat]

theorem isSmall_of_uncovered {c : Char} (hdot : c ≠ 'İ') (hsigma : c ≠ 'Σ')
    (h : ∀ r ∈ lowerShifts, r.covers c.toNat = false) : IsSmall c := by
  refine ⟨hsigma, ?_⟩
  obtain ⟨x, hx, ⟨r, hr, hn, -⟩ | ⟨rfl, -⟩⟩ := lowerChar_cases hdot
  · rw [h r hr] at hn
    cases hn
  · exact hx

theorem isSmall_of_mem_lowerChar {c x : Char} (hc : c ≠ 'Σ') (hx : x ∈ lowerChar c) :
    IsSmall x := by
  by_cases hdot : c = 'İ'
  · -- the two characters are not in the table
    have hsmall : (lowerChar 'İ').all (fun y => decide (IsSmall y)) = true := by decide +kernel
    rw [hdot] at hx
    exact of_decide_eq_true (List.all_eq_true.1 hsmall x hx)
  · obtain ⟨y, hy, hcases⟩ := lowerChar_cases hdot
    obtain rfl : x = y := by rwa [hy, List.mem_singleton] at hx
    rcases hcases with ⟨r, hr, hn, hx⟩ | ⟨rfl, huncovered⟩
    · apply isSmall_of_uncovered
      · rintro rfl
        exact target_ne hr hn (m := 0x130) (by simp [avoidedSpans]) hx.symm
      · rintro rfl
        exact target_ne hr hn (m := 0x3A3) (by simp [avoidedSpans]) hx.symm
      · rw [hx]
        exact fun r' hr' => covers_target hr hn hr'
    · exact isSmall_of_uncovered hdot hc huncovered

theorem exists_mem_lowerChar {c : Char} (hc : isBlank c = false) :
    ∃ x ∈ lowerChar c, isBlank x = false := by
  by_cases hdot : c = 'İ'
  · rw [hdot]
    exact ⟨'i', by decide +kernel, by decide +kernel⟩
  · obtain ⟨x, hx, hcases⟩ := lowerChar_cases hdot
    refine ⟨x, by rw [hx]; exact List.mem_singleton_self x, ?_⟩
    rcases hcases with ⟨r, hr, hn, htarget⟩ | ⟨rfl, -⟩
    · rw [isBlank, htarget]
      exact inSpans_blankSpans_target hr hn
    · exact hc

/-- Both forms of the small sigma are small and not blank. -/
theorem sigma_form (final : Bool) : IsSmall (if final then 'ς' else 'σ') ∧
    isBlank (if final then 'ς' else 'σ') = false := by
  cases final <;> decide +kernel

/-! ## Texts -/

/-- A text of small characters is its own lower case. -/
theorem lowerAfter_of_forall {cs : List Char} (h : ∀ c ∈ cs, IsSmall c) (before : List Char) :
    lowerAfter before cs = cs := by
  induction cs generalizing before with
  | nil => rfl
  | cons c rest ih =>
      obtain ⟨⟨hsigma, hlower⟩, hrest⟩ := List.forall_mem_cons.1 h
      rw [lowerAfter, if_neg hsigma, hlower, ih hrest]
      rfl

theorem isSmall_of_mem_lowerAfter {before cs : List Char} {x : Char}
    (hx : x ∈ lowerAfter before cs) : IsSmall x := by
  induction cs generalizing before with
  | nil => cases hx
  | cons c rest ih =>
      rw [lowerAfter] at hx
      rcases List.mem_append.1 hx with hx | hx
      · split at hx
        · rw [List.mem_singleton.1 hx]
          exact (sigma_form _).1
        · rename_i hsigma
          exact isSmall_of_mem_lowerChar hsigma hx
      · exact ih hx

/-- Lower case changes a text in lower case no more. -/
theorem lower_lower (s : String) : lower (lower s) = lower s := by
  rw [lower, lower, String.toList_ofList]
  rw [lowerAfter_of_forall fun c => isSmall_of_mem_lowerAfter]

/-- A character that is not blank leaves one that is not blank. -/
theorem exists_mem_lowerAfter {cs : List Char} {c : Char} (hc : c ∈ cs) (hblank : isBlank c = false)
    (before : List Char) : ∃ x ∈ lowerAfter before cs, isBlank x = false := by
  induction cs generalizing before with
  | nil => cases hc
  | cons d rest ih =>
      rw [lowerAfter]
      rcases List.mem_cons.1 hc with rfl | hc
      · split
        · exact ⟨_, List.mem_append_left _ (List.mem_singleton_self _), (sigma_form _).2⟩
        · obtain ⟨x, hx, hxblank⟩ := exists_mem_lowerChar hblank
          exact ⟨x, List.mem_append_left _ hx, hxblank⟩
      · obtain ⟨x, hx, hxblank⟩ := ih hc (d :: before)
        exact ⟨x, List.mem_append_right _ hx, hxblank⟩

end IntentPlan.Text
