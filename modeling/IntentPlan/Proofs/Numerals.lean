import IntentPlan.Text.Quoted
import Mathlib.Logic.Function.Basic

/-!
# Numbers as texts

Whole numbers are written with decimal digits and a sign, and different numbers look different
(`repr_injective`).  The numbers of characters are written in base sixteen with zeros in front, and
can be read back (`ofHexDigits_hexDigits`).
-/

namespace IntentPlan.Text

/-! ## Decimal digits -/

theorem toDigits_injective : Function.Injective (Nat.toDigits 10) := by
  intro m n h
  calc
    m = Nat.ofDigitChars 10 (Nat.toDigits 10 m) 0 := Nat.ofDigitChars_ten_toDigits.symm
    _ = Nat.ofDigitChars 10 (Nat.toDigits 10 n) 0 := by rw [h]
    _ = n := Nat.ofDigitChars_ten_toDigits

theorem toList_repr (i : Int) :
    i.repr.toList =
      if 0 ≤ i then Nat.toDigits 10 i.toNat else '-' :: Nat.toDigits 10 (-i).toNat := by
  rw [Int.repr_eq_if]
  split
  · rw [Nat.toList_repr]
  · rw [String.toList_append, Nat.toList_repr]
    rfl

/-- A number is written with digits and a sign. -/
theorem isDigit_or_minus_of_mem_repr {i : Int} {c : Char} (h : c ∈ i.repr.toList) :
    c.isDigit = true ∨ c = '-' := by
  rw [toList_repr] at h
  split at h
  · exact .inl (Nat.isDigit_of_mem_toDigits (by decide) (by decide) h)
  · rcases List.mem_cons.1 h with rfl | h
    · exact .inr rfl
    · exact .inl (Nat.isDigit_of_mem_toDigits (by decide) (by decide) h)

theorem notMem_repr {c : Char} (hdigit : c.isDigit = false) (hminus : c ≠ '-') (i : Int) :
    c ∉ i.repr.toList := by
  intro hmem
  rcases isDigit_or_minus_of_mem_repr hmem with h | h
  · rw [hdigit] at h
    cases h
  · exact hminus h

/-- No digit is a sign, so a number with a sign and one without look different. -/
theorem toDigits_ne_cons_minus (m : Nat) (cs : List Char) : Nat.toDigits 10 m ≠ '-' :: cs := by
  intro h
  have hdigit : '-'.isDigit = true :=
    Nat.isDigit_of_mem_toDigits (by decide) (by decide) (h ▸ List.mem_cons_self)
  exact absurd hdigit (by decide)

theorem repr_injective : Function.Injective Int.repr := by
  intro m n h
  have hlists := congrArg String.toList h
  rw [toList_repr, toList_repr] at hlists
  split at hlists <;> split at hlists
  · have := toDigits_injective hlists
    omega
  · exact absurd hlists (toDigits_ne_cons_minus _ _)
  · exact absurd hlists.symm (toDigits_ne_cons_minus _ _)
  · have := toDigits_injective (List.cons.inj hlists).2
    omega

/-! ## Digits in base sixteen -/

/-- The value of a digit in base sixteen; its letters are small. -/
def hexDigitValue (c : Char) : Nat :=
  if c.isDigit then c.toNat - '0'.toNat else c.toNat - 'a'.toNat + 10

theorem hexDigitValue_digitChar {d : Nat} (h : d < 16) : hexDigitValue d.digitChar = d := by
  revert d
  decide

def ofHexDigits (cs : List Char) : Nat := cs.foldl (fun n c => 16 * n + hexDigitValue c) 0

theorem ofHexDigits_toDigits (n : Nat) : ofHexDigits (Nat.toDigits 16 n) = n := by
  induction n using Nat.strongRecOn with
  | ind n ih =>
      rw [Nat.toDigits_eq_if (by decide)]
      split
      · rename_i h
        rw [ofHexDigits, List.foldl_cons, List.foldl_nil, hexDigitValue_digitChar h]
        omega
      · rename_i h
        have hrest : ofHexDigits (Nat.toDigits 16 (n / 16)) = n / 16 := ih (n / 16) (by omega)
        rw [ofHexDigits] at hrest ⊢
        rw [List.foldl_append, hrest, List.foldl_cons, List.foldl_nil,
          hexDigitValue_digitChar (Nat.mod_lt n (by decide))]
        omega

/-- Zeros in front do not count. -/
theorem ofHexDigits_hexDigits (width n : Nat) : ofHexDigits (hexDigits width n) = n := by
  have hzeros (k : Nat) (cs : List Char) :
      ofHexDigits (List.replicate k '0' ++ cs) = ofHexDigits cs := by
    induction k with
    | zero => rfl
    | succ k ih => exact ih
  rw [hexDigits, hzeros, ofHexDigits_toDigits]

end IntentPlan.Text
