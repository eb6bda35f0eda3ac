import IntentPlan.Proofs.Selection

/-!
# Conditions and the capabilities of an intent

A condition holds for a reason: a term that was found, terms that were all found, or a part that
holds (`Condition.Met`, `holds_iff_met`).  No reason is lost where an intent has the same goal and
more capabilities, so conditions are monotone in the capabilities (`Met.of_extends`).  Neither their
order nor their number shows in a reason, so it shows in no choice either (`applicable_congr`).
-/

namespace IntentPlan

/-- The second intent has the goal of the first one and all its capabilities. -/
structure Intent.Extends (a b : Intent) : Prop where
  goal : a.goal = b.goal
  capabilities : ∀ capability ∈ a.capabilities, capability ∈ b.capabilities

namespace Condition

/-! ## Why a condition holds -/

/-- A condition holds of an intent, for the reason that is given. -/
inductive Met (i : Intent) : Condition → Prop
  | goal {terms : List String} {term : String} (hterm : term ∈ terms)
      (hfound : foundIn (i.goal.getD "") term = true) : Met i (.search .goalContainsAny terms)
  | capability {terms : List String} {term capability : String} (hterm : term ∈ terms)
      (hcapability : capability ∈ i.capabilities) (hfound : foundIn capability term = true) :
      Met i (.search .capabilityContainsAny terms)
  | cover {terms : List String} (hfound : ∀ term ∈ terms, ∃ capability ∈ i.capabilities,
      foundIn capability term = true) : Met i (.search .capabilitiesCoverAll terms)
  | part {conditions : List Condition} {condition : Condition} (hpart : condition ∈ conditions)
      (hmet : Met i condition) : Met i (.anyOf conditions)

variable {i : Intent}

theorem holdsTerms_iff_met {test : TermTest} {terms : List String} :
    holdsTerms test terms i = true ↔ Met i (.search test terms) := by
  cases test with
  | goalContainsAny =>
      rw [holdsTerms, List.any_eq_true]
      constructor
      · rintro ⟨term, hterm, hfound⟩
        exact .goal hterm hfound
      · intro h
        cases h with
        | goal hterm hfound => exact ⟨_, hterm, hfound⟩
  | capabilityContainsAny =>
      simp only [holdsTerms, List.any_eq_true]
      constructor
      · rintro ⟨capability, hcapability, term, hterm, hfound⟩
        exact .capability hterm hcapability hfound
      · intro h
        cases h with
        | capability hterm hcapability hfound => exact ⟨_, hcapability, _, hterm, hfound⟩
  | capabilitiesCoverAll =>
      simp only [holdsTerms, List.all_eq_true, List.any_eq_true]
      constructor
      · exact .cover
      · intro h
        cases h with
        | cover hfound => exact hfound

theorem met_anyOf_iff {conditions : List Condition} :
    Met i (.anyOf conditions) ↔ ∃ condition ∈ conditions, Met i condition := by
  constructor
  · intro h
    cases h with
    | part hpart hmet => exact ⟨_, hpart, hmet⟩
  · rintro ⟨condition, hpart, hmet⟩
    exact .part hpart hmet

mutual

theorem holds_iff_met : ∀ condition : Condition, condition.holds i = true ↔ Met i condition
  | .search test terms => holdsTerms_iff_met
  | .anyOf conditions => by
      rw [holds, met_anyOf_iff]
      exact holdsSome_iff_met conditions

theorem holdsSome_iff_met : ∀ conditions : List Condition,
    holdsSome i conditions = true ↔ ∃ condition ∈ conditions, Met i condition
  | [] => by simp [holdsSome]
  | condition :: rest => by
      rw [holdsSome, Bool.or_eq_true, holds_iff_met condition, holdsSome_iff_met rest]
      simp

end

/-- What is found in an intent is found in one that extends it. -/
theorem Met.of_extends {a b : Intent} (hab : a.Extends b) {condition : Condition}
    (h : Met a condition) : Met b condition := by
  induction h with
  | goal hterm hfound =>
      rw [hab.goal] at hfound
      exact .goal hterm hfound
  | capability hterm hcapability hfound =>
      exact .capability hterm (hab.capabilities _ hcapability) hfound
  | cover hfound =>
      refine .cover fun term hterm => ?_
      obtain ⟨capability, hcapability, hterm⟩ := hfound term hterm
      exact ⟨capability, hab.capabilities _ hcapability, hterm⟩
  | part hpart _ ih => exact .part hpart ih

theorem holds_of_extends {a b : Intent} (hab : a.Extends b) {condition : Condition}
    (h : condition.holds a = true) : condition.holds b = true :=
  (holds_iff_met condition).2 (((holds_iff_met condition).1 h).of_extends hab)

end Condition

namespace Registry

variable {r : Registry} {a b : Intent}

/-! ## What the registry makes of it -/

theorem mem_applicable_of_extends (hab : a.Extends b) {rule : Rule}
    (h : rule ∈ r.applicable a) : rule ∈ r.applicable b := by
  obtain ⟨hrule, hholds⟩ := mem_applicable_iff.1 h
  exact mem_applicable_iff.2 ⟨hrule, Condition.holds_of_extends hab hholds⟩

/-- No rule that applies has a higher priority than the first one. -/
theorem exists_winner {rule : Rule} (h : rule ∈ r.applicable a) :
    ∃ winner others, r.applicable a = winner :: others ∧ rule.priority ≤ winner.priority := by
  have hsorted := r.pairwise_applicable a
  cases happlicable : r.applicable a with
  | nil =>
      rw [happlicable] at h
      cases h
  | cons winner others =>
      rw [happlicable] at h hsorted
      refine ⟨winner, others, rfl, ?_⟩
      rcases List.mem_cons.1 h with rfl | hmem
      · exact Int.le_refl _
      · exact (List.pairwise_cons.1 hsorted).1 rule hmem

/-- Intents that extend each other are the same to every rule. -/
theorem applicable_congr (hab : a.Extends b) (hba : b.Extends a) :
    r.applicable b = r.applicable a := by
  have hholds (rule : Rule) : rule.condition.holds b = rule.condition.holds a :=
    Bool.eq_iff_iff.2 ⟨Condition.holds_of_extends hba, Condition.holds_of_extends hab⟩
  simp only [applicable, hholds]

/-- With the same goal and more capabilities an intent meets every condition that it met before,
all rules that applied still do, and the first of them has no lower priority than before.  Where
the capabilities are the same but for their order and repetitions, so is the verdict. -/
theorem matching_monotone {a b : Intent} (hgoal : a.goal = b.goal)
    (hcapabilities : ∀ capability ∈ a.capabilities, capability ∈ b.capabilities) :
    (∀ condition : Condition, condition.holds a = true → condition.holds b = true) ∧
    ∀ r : Registry,
      (∀ rule ∈ r.applicable a, rule ∈ r.applicable b) ∧
      (∀ winner others, r.applicable a = winner :: others → ∃ winner' others',
        r.applicable b = winner' :: others' ∧ winner.priority ≤ winner'.priority) ∧
      ((∀ capability ∈ b.capabilities, capability ∈ a.capabilities) → SameVerdict r r a b) := by
  have hab : a.Extends b := ⟨hgoal, hcapabilities⟩
  refine ⟨fun condition => Condition.holds_of_extends hab, fun r => ⟨?_, ?_, ?_⟩⟩
  · intro rule hrule
    exact mem_applicable_of_extends hab hrule
  · intro winner others happlicable
    have hwinner : winner ∈ r.applicable a := by
      rw [happlicable]
      exact List.mem_cons_self
    exact exists_winner (mem_applicable_of_extends hab hwinner)
  · intro hback
    exact sameVerdict_of_applicable (applicable_congr hab ⟨hgoal.symm, hback⟩)

/-- Two more capabilities bring in a rule that needs both of them, and the first rule has no lower
priority for it; a capability that is repeated makes no difference. -/
theorem matching_monotone_churn :
    let i : Intent := ⟨"1", "churn", none, ["Predict churn"], [], none, none, ⟨0⟩, 1, 2⟩
    let more : Intent := { i with capabilities := ["read it", "Predict churn", "Create a table"] }
    let twice : Intent := { i with capabilities := ["Predict churn", "Predict churn"] }
    (default.applicable i).map Rule.priority = [9] ∧
    (default.rules.filter fun rule => rule.condition.holds more).map Rule.name =
      ["crud_detection", "ml_workflow"] ∧
    (∃ winner others, default.applicable more = winner :: others ∧ 9 ≤ winner.priority) ∧
    SameVerdict default default i twice := by
  intro i more twice
  have hone : (default.applicable i).map Rule.priority = [9] := by decide +kernel
  refine ⟨hone, by decide +kernel, ?_, ?_⟩
  · have hmore : ∀ capability ∈ i.capabilities, capability ∈ more.capabilities := by
      simp [i, more]
    obtain ⟨winner, others, happlicable, hpriority, -⟩ := List.map_eq_cons_iff.1 hone
    rw [← hpriority]
    exact ((matching_monotone (a := i) (b := more) rfl hmore).2 default).2.1 winner others
      happlicable
  · have htwice : ∀ capability ∈ i.capabilities, capability ∈ twice.capabilities := by
      simp [i, twice]
    have hback : ∀ capability ∈ twice.capabilities, capability ∈ i.capabilities := by
      simp [i, twice]
    exact ((matching_monotone (a := i) (b := twice) rfl htwice).2 default).2.2 hback

end Registry

end IntentPlan
