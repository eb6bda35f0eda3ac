import IntentPlan.Intent.Lowering
import IntentPlan.Proofs.Outcome
import IntentPlan.Proofs.Scanning

/-!
# From declarations to intents

What the values of a declaration have to be for it to be an intent (`IsReadable`), what the intent
then has of them (`Intent.IsDeclaredBy`), and that a declaration is lowered exactly if it is
readable (`outcome_ofNode_cases`).  The problems of an intent are the negation of four conditions on
it (`problems_eq_nil_iff`).
-/

namespace IntentPlan

/-! ## Values as texts -/

/-- Texts have themselves as their texts. -/
theorem Datum.mapM_text_str (ts : List String) : (ts.map Datum.str).mapM Datum.text = .ok ts :=
  Work.mapM_eq_ok_iff.2 (List.forall₂_map_left_iff.2 (List.forall₂_same.2 fun _ _ => rfl))

namespace Declaration

/-- The texts that stand under a key: none if there is no value, and no object counts as texts. -/
inductive Value.Texts : Option Value → List String → Prop
  | absent : Texts none []
  | text (s : String) : Texts (some (.text s)) [s]
  | items (texts : List String) : Texts (some (.items texts)) texts

/-- The text that stands under a key, if there is a value at all. -/
inductive Value.OneText : Option Value → Option String → Prop
  | absent : OneText none none
  | text (s : String) : OneText (some (.text s)) (some s)

/-- An architecture weighs ten, and an empty text is none. -/
def Value.architectureWeight : Option Value → Nat
  | none | some (.text "") => 0
  | some _ => 10

theorem get?_toData (key : String) (fields : Assoc Value) :
    Assoc.get? key (toData fields) = (Assoc.get? key fields).map Value.toDatum := by
  induction fields with
  | nil => rfl
  | cons p rest ih =>
      obtain ⟨k, v⟩ := p
      by_cases hk : k = key
      · simp [toData, Assoc.get?, hk]
      · simp [toData, Assoc.get?, hk, ih]

/-- The values that an intent is made of have the shapes that it needs. -/
structure IsReadable (d : Declaration) : Prop where
  capabilities : ∃ texts, Value.Texts (Assoc.get? "capabilities" d.body) texts
  constraints : ∃ texts, Value.Texts (Assoc.get? "constraints" d.body) texts
  goal : ∃ text, Value.OneText (Assoc.get? "goal" d.body) text
  successCriteria : ∃ text, Value.OneText (Assoc.get? "success_criteria" d.body) text

end Declaration

namespace Intent

open Declaration

theorem stringsAt_toData_eq_ok_iff {key : String} {fields : Assoc Value} {texts : List String} :
    stringsAt key (toData fields) = .ok texts ↔ Value.Texts (Assoc.get? key fields) texts := by
  rw [stringsAt, get?_toData]
  cases Assoc.get? key fields with
  | none =>
      constructor
      · rintro ⟨⟩
        exact .absent
      · rintro ⟨⟩
        rfl
  | some value =>
      cases value with
      | text s =>
          constructor
          · rintro ⟨⟩
            exact .text s
          · rintro ⟨⟩
            rfl
      | items ts =>
          simp only [Option.map_some, Value.toDatum, Datum.strings, Datum.mapM_text_str,
            Except.mapError, Except.ok.injEq]
          constructor
          · rintro rfl
            exact .items ts
          · rintro ⟨⟩
            rfl
      | body fields =>
          constructor
          · rintro ⟨⟩
          · rintro ⟨⟩

theorem not_texts_of_error {key : String} {fields : Assoc Value} {e : LoweringError}
    (h : stringsAt key (toData fields) = .error e) :
    ¬∃ texts, Value.Texts (Assoc.get? key fields) texts := by
  rintro ⟨texts, htexts⟩
  rw [stringsAt_toData_eq_ok_iff.2 htexts] at h
  cases h

theorem textAt_toData_eq_ok_iff {key : String} {fields : Assoc Value} {text : Option String} :
    textAt key (toData fields) = .ok text ↔ Value.OneText (Assoc.get? key fields) text := by
  rw [textAt, get?_toData]
  cases Assoc.get? key fields with
  | none =>
      constructor
      · rintro ⟨⟩
        exact .absent
      · rintro ⟨⟩
        rfl
  | some value =>
      cases value with
      | text s =>
          constructor
          · rintro ⟨⟩
            exact .text s
          · rintro ⟨⟩
            rfl
      | items ts => constructor <;> rintro ⟨⟩
      | body fields => constructor <;> rintro ⟨⟩

theorem not_oneText_of_error {key : String} {fields : Assoc Value} {e : LoweringError}
    (h : textAt key (toData fields) = .error e) :
    ¬∃ text, Value.OneText (Assoc.get? key fields) text := by
  rintro ⟨text, htext⟩
  rw [textAt_toData_eq_ok_iff.2 htext] at h
  cases h

theorem complexityScore_toData (capabilities constraints : Nat) (fields : Assoc Value)
    (f : Assoc Datum → Assoc Frozen) :
    complexityScore capabilities constraints ((architectureOf (toData fields)).map f).isSome =
      2 * capabilities + constraints +
        Value.architectureWeight (Assoc.get? "architecture" fields) := by
  rw [complexityScore, architectureOf, get?_toData, Option.isSome_map]
  cases Assoc.get? "architecture" fields with
  | none => rfl
  | some value =>
      cases value with
      | text s =>
          by_cases hs : s = ""
          · subst hs
            rfl
          · simp [Value.toDatum, Value.architectureWeight, hs]
      | items ts => rfl
      | body fields => rfl

/-! ## Lowering -/

/-- What an intent has of the declaration that it comes from. -/
structure IsDeclaredBy (d : Declaration) (i : Intent) : Prop where
  name : i.name = d.name
  capabilities : Value.Texts (Assoc.get? "capabilities" d.body) i.capabilities
  constraints : Value.Texts (Assoc.get? "constraints" d.body) i.constraints
  goal : Value.OneText (Assoc.get? "goal" d.body) i.goal
  successCriteria : Value.OneText (Assoc.get? "success_criteria" d.body) i.successCriteria
  complexity : i.complexity = (2 * i.capabilities.length + i.constraints.length +
    Value.architectureWeight (Assoc.get? "architecture" d.body) : Nat)

theorem IsDeclaredBy.withLines {d : Declaration} {i : Intent} (h : i.IsDeclaredBy d)
    (source : String) : (i.withLines source).IsDeclaredBy d :=
  ⟨h.name, h.capabilities, h.constraints, h.goal, h.successCriteria, h.complexity⟩

/-- A declaration gives an intent exactly if it is readable. -/
theorem outcome_ofNode_cases (d : Declaration) (s : Session) :
    (∃ i s', (ofNode d.toNode).outcome s = (.ok i, s') ∧ i.IsDeclaredBy d) ∨
      ∃ e s', (ofNode d.toNode).outcome s = (.error e, s') ∧ ¬d.IsReadable := by
  simp only [ofNode, toNode, bodyOf, Node.kind, Node.children, Node.value, bne_self_eq_false,
    Bool.false_eq_true, if_false, Work.outcome_bind, Work.outcome_ofExcept, Work.outcome_freshId,
    Work.outcome_readClock, Work.outcome_pure]
  -- the texts are looked up in this order, and the first that is missing is the failure
  cases hcapabilities : stringsAt "capabilities" (toData d.body) with
  | error e => exact .inr ⟨e, _, rfl, fun h => not_texts_of_error hcapabilities h.capabilities⟩
  | ok capabilities =>
      cases hconstraints : stringsAt "constraints" (toData d.body) with
      | error e => exact .inr ⟨e, _, rfl, fun h => not_texts_of_error hconstraints h.constraints⟩
      | ok constraints =>
          cases hgoal : textAt "goal" (toData d.body) with
          | error e => exact .inr ⟨e, _, rfl, fun h => not_oneText_of_error hgoal h.goal⟩
          | ok goal =>
              cases hcriteria : textAt "success_criteria" (toData d.body) with
              | error e =>
                  exact .inr ⟨e, _, rfl, fun h => not_oneText_of_error hcriteria h.successCriteria⟩
              | ok criteria =>
                  exact .inl ⟨_, _, rfl, rfl, stringsAt_toData_eq_ok_iff.1 hcapabilities,
                    stringsAt_toData_eq_ok_iff.1 hconstraints, textAt_toData_eq_ok_iff.1 hgoal,
                    textAt_toData_eq_ok_iff.1 hcriteria,
                    congrArg Nat.cast (complexityScore_toData _ _ _ _)⟩

/-! ## Sources -/

/-- The lines of an intent are those of its source. -/
theorem lineCount_of_outcome_ofSource {strict : Bool} {source : String} {s s' : Session}
    {i : Intent} (h : (ofSource strict source).outcome s = (.ok i, s')) :
    i.lineCount = Text.lineCount source := by
  obtain ⟨tokens, s₁, -, h⟩ := Work.outcome_bind_eq_ok_iff.1 h
  obtain ⟨d, s₂, -, h⟩ := Work.outcome_bind_eq_ok_iff.1 h
  obtain ⟨j, s₃, -, h⟩ := Work.outcome_bind_eq_ok_iff.1 h
  cases h
  rfl

/-- Only a strict scan refuses a source. -/
theorem strict_of_outcome_ofSource {strict : Bool} {source : String} {s s' : Session}
    {e : Token.Notice} (h : (ofSource strict source).outcome s = (.error (.lex e), s')) :
    strict = true := by
  rcases Work.outcome_bind_eq_error_iff.1 h with h | ⟨tokens, s₁, -, h⟩
  · obtain ⟨e₀, h, -⟩ := Work.exists_of_outcome_mapError h
    cases strict with
    | true => rfl
    | false =>
        rw [Token.outcome_tokenize_of_ok (fun hstrict => by cases hstrict)] at h
        cases h
  -- what comes after the scan has errors of its own
  · rcases Work.outcome_bind_eq_error_iff.1 h with h | ⟨d, s₂, -, h⟩
    · obtain ⟨e₀, -, he⟩ := Work.exists_of_outcome_mapError h
      cases he
    · rcases Work.outcome_bind_eq_error_iff.1 h with h | ⟨i, s₃, -, h⟩
      · obtain ⟨e₀, -, he⟩ := Work.exists_of_outcome_mapError h
        cases he
      · cases h

/-! ## Problems -/

theorem allBlank_eq_false_iff {s : String} :
    Text.allBlank s = false ↔ ∃ c ∈ s.toList, Text.isBlank c = false := by
  rw [Text.allBlank, List.all_eq_false]
  simp

/-- An intent is valid if it has a name, a goal and a capability and is not too complex. -/
theorem problems_eq_nil_iff {limit : Int} {i : Intent} :
    i.problems limit = [] ↔ Text.allBlank i.name = false ∧
      (∃ goal, i.goal = some goal ∧ ∃ c ∈ goal.toList, Text.isBlank c = false) ∧
      0 < i.capabilities.length ∧ i.complexity ≤ limit := by
  have hgoal : i.goal.all Text.allBlank = false ↔
      ∃ goal, i.goal = some goal ∧ ∃ c ∈ goal.toList, Text.isBlank c = false := by
    cases i.goal with
    | none => simp
    | some goal => simp [allBlank_eq_false_iff]
  rw [← hgoal]
  simp [problems, List.length_pos_iff]

/-- No word is blank. -/
theorem allBlank_of_isWord {s : String} (h : Token.IsWord s) : Text.allBlank s = false := by
  obtain ⟨c, more, hchars, hstart, -⟩ := h
  refine allBlank_eq_false_iff.2 ⟨c, by simp [hchars], ?_⟩
  have hrange : 65 ≤ c.toNat ∧ c.toNat ≤ 122 := by
    simp only [Token.isWordStart, Bool.or_eq_true, Bool.and_eq_true, decide_eq_true_eq] at hstart
    rcases hstart with (rfl | ⟨h1, h2⟩) | ⟨h1, h2⟩
    · decide
    · exact ⟨Nat.le_trans (by decide) h1, h2⟩
    · exact ⟨h1, Nat.le_trans h2 (by decide)⟩
  simp only [Text.isBlank, Text.inSpans, Text.blankSpans, List.any_cons, List.any_nil,
    Bool.or_false, Bool.or_eq_false_iff, Bool.and_eq_false_imp, decide_eq_true_eq,
    decide_eq_false_iff_not, Nat.not_le]
  omega

end Intent

end IntentPlan
