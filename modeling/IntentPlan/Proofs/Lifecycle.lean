import IntentPlan.Proofs.Agreement
import IntentPlan.Proofs.Lowering
import IntentPlan.Proofs.Planning

/-!
# The course of a compilation

A compilation that returns has taken one of four courses (`Compiler.Course`): its source was no
intent, the intent was not valid enough, the planner had no plan, or it had one.  A course says what
every stage made of its input, for any planner, so that all that is known of a result is read off
its course (`course_of_outcome`).
-/

namespace IntentPlan

/-- Where the planner does not refuse an intent, it does what the planner of some rules, templates
and prices does. -/
def Planner.StandardOrRefuses (p : Planner) : Prop :=
  ∀ i s, (∃ e, ((p i).outcome s).1 = .error (.planning e)) ∨
    ∃ registry catalog prices, (p i).outcome s = (standard registry catalog prices i).outcome s

theorem Planner.StandardOrRefuses.intentId_eq {p : Planner} (hp : p.StandardOrRefuses) {i : Intent}
    {s s' : Session} {plan : Plan} (h : (p i).outcome s = (.ok plan, s')) :
    plan.intentId = i.id := by
  rcases hp i s with ⟨e, he⟩ | ⟨registry, catalog, prices, heq⟩
  · rw [h] at he
    cases he
  · exact (makes_of_outcome_standard (heq.symm.trans h)).intentId

namespace Compiler

variable {c : Compiler} {source : String} {s s' : Session} {r : Compilation}

/-- The complaints about an intent forbid that it is planned. -/
def Forbids (config : Config) (i : Intent) : Prop :=
  config.validateBeforePlan = true ∧ i.complaints config.maxComplexity ≠ []

/-- The session in which an intent is planned: its check may have left a record. -/
def afterCheck (config : Config) (i : Intent) (s : Session) : Session :=
  { s with journal := s.journal ++ i.checkRecords config.maxComplexity }

/-- How a compilation that starts in a session comes to a result. -/
inductive Course (c : Compiler) (source : String) (s : Session) : Compilation → Prop
  | refused {e : SourceError} {s₁ : Session}
      (hsource : (Intent.ofSource c.config.strictLexing source).outcome s = (.error e, s₁)) :
      Course c source s (.ofSourceError e)
  | invalid {i : Intent} {s₁ : Session}
      (hsource : (Intent.ofSource c.config.strictLexing source).outcome s = (.ok i, s₁))
      (hforbids : Forbids c.config i) :
      Course c source s (.invalid i (i.complaints c.config.maxComplexity))
  | unplanned {i : Intent} {s₁ s₂ : Session} {e : PlanError}
      (hsource : (Intent.ofSource c.config.strictLexing source).outcome s = (.ok i, s₁))
      (hallows : ¬Forbids c.config i)
      (hplan : (c.planner i).outcome (afterCheck c.config i s₁) = (.error (.planning e), s₂)) :
      Course c source s (.unplanned i (i.complaints c.config.maxComplexity) e)
  | planned {i : Intent} {s₁ s₂ : Session} {plan : Plan}
      (hsource : (Intent.ofSource c.config.strictLexing source).outcome s = (.ok i, s₁))
      (hallows : ¬Forbids c.config i)
      (hplan : (c.planner i).outcome (afterCheck c.config i s₁) = (.ok plan, s₂)) :
      Course c source s (.planned i (i.complaints c.config.maxComplexity) plan)

theorem course_of_outcome (h : (c.compile source).outcome s = (.ok r, s')) :
    Course c source s r := by
  rw [outcome_compile] at h
  rcases hsource : (Intent.ofSource c.config.strictLexing source).outcome s with ⟨parsed, s₁⟩
  rw [hsource] at h
  cases parsed with
  | error e =>
      cases h
      exact .refused hsource
  | ok i =>
      dsimp only at h
      rw [outcome_checkAndPlan] at h
      split at h
      · rename_i hforbids
        cases h
        exact .invalid hsource hforbids
      · rename_i hallows
        rw [outcome_planIntent] at h
        rcases hplan : (c.planner i).outcome (afterCheck c.config i s₁) with ⟨planning, s₂⟩
        rw [afterCheck] at hplan
        rw [hplan] at h
        rcases planning with (e | e) | plan
        · cases h
          exact .unplanned hsource hallows hplan
        · cases h
        · cases h
          exact .planned hsource hallows hplan

/-- Every course leads to one of the states in which a compilation is left. -/
theorem Course.ended (h : Course c source s r) : r.Ended := by
  cases h with
  | @refused e => exact Compilation.ended_ofSourceError e
  | invalid => exact .invalid _ _
  | unplanned => exact .unplanned _ _ _
  | planned => exact .planned _ _ _

/-- An intent that may be planned and that the planner has a plan for. -/
theorem outcome_compile_planned {i : Intent} {s₁ s₂ : Session} {plan : Plan}
    (hsource : (Intent.ofSource c.config.strictLexing source).outcome s = (.ok i, s₁))
    (hallows : ¬Forbids c.config i)
    (hplan : (c.planner i).outcome (afterCheck c.config i s₁) = (.ok plan, s₂)) :
    (c.compile source).outcome s =
      (.ok (.planned i (i.complaints c.config.maxComplexity) plan), s₂) := by
  rw [afterCheck] at hplan
  rw [Forbids] at hallows
  rw [outcome_compile, hsource]
  dsimp only
  rw [outcome_checkAndPlan, if_neg hallows, outcome_planIntent, hplan]

/-- A result with a plan is one of the planner, after a source that is an intent. -/
theorem Course.of_plan? {p : Plan} (h : Course c source s r) (hp : r.plan? = some p) :
    ∃ i s₁ s₂, r = .planned i (i.complaints c.config.maxComplexity) p ∧
      (Intent.ofSource c.config.strictLexing source).outcome s = (.ok i, s₁) ∧
      ¬Forbids c.config i ∧ (c.planner i).outcome (afterCheck c.config i s₁) = (.ok p, s₂) := by
  cases h with
  | @refused e => cases e <;> cases hp
  | invalid => cases hp
  | unplanned => cases hp
  | planned hsource hallows hplan =>
      cases hp
      exact ⟨_, _, _, rfl, hsource, hallows, hplan⟩

/-- What a result has of an intent was found out about that intent. -/
theorem Course.of_intent? {i : Intent} (h : Course c source s r) (hi : r.intent? = some i) :
    r.complaints = i.complaints c.config.maxComplexity ∧
      i.lineCount = Text.lineCount source ∧
      (r.stage = .validationFailed ↔ Forbids c.config i) := by
  cases h with
  | @refused e => cases e <;> cases hi
  | invalid hsource hforbids =>
      cases hi
      exact ⟨rfl, Intent.lineCount_of_outcome_ofSource hsource, iff_of_true rfl hforbids⟩
  | unplanned hsource hallows =>
      cases hi
      exact ⟨rfl, Intent.lineCount_of_outcome_ofSource hsource, iff_of_false nofun hallows⟩
  | planned hsource hallows =>
      cases hi
      exact ⟨rfl, Intent.lineCount_of_outcome_ofSource hsource, iff_of_false nofun hallows⟩

theorem Course.outcome_ofSource {i : Intent} (h : Course c source s r) (hi : r.intent? = some i) :
    ∃ s₁, (Intent.ofSource c.config.strictLexing source).outcome s = (.ok i, s₁) := by
  cases h with
  | @refused e => cases e <;> cases hi
  | invalid hsource | unplanned hsource | planned hsource =>
      cases hi
      exact ⟨_, hsource⟩

theorem Course.strict_of_lexError (h : Course c source s r) (hstage : r.stage = .lexError) :
    c.config.strictLexing = true := by
  cases h with
  | @refused e _ hsource =>
      cases e with
      | lex e => exact Intent.strict_of_outcome_ofSource hsource
      | parse e => cases hstage
      | lowering e => cases hstage
  | invalid => cases hstage
  | unplanned => cases hstage
  | planned => cases hstage

end Compiler

namespace Compiler

/-- A compilation that returns has gone through one of six histories, and all parts of its result
agree with the stage where it stopped: whether there is a plan, an error, an intent, and what was
found wrong with it.  This holds for every planner; that a plan names the intent it was made for
holds where the planner is a standard one or refuses. -/
theorem compile_lifecycle {c : Compiler} {source : String} {s s' : Session} {r : Compilation}
    (h : (c.compile source).outcome s = (.ok r, s')) :
    r.history ∈ [
      [.received, .lexError],
      [.received, .tokenized, .parseError],
      [.received, .tokenized, .parsed, .parseError],
      [.received, .tokenized, .parsed, .lowered, .validationFailed],
      [.received, .tokenized, .parsed, .lowered, .validated, .planningError],
      [.received, .tokenized, .parsed, .lowered, .validated, .planned]] ∧
    r.history.getLast? = some r.stage ∧
    (r.ok = true ↔ r.stage = .planned) ∧
    (r.plan?.isSome = true ↔ r.stage = .planned) ∧
    (r.error? = none ↔ r.stage = .planned) ∧
    (r.intent?.isSome = true ↔ .lowered ∈ r.history) ∧
    (∀ i, r.intent? = some i →
      (∀ t, ((i.check c.config.maxComplexity : Work Breakdown _).outcome t).1 =
        .ok r.complaints) ∧
      i.lineCount = 1 + source.toList.count '\n') ∧
    (r.intent? = none → r.complaints = []) ∧
    (r.stage = .lexError → c.config.strictLexing = true) ∧
    (r.stage = .validationFailed ↔
      r.intent?.isSome = true ∧ c.config.validateBeforePlan = true ∧ r.complaints ≠ []) ∧
    (r.stage = .validationFailed → r.error? = some (String.intercalate "; " r.complaints)) ∧
    (c.planner.StandardOrRefuses → ∀ p, r.plan? = some p →
      ∃ i, r.intent? = some i ∧ p.intentId = i.id) := by
  have hcourse := course_of_outcome h
  have hended := hcourse.ended
  refine ⟨hended.history_mem, hended.getLast?_history, ?_, hended.plan?_isSome_iff,
    hended.error?_eq_none_iff, hended.intent?_isSome_iff, ?_, hended.complaints_of_intent?,
    hcourse.strict_of_lexError, ?_,
    fun hstage => (hended.intent?_isSome_of_validationFailed hstage).2, ?_⟩
  · rw [Compilation.ok, beq_iff_eq]
  · intro i hi
    obtain ⟨hcomplaints, hlines, -⟩ := hcourse.of_intent? hi
    refine ⟨fun t => ?_, ?_⟩
    · rw [hcomplaints]
      rfl
    · rw [hlines, Text.lineCount, Int.natCast_add, Int.add_comm]
      rfl
  · constructor
    · intro hstage
      have hsome := (hended.intent?_isSome_of_validationFailed hstage).1
      obtain ⟨i, hi⟩ := Option.isSome_iff_exists.1 hsome
      obtain ⟨hcomplaints, -, hforbids⟩ := hcourse.of_intent? hi
      rw [hcomplaints]
      exact ⟨hsome, hforbids.1 hstage⟩
    · rintro ⟨hsome, hinvalid⟩
      obtain ⟨i, hi⟩ := Option.isSome_iff_exists.1 hsome
      obtain ⟨hcomplaints, -, hforbids⟩ := hcourse.of_intent? hi
      rw [hcomplaints] at hinvalid
      exact hforbids.2 hinvalid
  · intro hplanner p hp
    obtain ⟨i, s₁, s₂, rfl, -, -, hplan⟩ := hcourse.of_plan? hp
    exact ⟨i, rfl, hplanner.intentId_eq hplan⟩

/-- An intent of two lines that has no goal and no capability, but may be planned all the same. -/
theorem compile_lifecycle_advice :
    let c : Compiler := {}
    let source := "intent relay\n\x7b \x7d"
    let s : Session := ⟨.constant ⟨0⟩, .constant "a", .constant 0.0, [], {}, ""⟩
    ∃ r s', (c.compile source).outcome s = (.ok r, s') ∧ r.stage = .planned ∧
      r.complaints = ["Intent must have a goal", "Intent must have at least one capability"] ∧
      r.error? = none ∧ ∃ i p, r.intent? = some i ∧ r.plan? = some p ∧ i.lineCount = 2 ∧
        p.intentId = i.id := by
  intro c source s
  have hstandard : c.planner.StandardOrRefuses := fun i t => .inr ⟨_, _, _, rfl⟩
  have hstage : ((c.compile source).outcome s).1.toOption.map
      (fun r => (r.stage, r.complaints)) = some (.planned,
        ["Intent must have a goal", "Intent must have at least one capability"]) := by
    decide +kernel
  rcases hresult : (c.compile source).outcome s with ⟨result, s'⟩
  rw [hresult] at hstage
  cases result with
  | error e => cases hstage
  | ok r =>
      obtain ⟨hplanned, hcomplaints⟩ := Prod.mk.inj (Option.some.inj hstage)
      obtain ⟨-, -, -, hplan, herror, -, hintent, -, -, -, -, hid⟩ := compile_lifecycle hresult
      obtain ⟨p, hp⟩ := Option.isSome_iff_exists.1 (hplan.2 hplanned)
      obtain ⟨i, hi, hpid⟩ := hid hstandard p hp
      exact ⟨r, s', rfl, hplanned, hcomplaints, herror.2 hplanned, i, p, hi, hp,
        (hintent i hi).2.trans (by decide), hpid⟩

end Compiler

end IntentPlan
