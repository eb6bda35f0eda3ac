import IntentPlan.Compilation
import IntentPlan.Proofs.Outcome

/-!
# The stages of a compilation

A compilation fills in what is known about it from stage to stage.  The states that it can be left
in are named here, with all that is filled in by then (`Compilation.Ended`), and each stage leads
from one of these states to the next (`Compiler.outcome_checkAndPlan`,
`Compiler.outcome_planIntent`).  What the parts of such a state have to do with each other is read
off the list of the states.
-/

namespace IntentPlan

namespace Compilation

/-! ## Between two stages -/

/-- There is an intent, and nothing is known about it yet. -/
def lowered (i : Intent) : Compilation where
  stage := .lowered
  history := [.received, .tokenized, .parsed, .lowered]
  intent? := some i

/-- The intent was checked and may be planned. -/
def validated (i : Intent) (complaints : List String) : Compilation where
  stage := .validated
  history := [.received, .tokenized, .parsed, .lowered, .validated]
  intent? := some i
  complaints

/-! ## After the last stage -/

/-- The source is no sequence of tokens. -/
def unscanned (e : Token.Notice) : Compilation where
  stage := .lexError
  history := [.received, .lexError]
  error? := some e.message

/-- The tokens are no declaration. -/
def unparsed (e : ParseError) : Compilation where
  stage := .parseError
  history := [.received, .tokenized, .parseError]
  error? := some e.message

/-- The declaration is no intent. -/
def unlowered (e : LoweringError) : Compilation where
  stage := .parseError
  history := [.received, .tokenized, .parsed, .parseError]
  error? := some e.message

/-- The intent has problems and was not planned for them. -/
def invalid (i : Intent) (complaints : List String) : Compilation where
  stage := .validationFailed
  history := [.received, .tokenized, .parsed, .lowered, .validationFailed]
  intent? := some i
  complaints
  error? := some (String.intercalate "; " complaints)

/-- The planner has no plan for the intent. -/
def unplanned (i : Intent) (complaints : List String) (e : PlanError) : Compilation where
  stage := .planningError
  history := [.received, .tokenized, .parsed, .lowered, .validated, .planningError]
  intent? := some i
  complaints
  error? := some e.message

def planned (i : Intent) (complaints : List String) (plan : Plan) : Compilation where
  stage := .planned
  history := [.received, .tokenized, .parsed, .lowered, .validated, .planned]
  intent? := some i
  complaints
  plan? := some plan

/-- The states in which a compilation is left. -/
inductive Ended : Compilation → Prop
  | unscanned (e : Token.Notice) : Ended (.unscanned e)
  | unparsed (e : ParseError) : Ended (.unparsed e)
  | unlowered (e : LoweringError) : Ended (.unlowered e)
  | invalid (i : Intent) (complaints : List String) : Ended (.invalid i complaints)
  | unplanned (i : Intent) (complaints : List String) (e : PlanError) :
      Ended (.unplanned i complaints e)
  | planned (i : Intent) (complaints : List String) (plan : Plan) :
      Ended (.planned i complaints plan)

/-- The state in which a source is left that is no intent. -/
def ofSourceError : SourceError → Compilation
  | .lex e => .unscanned e
  | .parse e => .unparsed e
  | .lowering e => .unlowered e

theorem error?_ofSourceError (e : SourceError) : (ofSourceError e).error? = some e.message := by
  cases e <;> rfl

theorem ended_ofSourceError (e : SourceError) : (ofSourceError e).Ended := by
  cases e with
  | lex e => exact .unscanned e
  | parse e => exact .unparsed e
  | lowering e => exact .unlowered e

namespace Ended

variable {r : Compilation} (h : r.Ended)

include h

theorem history_mem : r.history ∈ [
    [.received, .lexError],
    [.received, .tokenized, .parseError],
    [.received, .tokenized, .parsed, .parseError],
    [.received, .tokenized, .parsed, .lowered, .validationFailed],
    [.received, .tokenized, .parsed, .lowered, .validated, .planningError],
    [.received, .tokenized, .parsed, .lowered, .validated, .planned]] := by
  cases h <;>
    simp [Compilation.unscanned, Compilation.unparsed, Compilation.unlowered, Compilation.invalid,
      Compilation.unplanned, Compilation.planned]

theorem getLast?_history : r.history.getLast? = some r.stage := by
  cases h <;> rfl

theorem plan?_isSome_iff : r.plan?.isSome = true ↔ r.stage = .planned := by
  cases h with
  | planned => exact iff_of_true rfl rfl
  | _ => exact iff_of_false Bool.false_ne_true nofun

theorem error?_eq_none_iff : r.error? = none ↔ r.stage = .planned := by
  cases h with
  | planned => exact iff_of_true rfl rfl
  | _ => exact iff_of_false nofun nofun

theorem intent?_isSome_iff : r.intent?.isSome = true ↔ .lowered ∈ r.history := by
  cases h with
  | unscanned | unparsed | unlowered =>
      refine iff_of_false Bool.false_ne_true ?_
      simp [Compilation.unscanned, Compilation.unparsed, Compilation.unlowered]
  | invalid | unplanned | planned =>
      refine iff_of_true rfl ?_
      simp [Compilation.invalid, Compilation.unplanned, Compilation.planned]

theorem complaints_of_intent? (hnone : r.intent? = none) : r.complaints = [] := by
  cases h with
  | unscanned | unparsed | unlowered => rfl
  | invalid | unplanned | planned => cases hnone

theorem intent?_isSome_of_validationFailed (hstage : r.stage = .validationFailed) :
    r.intent?.isSome = true ∧ r.error? = some (String.intercalate "; " r.complaints) := by
  cases h with
  | invalid => exact ⟨rfl, rfl⟩
  | unscanned | unparsed | unlowered | unplanned | planned => cases hstage

end Ended

end Compilation

namespace Compiler

/-! ## From stage to stage -/

section Outcomes

variable (c : Compiler) (source : String) (s : Session)

theorem outcome_compile :
    (c.compile source).outcome s =
      match (Intent.ofSource c.config.strictLexing source).outcome s with
      | (.ok i, s₁) => (c.checkAndPlan (.lowered i) i).outcome s₁
      | (.error e, s₁) => (.ok (.ofSourceError e), s₁) := by
  rw [compile, Intent.ofSource, Work.outcome_attempt_bind, Work.outcome_bind,
    Work.outcome_mapError]
  rcases (Token.tokenize c.config.strictLexing source).outcome s with ⟨scanned, s₁⟩
  cases scanned with
  | error e => rfl
  | ok tokens =>
      dsimp only [Except.mapError]
      rw [Work.outcome_attempt_bind, Work.outcome_bind, Work.outcome_mapError]
      rcases (Declaration.parse tokens).outcome s₁ with ⟨parsed, s₂⟩
      cases parsed with
      | error e => rfl
      | ok d =>
          dsimp only [Except.mapError]
          rw [Work.outcome_attempt_bind, Work.outcome_bind, Work.outcome_mapError]
          rcases (Intent.ofNode d.toNode).outcome s₂ with ⟨lowered, s₃⟩
          cases lowered with
          | error e => rfl
          | ok i => rfl

theorem outcome_checkAndPlan (i : Intent) :
    (c.checkAndPlan (.lowered i) i).outcome s =
      if c.config.validateBeforePlan = true ∧ i.complaints c.config.maxComplexity ≠ [] then
        (.ok (.invalid i (i.complaints c.config.maxComplexity)),
          { s with journal := s.journal ++ i.checkRecords c.config.maxComplexity })
      else
        (c.planIntent (.validated i (i.complaints c.config.maxComplexity)) i).outcome
          { s with journal := s.journal ++ i.checkRecords c.config.maxComplexity } := by
  simp only [checkAndPlan, Intent.check, Work.outcome_bind, Work.outcome_noteAll,
    Work.outcome_pure]
  by_cases h : c.config.validateBeforePlan = true ∧ i.complaints c.config.maxComplexity ≠ []
  · rw [if_pos h, if_pos (by simpa using h)]
    rfl
  · rw [if_neg h, if_neg (by simpa using h)]
    rfl

theorem outcome_planIntent (i : Intent) (complaints : List String) :
    (c.planIntent (.validated i complaints) i).outcome s =
      match (c.planner i).outcome s with
      | (.ok plan, s₁) => (.ok (.planned i complaints plan), s₁)
      | (.error (.planning e), s₁) =>
        (.ok (.unplanned i complaints e), { s₁ with journal := s₁.journal ++ [planningRecord i e] })
      | (.error (.breakdown e), s₁) => (.error e, s₁) := by
  rw [planIntent, Work.outcome_attempt_bind]
  rcases (c.planner i).outcome s with ⟨planning, s₁⟩
  rcases planning with (e | e) | plan
  · rfl
  · rfl
  · rfl

end Outcomes

end Compiler

end IntentPlan
