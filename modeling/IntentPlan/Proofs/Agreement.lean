import IntentPlan.Proofs.Stages

/-!
# Compiling a source at once and step by step

A source can be compiled at once, or parsed, checked and planned by three operations.  Both ways
share the work up to the intent, and only parsing makes a record of its success (`outcome_compile`,
`outcome_parse`).  So a compilation stops where parsing fails, and goes on with the intent that
parsing gives, in the session that parsing leaves but for that one record
(`outcome_compile_of_parse_error`, `outcome_compile_of_parse_ok`).
-/

namespace IntentPlan

/-! ## Planners -/

/-- From the same clock and the same ids the planner comes to the same plan or failure and takes as
many of them, whatever else there is in a session. -/
def Planner.UsesSuppliesOnly (p : Planner) : Prop :=
  ∀ i s t, s.clock = t.clock → s.ids = t.ids →
    ((p i).outcome s).1 = ((p i).outcome t).1 ∧
      ((p i).outcome s).2.clock = ((p i).outcome t).2.clock ∧
      ((p i).outcome s).2.ids = ((p i).outcome t).2.ids

theorem Planner.usesSuppliesOnly_standard (registry : Registry) (catalog : Catalog)
    (prices : Estimate.PriceList) : (standard registry catalog prices).UsesSuppliesOnly := by
  intro i s t hclock hids
  simp only [standard, Registry.select, Audit.entry, Work.outcome_bind, Work.outcome_readClock,
    Work.outcome_freshId, Work.outcome_noteAll, Work.outcome_pure, Work.outcome_ofExcept, hclock,
    hids]
  cases catalog.steps i (registry.choose i).strategy.name with
  | error e => exact ⟨rfl, rfl, rfl⟩
  | ok steps =>
      dsimp only
      cases stepCost prices steps with
      | error e => exact ⟨rfl, rfl, rfl⟩
      | ok cost =>
          dsimp only
          cases Plan.problems steps with
          | nil => exact ⟨rfl, rfl, rfl⟩
          | cons problem problems => exact ⟨rfl, rfl, rfl⟩

namespace Compiler

/-! ## Parsing -/

theorem outcome_parse (c : Compiler) (source : String) (s : Session) :
    (c.parse source).outcome s =
      match (Intent.ofSource c.config.strictLexing source).outcome s with
      | (.ok i, s₁) => (.ok i, { s₁ with journal := s₁.journal ++ [i.parsedRecord] })
      | (.error e, s₁) => (.error e, s₁) := by
  rw [parse, Intent.parse, Work.outcome_bind]
  rcases (Intent.ofSource c.config.strictLexing source).outcome s with ⟨parsed, s₁⟩
  cases parsed with
  | error e => rfl
  | ok i => rfl

variable {c : Compiler} {source : String} {s s₁ : Session}

/-- A compilation stops where parsing fails. -/
theorem outcome_compile_of_parse_error {e : SourceError}
    (h : (c.parse source).outcome s = (.error e, s₁)) :
    (c.compile source).outcome s = (.ok (.ofSourceError e), s₁) := by
  rw [outcome_parse] at h
  rw [outcome_compile]
  rcases hparsed : (Intent.ofSource c.config.strictLexing source).outcome s with ⟨parsed, s₂⟩
  rw [hparsed] at h
  cases parsed with
  | error e' =>
      cases h
      rfl
  | ok i => cases h

/-- A compilation goes on with the intent that parsing gives. -/
theorem outcome_compile_of_parse_ok {i : Intent}
    (h : (c.parse source).outcome s = (.ok i, s₁)) :
    ∃ records, s₁.journal = records ++ [i.parsedRecord] ∧
      (c.compile source).outcome s =
        (c.checkAndPlan (.lowered i) i).outcome { s₁ with journal := records } := by
  rw [outcome_parse] at h
  rw [outcome_compile]
  rcases hparsed : (Intent.ofSource c.config.strictLexing source).outcome s with ⟨parsed, s₂⟩
  rw [hparsed] at h
  cases parsed with
  | error e => cases h
  | ok i' =>
      cases h
      exact ⟨s₂.journal, rfl, rfl⟩

/-! ## Agreement -/

/-- Where a compilation stops whose source is no intent. -/
def StopsFor (r : Compilation) : SourceError → Prop
  | .lex _ => r.stage = .lexError ∧ r.history = [.received, .lexError]
  | .parse _ => r.stage = .parseError ∧ r.history = [.received, .tokenized, .parseError]
  | .lowering _ =>
    r.stage = .parseError ∧ r.history = [.received, .tokenized, .parsed, .parseError]

theorem stopsFor_ofSourceError (e : SourceError) : StopsFor (.ofSourceError e) e := by
  cases e <;> exact ⟨rfl, rfl⟩

theorem lowered_notMem_ofSourceError (e : SourceError) :
    .lowered ∉ (Compilation.ofSourceError e).history := by
  cases e <;>
    simp [Compilation.ofSourceError, Compilation.unscanned, Compilation.unparsed,
      Compilation.unlowered]

/-- What a compilation makes of the outcome of its planner: a plan and a failure to plan are its
result, and any other failure is its own. -/
def Reports (i : Intent) (complaints : List String)
    (result : Except Breakdown Compilation × Session) : Except PlanFailure Plan × Session → Prop
  | (.ok plan, s) =>
    ∃ r, result = (.ok r, s) ∧ r.stage = .planned ∧ r.intent? = some i ∧
      r.complaints = complaints ∧ r.plan? = some plan
  | (.error (.planning e), s) =>
    ∃ r, result = (.ok r, { s with journal := s.journal ++ [planningRecord i e] }) ∧
      r.stage = .planningError ∧ r.intent? = some i ∧ r.complaints = complaints ∧
      r.error? = some e.message
  | (.error (.breakdown e), s) => result = (.error e, s)

theorem reports_planIntent (c : Compiler) (i : Intent) (complaints : List String) (s : Session) :
    Reports i complaints ((c.planIntent (.validated i complaints) i).outcome s)
      ((c.planner i).outcome s) := by
  rw [outcome_planIntent]
  rcases (c.planner i).outcome s with ⟨planning, s₁⟩
  rcases planning with (e | e) | plan
  · exact ⟨_, rfl, rfl, rfl, rfl, rfl⟩
  · exact rfl
  · exact ⟨_, rfl, rfl, rfl, rfl, rfl⟩

/-- Where the planner uses only the clock and the ids, it may as well run in another session with
the same ones. -/
theorem Reports.of_usesSuppliesOnly {p : Planner} (hp : p.UsesSuppliesOnly) {i : Intent}
    {complaints : List String} {result : Except Breakdown Compilation × Session} {s t : Session}
    (h : Reports i complaints result ((p i).outcome s)) (hclock : s.clock = t.clock)
    (hids : s.ids = t.ids) :
    ∃ s', Reports i complaints result (((p i).outcome t).1, s') ∧
      s'.clock = ((p i).outcome t).2.clock ∧ s'.ids = ((p i).outcome t).2.ids := by
  obtain ⟨hplan, hclock', hids'⟩ := hp i s t hclock hids
  refine ⟨((p i).outcome s).2, ?_, hclock', hids'⟩
  rw [← hplan]
  exact h

/-- Compiling a source agrees with parsing it, checking the intent and planning it.  An error of
parsing is the error of the compilation, at the stage that it belongs to.  An intent is the one of
the compilation, with the complaints of its check; if these do not stop the compilation, it reports
what the planner does next, which for a planner that uses the clock and the ids only is what it does
in the session that the check leaves. -/
theorem compile_agrees (c : Compiler) (source : String) (s : Session) :
    (∀ e s₁, (c.parse source).outcome s = (.error e, s₁) →
      ∃ r text, (c.compile source).outcome s = (.ok r, s₁) ∧ StopsFor r e ∧
        Intent.parseMessage e = "Intent parsing failed: " ++ text ∧ r.error? = some text) ∧
    (∀ i s₁, (c.parse source).outcome s = (.ok i, s₁) →
      ∃ complaints s₂ front back,
        (i.check c.config.maxComplexity : Work Breakdown _).outcome s₁ = (.ok complaints, s₂) ∧
        s₂.journal = front ++ i.parsedRecord :: back ∧
        if c.config.validateBeforePlan = true ∧ complaints ≠ [] then
          ∃ r, (c.compile source).outcome s = (.ok r, { s₂ with journal := front ++ back }) ∧
            r.stage = .validationFailed ∧ r.intent? = some i ∧ r.complaints = complaints
        else
          Reports i complaints ((c.compile source).outcome s)
            ((c.planner i).outcome { s₂ with journal := front ++ back }) ∧
          (c.planner.UsesSuppliesOnly →
            ∃ s₃, Reports i complaints ((c.compile source).outcome s)
                (((c.planner i).outcome s₂).1, s₃) ∧
              s₃.clock = ((c.planner i).outcome s₂).2.clock ∧
              s₃.ids = ((c.planner i).outcome s₂).2.ids)) ∧
    (∀ r s', (c.compile source).outcome s = (.ok r, s') → .lowered ∈ r.history →
      ∃ i s₁, (c.parse source).outcome s = (.ok i, s₁)) ∧
    (∀ e s', (c.compile source).outcome s = (.error e, s') →
      ∃ i s₁, (c.parse source).outcome s = (.ok i, s₁)) ∧
    ∀ registry catalog prices, (Planner.standard registry catalog prices).UsesSuppliesOnly := by
  refine ⟨?_, ?_, ?_, ?_, Planner.usesSuppliesOnly_standard⟩
  · intro e s₁ hparse
    exact ⟨_, e.message, outcome_compile_of_parse_error hparse, stopsFor_ofSourceError e, rfl,
      Compilation.error?_ofSourceError e⟩
  · intro i s₁ hparse
    obtain ⟨records, hrecords, hcompile⟩ := outcome_compile_of_parse_ok hparse
    refine ⟨i.complaints c.config.maxComplexity, _, records,
      i.checkRecords c.config.maxComplexity, rfl, by simp [hrecords], ?_⟩
    rw [hcompile, outcome_checkAndPlan]
    split
    · exact ⟨_, rfl, rfl, rfl, rfl⟩
    · have hreports := c.reports_planIntent i (i.complaints c.config.maxComplexity)
        { s₁ with journal := records ++ i.checkRecords c.config.maxComplexity }
      exact ⟨hreports, fun hplanner => hreports.of_usesSuppliesOnly hplanner rfl rfl⟩
  · intro r s' hcompile hlowered
    rcases hparse : (c.parse source).outcome s with ⟨parsed, s₁⟩
    cases parsed with
    | ok i => exact ⟨i, s₁, rfl⟩
    | error e =>
        rw [outcome_compile_of_parse_error hparse] at hcompile
        cases hcompile
        exact absurd hlowered (lowered_notMem_ofSourceError e)
  · intro e s' hcompile
    rcases hparse : (c.parse source).outcome s with ⟨parsed, s₁⟩
    cases parsed with
    | ok i => exact ⟨i, s₁, rfl⟩
    | error e' =>
        rw [outcome_compile_of_parse_error hparse] at hcompile
        cases hcompile

end Compiler

end IntentPlan
