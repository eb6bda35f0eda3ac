import IntentPlan.Proofs.Erasure
import IntentPlan.Proofs.Lifecycle

/-!
# Ids and times have no part in what is planned

Two runs of a compilation are followed side by side through its stages, in sessions that need not
have anything in common.  Every stage takes related values to related values: the intents of the two
runs are equal without ids and times, then their plans, then the compilations
(`Intent.rel_ofNode`, `Planner.rel_standard`, `Compiler.rel_compile`).
-/

namespace IntentPlan

open Work (Rel)

variable {R : Files → Files → Prop}

/-! ## The stages up to the intent -/

theorem Token.rel_tokenize (strict : Bool) (source : String) :
    Rel R Eq (tokenize strict source) (tokenize strict source) := by
  refine (Rel.ofExcept_refl _).bind ?_
  rintro tokens _ rfl
  refine (Rel.noteAll _ _).bind ?_
  intro _ _ _
  exact Rel.pure rfl

theorem Declaration.rel_parse (tokens : List Token) :
    Rel R Eq (parse tokens) (parse tokens) := by
  refine (Rel.ofExcept_refl _).bind ?_
  rintro d _ rfl
  refine (Rel.noteAll _ _).bind ?_
  intro _ _ _
  exact Rel.pure rfl

theorem Intent.rel_ofNode (node : Node) :
    Rel R (fun i j => i.erased = j.erased) (ofNode node) (ofNode node) := by
  rw [ofNode]
  split
  · exact fun _ _ hfiles => ⟨.error _, hfiles⟩
  refine (Rel.ofExcept_refl _).bind ?_
  rintro body _ rfl
  refine (Rel.ofExcept_refl _).bind ?_
  rintro capabilities _ rfl
  refine (Rel.ofExcept_refl _).bind ?_
  rintro constraints _ rfl
  refine Rel.freshId.bind ?_
  intro id id' _
  refine (Rel.ofExcept_refl _).bind ?_
  rintro name _ rfl
  refine (Rel.ofExcept_refl _).bind ?_
  rintro goal _ rfl
  refine (Rel.ofExcept_refl _).bind ?_
  rintro criteria _ rfl
  refine Rel.readClock.bind ?_
  intro time time' _
  exact Rel.pure rfl

/-! ## Plans -/

theorem Audit.rel_entry {ε : Type} (stage decision reasoning : String)
    (alternatives : List String) :
    Rel (ε := ε) R (fun a b => a.erased = b.erased) (entry stage decision reasoning alternatives)
      (entry stage decision reasoning alternatives) := by
  refine Rel.readClock.bind ?_
  intro time time' _
  exact Rel.pure rfl

theorem Registry.rel_select {ε : Type} (r : Registry) {i j : Intent} (h : i.erased = j.erased) :
    Rel (ε := ε) R (fun a b => a.1 = b.1 ∧ a.2.erased = b.2.erased) (r.select i) (r.select j) := by
  have hchoose : r.choose i = r.choose j := by
    rw [← choose_erased, h, choose_erased]
  rw [select, select, hchoose]
  refine (Audit.rel_entry _ _ _ _).bind ?_
  intro entry entry' hentry
  refine (Rel.noteAll _ _).bind ?_
  intro _ _ _
  exact Rel.pure ⟨rfl, hentry⟩

theorem Planner.rel_standard (registry : Registry) {catalog : Catalog}
    (hcatalog : catalog.IsDiscreet) (prices : Estimate.PriceList) {i j : Intent}
    (h : i.erased = j.erased) :
    Rel R (fun p q => p.erased = q.erased) (standard registry catalog prices i)
      (standard registry catalog prices j) := by
  refine (registry.rel_select h).bind ?_
  rintro ⟨strategy, selection⟩ ⟨_, selection'⟩ ⟨rfl, hselection⟩
  refine (Rel.ofExcept (Catalog.alike_steps hcatalog h _)).bind ?_
  intro steps steps' hsteps
  -- all that is still looked at in the steps is the same in both runs
  have hlength : steps.length = steps'.length := by
    simpa using congrArg List.length hsteps
  have hcost : stepCost prices steps = stepCost prices steps' := by
    rw [← stepCost_erased, hsteps, stepCost_erased]
  have hproblems : Plan.problems steps = Plan.problems steps' := by
    rw [← Plan.problems_erased, hsteps, Plan.problems_erased]
  have htimeouts : steps.map (·.timeoutMs) = steps'.map (·.timeoutMs) := by
    have hmap := congrArg (List.map Step.timeoutMs) hsteps
    rw [List.map_map, List.map_map] at hmap
    exact hmap
  dsimp only
  rw [hlength, hcost, hproblems, htimeouts]
  refine (Audit.rel_entry _ _ _ _).bind ?_
  intro generation generation' hgeneration
  refine (Rel.ofExcept_refl _).bind ?_
  rintro cost _ rfl
  refine (Audit.rel_entry _ _ _ _).bind ?_
  intro completion completion' hcompletion
  refine Rel.freshId.bind ?_
  intro id id' _
  refine Rel.readClock.bind ?_
  intro time time' _
  cases Plan.problems steps' with
  | cons problem problems => exact Rel.throw _
  | nil =>
      refine (Rel.noteAll _ _).bind ?_
      intro _ _ _
      refine Rel.pure ?_
      simp [Plan.erased, hsteps, hselection, hgeneration, hcompletion]

/-! ## Compilations -/

namespace Compiler

section

variable {c : Compiler} {registry : Registry} {catalog : Catalog} {prices : Estimate.PriceList}
variable (hplanner : c.planner = .standard registry catalog prices) (hcatalog : catalog.IsDiscreet)

include hplanner hcatalog

theorem rel_planIntent {r r' : Compilation} (hr : r.erased = r'.erased) {i j : Intent}
    (h : i.erased = j.erased) :
    Rel R (fun a b => a.erased = b.erased) (c.planIntent r i) (c.planIntent r' j) := by
  rw [planIntent, planIntent, hplanner]
  refine (Planner.rel_standard registry hcatalog prices h).attempt.bind ?_
  rintro plan plan' (hplan | (e | e))
  · refine Rel.pure ?_
    simp only [Compilation.erased_advance, Compilation.erased_withPlan, hr, hplan]
  · refine (Rel.noteAll _ _).bind ?_
    intro _ _ _
    refine Rel.pure ?_
    simp only [Compilation.erased_fail, hr]
  · exact Rel.throw e

theorem rel_checkAndPlan {r r' : Compilation} (hr : r.erased = r'.erased) {i j : Intent}
    (h : i.erased = j.erased) :
    Rel R (fun a b => a.erased = b.erased) (c.checkAndPlan r i) (c.checkAndPlan r' j) := by
  have hcomplaints :
      i.complaints c.config.maxComplexity = j.complaints c.config.maxComplexity := by
    rw [← Intent.complaints_erased, h, Intent.complaints_erased]
  have hcheck : Rel (ε := Breakdown) R Eq (i.check c.config.maxComplexity)
      (j.check c.config.maxComplexity) := by
    refine (Rel.noteAll _ _).bind ?_
    intro _ _ _
    exact Rel.pure hcomplaints
  refine hcheck.bind ?_
  rintro complaints _ rfl
  have hr' : ({ r with complaints } : Compilation).erased =
      ({ r' with complaints } : Compilation).erased :=
    congrArg (fun r : Compilation => { r with complaints }) hr
  split
  · refine Rel.pure ?_
    rw [Compilation.erased_fail, hr', Compilation.erased_fail]
  · refine rel_planIntent hplanner hcatalog ?_ h
    rw [Compilation.erased_advance, hr', Compilation.erased_advance]

theorem rel_compile (source : String) :
    Rel R (fun a b => a.erased = b.erased) (c.compile source) (c.compile source) := by
  rw [compile]
  refine (Token.rel_tokenize _ _).attempt.bind ?_
  rintro _ _ (⟨rfl⟩ | e)
  swap
  · exact Rel.pure rfl
  refine (Declaration.rel_parse _).attempt.bind ?_
  rintro _ _ (⟨rfl⟩ | e)
  swap
  · exact Rel.pure rfl
  refine (Intent.rel_ofNode _).attempt.bind ?_
  rintro _ _ (hintent | e)
  swap
  · exact Rel.pure rfl
  have hlines := Intent.erased_withLines hintent source
  refine rel_checkAndPlan hplanner hcatalog ?_ hlines
  simp only [Compilation.erased_advance, Compilation.erased_withIntent, hlines]

end

/-- The plan of a compilation is one that its planner made. -/
theorem exists_outcome_planner {c : Compiler} {source : String} {s : Session} {r : Compilation}
    {p : Plan} (h : ((c.compile source).outcome s).1 = .ok r) (hplan : r.plan? = some p) :
    ∃ i t t', (c.planner i).outcome t = (.ok p, t') := by
  obtain ⟨i, s₁, s₂, -, -, -, hplanned⟩ := (course_of_outcome (Prod.ext h rfl)).of_plan? hplan
  exact ⟨i, _, s₂, hplanned⟩

end Compiler

/-! ## Costs that equal themselves

A cost that is not a number would differ from itself.  The kinds of the steps that the library makes
for a strategy are fixed, and so are their costs, which are numbers. -/

namespace Planner

/-- The kinds of the steps that the library makes for a strategy, by their names. -/
def kindNames (strategy : Strategy) : List String :=
  "validate" :: match strategy with
    | .crudGeneration => ["generate_code", "create_resource", "generate_code", "deploy"]
    | .apiOrchestration => ["api_call"]
    | .dataPipeline => ["transform_data"]
    | .mlWorkflow => ["train_model"]
    | .customExecution => ["execute_query"]

theorem map_kindName_of_steps {i : Intent} {strategy : Strategy} {steps : List Step}
    (h : Catalog.builtin.steps i strategy.name = .ok steps) :
    steps.map (·.kind.name) = kindNames strategy := by
  cases strategy <;> (cases h; rfl)

theorem cost_beq_self (strategy : Strategy) :
    ((Estimate.cost Estimate.standardPrices (kindNames strategy)
      (Estimate.resources (kindNames strategy).length)).toOption.all fun x => x == x) = true := by
  cases strategy <;> decide +kernel

theorem cost_beq_self_of_outcome_standard {registry : Registry} {i : Intent} {s s' : Session}
    {plan : Plan}
    (h : (standard registry .builtin Estimate.standardPrices i).outcome s = (.ok plan, s')) :
    (plan.cost == plan.cost) = true := by
  have hsteps := (checkedSteps_eq_ok_iff.1 (checkedSteps_of_outcome_standard h)).1
  have hkinds := map_kindName_of_steps hsteps
  have hlength : plan.steps.length = (kindNames (registry.choose i).strategy).length := by
    rw [← hkinds, List.length_map]
  have hcost := (makes_of_outcome_standard h).cost
  have hself := cost_beq_self (registry.choose i).strategy
  rw [stepCost, hkinds, hlength] at hcost
  split at hcost
  · rename_i cost heq
    cases hcost
    rw [heq] at hself
    exact hself
  · cases hcost

end Planner

/-- A signature agrees with itself exactly if its cost equals itself. -/
theorem Evaluation.Signature.agrees_self (a : Signature) : a.agrees a = (a.cost == a.cost) := by
  simp [agrees]

namespace Compiler

open Evaluation (Signature)

/-- The ids and the times of a session have no part in a compilation with discreet templates: two
runs in any two sessions fail alike, or come to compilations that are equal once ids and times are
taken out of them.  So a plan that is made again has the signature that it had.  An evaluation finds
that the two agree exactly if their cost equals itself, as it does with the templates and the prices
of the library. -/
theorem compile_erased_eq {c : Compiler} {registry : Registry} {catalog : Catalog}
    {prices : Estimate.PriceList} (hplanner : c.planner = .standard registry catalog prices)
    (hcatalog : catalog.IsDiscreet) (source : String) (s t : Session) :
    ((c.compile source).outcome s).1.map Compilation.erased =
      ((c.compile source).outcome t).1.map Compilation.erased ∧
    ∀ r r', ((c.compile source).outcome s).1 = .ok r → ((c.compile source).outcome t).1 = .ok r' →
      r.stage = r'.stage ∧ r.history = r'.history ∧ r.error? = r'.error? ∧
      r.complaints = r'.complaints ∧
      r.intent?.map Intent.erased = r'.intent?.map Intent.erased ∧
      r.plan?.map Plan.erased = r'.plan?.map Plan.erased ∧
      ∀ p p', r.plan? = some p → r'.plan? = some p' →
        Signature.ofPlan p = Signature.ofPlan p' ∧
        (Signature.ofPlan p).agrees (.ofPlan p') = (p.cost == p.cost) ∧
        (catalog = .builtin → prices = Estimate.standardPrices →
          (Signature.ofPlan p).agrees (.ofPlan p') = true) := by
  have hrel : Rel (fun _ _ => True) _ (c.compile source) (c.compile source) :=
    rel_compile hplanner hcatalog source
  have halike := (hrel s t trivial).1
  refine ⟨halike.map_eq, ?_⟩
  intro r r' hr hr'
  rw [hr, hr'] at halike
  obtain ⟨herased⟩ := halike
  obtain ⟨hstage, hhistory, hintent, hcomplaints, hplan, herror⟩ := Compilation.mk.inj herased
  refine ⟨hstage, hhistory, herror, hcomplaints, hintent, hplan, ?_⟩
  intro p p' hp hp'
  rw [hp, hp'] at hplan
  have hsignature : Signature.ofPlan p = Signature.ofPlan p' := by
    rw [← Signature.ofPlan_erased, Option.some.inj hplan, Signature.ofPlan_erased]
  have hagrees : (Signature.ofPlan p).agrees (.ofPlan p') = (p.cost == p.cost) := by
    rw [← hsignature, Signature.agrees_self]
    rfl
  refine ⟨hsignature, hagrees, ?_⟩
  rintro rfl rfl
  obtain ⟨i, s₁, s₂, hplanned⟩ := exists_outcome_planner hr hp
  rw [hplanner] at hplanned
  rw [hagrees]
  exact Planner.cost_beq_self_of_outcome_standard hplanned

/-- A template of one's own among those of the library, and two sessions that share neither a time
nor an id. -/
theorem compile_erased_eq_relay :
    let catalog : Catalog :=
      ("custom_execution", Template.ofSpecs [⟨0, "deploy", "relay", [], ["step_0"]⟩]) ::
        Catalog.builtin
    let c : Compiler := { planner := .standard .default catalog Estimate.standardPrices }
    let source := "intent relay \x7b goal: 'pass it on' \x7d"
    let s : Session := ⟨.constant ⟨0⟩, .constant "a", .constant 0.0, [], {}, ""⟩
    let t : Session := ⟨.constant ⟨7⟩, .constant "b", .constant 0.0, [], {}, ""⟩
    catalog.IsDiscreet ∧
      ((c.compile source).outcome s).1.toOption.map Compilation.stage = some .planned ∧
      ((c.compile source).outcome s).1.map Compilation.erased =
        ((c.compile source).outcome t).1.map Compilation.erased := by
  intro catalog c source s t
  have hcatalog : catalog.IsDiscreet :=
    List.forall_mem_cons.2 ⟨Template.isDiscreet_ofSpecs _, Catalog.isDiscreet_builtin⟩
  refine ⟨hcatalog, by decide +kernel, ?_⟩
  exact (compile_erased_eq (c := c) rfl hcatalog source s t).1

/-- It is not enough that no template looks at the id.  Here the one step names the time at which
the intent was parsed, and two sessions whose clocks differ come to plans with different actions.
And a price that is not a number makes a cost that differs from itself, so that the plan disagrees
with every plan that is made again. -/
theorem compile_erased_ne_stamped :
    let stamped : Template := fun i start =>
      .ok [Step.make start .executeQuery ("run_at_" ++ i.parsedAt.iso) [] []]
    let c : Compiler :=
      { planner := .standard .default [("custom_execution", stamped)] Estimate.standardPrices }
    let d : Compiler :=
      { planner := .standard .default .builtin [("validate", .real (0.0 / 0.0))] }
    let source := "intent a \x7b goal: 'x' \x7d"
    let s : Session := ⟨.constant ⟨0⟩, .constant "a", .constant 0.0, [], {}, ""⟩
    let t : Session := { s with clock := .constant ⟨1⟩ }
    let planned (c : Compiler) (u : Session) : Option Plan :=
      ((c.compile source).outcome u).1.toOption.bind Compilation.plan?
    (∀ i id start, stamped { i with id := id } start = stamped i start) ∧
    ((c.compile source).outcome s).1.map Compilation.erased ≠
      ((c.compile source).outcome t).1.map Compilation.erased ∧
    ∃ p p', planned d s = some p ∧ planned d t = some p' ∧
      (Signature.ofPlan p).agrees (.ofPlan p') = false := by
  intro stamped c d source s t planned
  refine ⟨fun _ _ _ => rfl, fun heq => ?_, ?_⟩
  · let actions (x : Except Breakdown Compilation) : Option (List String) :=
      (x.toOption.bind Compilation.plan?).map fun p => p.steps.map (·.action)
    have hactions := congrArg actions heq
    revert hactions
    decide +kernel
  · have hplans : ((planned d s).bind fun p => (planned d t).map fun p' =>
        (Signature.ofPlan p).agrees (.ofPlan p')) = some false := by decide +kernel
    obtain ⟨p, hp, hplans⟩ := Option.bind_eq_some_iff.1 hplans
    obtain ⟨p', hp', hagrees⟩ := Option.map_eq_some_iff.1 hplans
    exact ⟨p, p', hp, hp', hagrees⟩

end Compiler

end IntentPlan
