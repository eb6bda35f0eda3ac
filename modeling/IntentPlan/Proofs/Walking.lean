import IntentPlan.Proofs.Planning
import IntentPlan.Proofs.Scheduling

/-!
# Walking through a plan

A walk through a plan with ordered steps takes every step once, and no step before the ones it
depends on (`exists_walk`).  It takes its schedule, and nothing is left of ordered steps, because
their dependencies lead neither into a circle nor to an id that is missing.
-/

namespace IntentPlan.Plan.Walk

/-- A step of a plan is written with all that a walk looks for. -/
def Job.ofStep (s : Step) : Job where
  body := s.toDatum
  id := s.id
  order := s.order
  dependencies := s.dependencies
  kind := .str s.kind.name
  action := .str s.action
  timeout := .int s.timeoutMs
  policy := .map [
    ("max_attempts", .int s.retry.maxAttempts),
    ("backoff_ms", .int s.retry.backoffMs),
    ("backoff_multiplier", .int s.retry.backoffMultiplier)]
  attempts := .int s.retry.maxAttempts
  field_id := rfl
  field_order := rfl
  field_dependencies := rfl
  field_kind := rfl
  field_action := rfl
  field_timeout := rfl
  field_policy := rfl
  field_attempts := rfl

theorem map_id_ofStep (steps : List Step) :
    (steps.map Job.ofStep).map Job.id = steps.map Step.id := by
  rw [List.map_map]
  rfl

theorem holds_toDatum (p : Plan) : Holds p.toDatum (p.steps.map Job.ofStep) := by
  refine ⟨some (.list (p.steps.map Step.toDatum)), rfl, ?_⟩
  rw [List.map_map]
  rfl

theorem needs_ofStep (steps : List Step) : Needs (steps.map Job.ofStep) = Depends steps := by
  funext id dependency
  simp [Needs, Depends, Job.ofStep]

/-- Ordered steps can all be satisfied. -/
theorem satisfiable_of_ordered {steps : List Step} (h : Ordered steps) {id : String}
    (hid : id ∈ steps.map Step.id) : Satisfiable (steps.map Job.ofStep) id := by
  refine satisfiable_of_forall fun x hx => ?_
  rw [needs_ofStep] at hx ⊢
  rw [map_id_ofStep]
  refine ⟨h.acyclic x, ?_⟩
  induction hx with
  | refl => exact hid
  | tail _ hd _ =>
      obtain ⟨s, hs, -, hmem⟩ := hd
      obtain ⟨t, ht, htid, -⟩ := h.earlier s hs _ hmem
      exact List.mem_map.2 ⟨t, ht, htid⟩

/-- What is done and what is pending are together all steps, and what is done stands behind what it
depends on. -/
structure Progress (steps : List Step) (done : List String) (pending : List Step) : Prop where
  perm : (done ++ pending.map Step.id).Perm (steps.map Step.id)
  behind : ∀ s ∈ steps, s.id ∈ done → ∀ d ∈ s.dependencies, done.idxOf d < done.idxOf s.id

theorem Progress.of_schedule {steps pending : List Step} {taken : List Job}
    (hsteps : (steps.map Step.id).Nodup)
    (h : Schedule (steps.map Job.ofStep) taken (pending.map Job.ofStep)) :
    Progress steps (taken.map Job.id) pending := by
  rw [← map_id_ofStep] at hsteps
  constructor
  · have hperm := (h.perm hsteps).map Job.id
    rwa [List.map_append, map_id_ofStep, map_id_ofStep] at hperm
  · intro s hs hdone d hd
    obtain ⟨j, hj, hid⟩ := List.mem_map.1 hdone
    have hmem : Job.ofStep s ∈ steps.map Job.ofStep := List.mem_map_of_mem hs
    obtain rfl := eq_of_id hsteps ((h.mem_taken j).1 hj).1 hmem hid
    exact h.behind hsteps hj hd

/-- A walk through ordered steps takes all of them, and each behind those that it depends on. -/
theorem exists_walk {p : Plan} (h : Ordered p.steps) :
    ∃ ids : List String, Progress p.steps ids [] ∧ ∀ s, ∃ s',
      (walk p.toDatum).outcome s = (.ok (ids.map .str), s') := by
  have hdistinct : ((p.steps.map Job.ofStep).map Job.id).Nodup := by
    rw [map_id_ofStep]
    exact h.nodup
  obtain ⟨taken, left, hschedule, hwalk⟩ := exists_schedule (holds_toDatum p)
  rw [latest_of_nodup hdistinct] at hschedule
  obtain rfl : left = [] := hschedule.left_eq_nil_iff.2 fun j hj =>
    satisfiable_of_ordered h (map_id_ofStep p.steps ▸ List.mem_map_of_mem hj)
  exact ⟨taken.map Job.id, .of_schedule h.nodup hschedule, fun s => ⟨_, hwalk s⟩⟩

end IntentPlan.Plan.Walk

namespace IntentPlan.Planner

open Plan.Walk

/-- Every plan that is handed out can be carried out, whatever the rules, templates and prices are.
Its ids are different, its steps do not depend on each other in a circle, and a walk through it, or
through a file that holds it, takes every step once and behind all those that it depends on. -/
theorem walk_of_outcome_standard {registry : Registry} {catalog : Catalog}
    {prices : Estimate.PriceList} {i : Intent} {s s' : Session} {plan : Plan}
    (h : (standard registry catalog prices i).outcome s = (.ok plan, s')) :
    (plan.steps.map Step.id).Nodup ∧
    (∀ id, ¬Relation.TransGen (Plan.Depends plan.steps) id id) ∧
    ∃ ids : List String, ids.Perm (plan.steps.map Step.id) ∧
      (∀ step ∈ plan.steps, ∀ dependency ∈ step.dependencies,
        ids.idxOf dependency < ids.idxOf step.id) ∧
      ∀ session, (∃ session', (walk plan.toDatum).outcome session =
          (.ok (ids.map .str), session')) ∧
        ∀ text, Json.read text = .ok plan.toDatum →
          ∃ session', (run text).outcome session = (.ok (ids.map .str), session') := by
  have hordered := ordered_of_outcome_standard h
  obtain ⟨ids, hids, hwalk⟩ := exists_walk hordered
  have hperm : ids.Perm (plan.steps.map Step.id) := by
    have := hids.perm
    rwa [List.map_nil, List.append_nil] at this
  refine ⟨hordered.nodup, hordered.acyclic, ids, hperm, ?_, ?_⟩
  · intro step hstep
    exact hids.behind step hstep (hperm.mem_iff.2 (List.mem_map_of_mem hstep))
  · intro session
    refine ⟨hwalk session, fun text htext => ?_⟩
    rw [outcome_run htext]
    exact hwalk session

/-- Steps that stand before the ones they need, with kinds of their own and with places that are
equal or negative. -/
def scatteredSteps : List Step := [
  { id := "publish", order := 9, kind := .deploy, action := "publish",
    dependencies := ["left", "right"] },
  { id := "left", order := 5, kind := .other "branch", action := "left",
    dependencies := ["load", "step_0"] },
  { id := "right", order := 5, kind := .other "branch", action := "right",
    dependencies := ["load"] },
  { id := "load", order := -3, kind := .apiCall, action := "load" }]

def scatteredCatalog : Catalog := [("custom_execution", fun _ _ => .ok scatteredSteps)]

def scatteredIntent : Intent where
  id := "intent_1"
  name := "Publish"
  goal := none
  capabilities := []
  constraints := []
  successCriteria := none
  architecture := none
  parsedAt := ⟨0⟩
  lineCount := 1
  complexity := 0

def scatteredSession : Session where
  clock := .constant ⟨0⟩
  ids := .constant "0"
  stopwatch := .constant 0

theorem checkedSteps_scattered : checkedSteps ⟨[], List.nodup_nil⟩ scatteredCatalog []
    scatteredIntent = .ok (Step.make 0 .validate "validate_intent"
      [("intent_id", .str "intent_1")] [] :: scatteredSteps) := by
  have hchoice (i : Intent) : (Registry.choose ⟨[], List.nodup_nil⟩ i).strategy =
      .customExecution := by
    rw [Registry.choose, Registry.applicable, List.filter_nil, List.mergeSort_nil]
    rfl
  have hpriced : Estimate.AllPriced [] := fun _ => Estimate.exists_toFloat_whole (by decide)
  refine checkedSteps_eq_ok_iff.2 ⟨?_, exists_stepCost hpriced (by decide), ?_, ?_⟩
  · rw [hchoice]
    rfl
  · decide
  · have hid : Step.idAt 0 = "step_0" := by decide
    simp [scatteredSteps, Step.make, hid]

theorem walk_of_outcome_standard_scattered :
    ∃ plan s', (standard ⟨[], List.nodup_nil⟩ scatteredCatalog [] scatteredIntent).outcome
        scatteredSession = (.ok plan, s') ∧
      (∀ id, ¬Relation.TransGen (Plan.Depends plan.steps) id id) ∧
      ∃ ids : List String, ids.Perm ["step_0", "publish", "left", "right", "load"] ∧
        ids.idxOf "load" < ids.idxOf "left" ∧ ids.idxOf "left" < ids.idxOf "publish" ∧
        ∃ session', (walk plan.toDatum).outcome scatteredSession =
          (.ok (ids.map .str), session') := by
  obtain ⟨plan, s', hplan, hsteps⟩ :=
    exists_outcome_of_checkedSteps checkedSteps_scattered scatteredSession
  obtain ⟨-, hacyclic, ids, hperm, hbehind, hwalk⟩ := walk_of_outcome_standard hplan
  refine ⟨plan, s', hplan, hacyclic, ids, ?_, ?_, ?_, (hwalk scatteredSession).1⟩
  · rw [hsteps] at hperm
    exact hperm
  · rw [hsteps] at hbehind
    exact hbehind scatteredSteps[1] (by simp [scatteredSteps]) "load" (by decide)
  · rw [hsteps] at hbehind
    exact hbehind scatteredSteps[0] (by simp [scatteredSteps]) "left" (by decide)

end IntentPlan.Planner
