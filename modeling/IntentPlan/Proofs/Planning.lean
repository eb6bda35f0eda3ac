import IntentPlan.Proofs.Composing
import IntentPlan.Proofs.Outcome
import Mathlib.Algebra.Ring.Nat

/-!
# What planning gives

The steps of a plan depend on the intent, the registry, the catalog and the prices alone, and a plan
is handed out only if its steps have a cost and are ordered (`map_steps_outcome_standard`).  With
the catalog and the prices of the library there is always a plan (`exists_outcome_standard`).
-/

namespace IntentPlan

/-! ## Costs -/

namespace Estimate

theorem lt_pow_sub_pow {n a b c : Nat} (h : n < 2 ^ a) (hab : a ≤ b) (hbc : b < c) :
    n < Nat.pow 2 c - Nat.pow 2 b := by
  have hn : n < 2 ^ b := Nat.lt_of_lt_of_le h (Nat.pow_le_pow_right (by decide) hab)
  have hdouble : 2 ^ (b + 1) ≤ 2 ^ c := Nat.pow_le_pow_right (by decide) hbc
  change n < 2 ^ c - 2 ^ b
  omega

theorem exists_toFloat_whole {n : Int} (h : n.natAbs < 2 ^ 64) :
    ∃ x, (Quantity.whole n).toFloat = .ok x := by
  have hfloat : Decimal.floatOfInt? n = some (Float.ofInt n) := by
    unfold Decimal.floatOfInt?
    -- the powers are too large to be computed
    generalize hc : 1024 = c
    generalize hb : 970 = b
    rw [if_pos (lt_pow_sub_pow h (by omega) (by omega))]
  refine ⟨Float.ofInt n, ?_⟩
  unfold Quantity.toFloat
  dsimp only
  rw [hfloat]

/-- Every kind has a price that is a float. -/
def AllPriced (prices : PriceList) : Prop :=
  ∀ kind, ∃ x, ((Assoc.get? kind prices).getD unknownPrice).toFloat = .ok x

theorem allPriced_standardPrices : AllPriced standardPrices := by
  intro kind
  cases h : Assoc.get? kind standardPrices with
  | none => exact exists_toFloat_whole (by decide)
  | some price =>
      have hmem := Assoc.mem_of_get? h
      simp only [standardPrices, List.mem_cons, Prod.mk.injEq, List.not_mem_nil, or_false] at hmem
      rcases hmem with h | h | h | h | h | h | h | h <;>
        (rw [h.2]; exact exists_toFloat_whole (by decide))

theorem exists_addSteps {prices : PriceList} (h : AllPriced prices) (cost : Float)
    (kinds : List String) : ∃ total, addSteps prices cost kinds = .ok total := by
  induction kinds generalizing cost with
  | nil => exact ⟨cost, rfl⟩
  | cons kind kinds ih =>
      obtain ⟨price, hprice⟩ := h kind
      obtain ⟨total, htotal⟩ := ih (cost + price)
      refine ⟨total, ?_⟩
      rw [addSteps, hprice]
      exact htotal

theorem exists_addResources (cost : Float) {steps : Nat} (h : steps < 2 ^ 32) :
    ∃ total, addResources cost (resources steps) = .ok total := by
  obtain ⟨compute, hcompute⟩ :=
    exists_toFloat_whole (n := (steps * 100 : Nat)) (by rw [Int.natAbs_natCast]; omega)
  obtain ⟨memory, hmemory⟩ :=
    exists_toFloat_whole (n := (steps * 128 : Nat)) (by rw [Int.natAbs_natCast]; omega)
  push_cast at hcompute hmemory
  refine ⟨cost + compute * 0.01 + memory * 0.001, ?_⟩
  simp [addResources, resources, resourceRate?, hcompute, hmemory]

end Estimate

namespace Planner

theorem exists_stepCost {prices : Estimate.PriceList} (h : Estimate.AllPriced prices)
    {steps : List Step} (hsteps : steps.length < 2 ^ 32) :
    ∃ cost, stepCost prices steps = .ok cost := by
  obtain ⟨subtotal, hsubtotal⟩ := Estimate.exists_addSteps h 0.0 (steps.map (·.kind.name))
  obtain ⟨total, htotal⟩ := Estimate.exists_addResources subtotal hsteps
  refine ⟨Decimal.roundTo 2 total, ?_⟩
  simp only [stepCost, Estimate.cost, hsubtotal, htotal]

/-! ## The planner -/

/-- The steps of a plan, if they have a cost and nothing is wrong with them. -/
def checkedSteps (registry : Registry) (catalog : Catalog) (prices : Estimate.PriceList)
    (i : Intent) : Except PlanFailure (List Step) :=
  match catalog.steps i (registry.choose i).strategy.name with
  | .error e => .error e
  | .ok steps =>
    match stepCost prices steps with
    | .error e => .error e
    | .ok _ =>
      match Plan.problems steps with
      | [] => .ok steps
      | problems => .error (.planning (.badOrder problems))

/-- Times and names have no part in the steps of a plan, nor in the failure to make one. -/
theorem map_steps_outcome_standard (registry : Registry) (catalog : Catalog)
    (prices : Estimate.PriceList) (i : Intent) (s : Session) :
    ((standard registry catalog prices i).outcome s).1.map Plan.steps =
      checkedSteps registry catalog prices i := by
  simp only [standard, checkedSteps, Registry.select, Audit.entry, Work.outcome_bind,
    Work.outcome_readClock, Work.outcome_freshId, Work.outcome_noteAll, Work.outcome_pure,
    Work.outcome_ofExcept]
  cases catalog.steps i (registry.choose i).strategy.name with
  | error e => rfl
  | ok steps =>
      dsimp only
      cases stepCost prices steps with
      | error e => rfl
      | ok cost =>
          dsimp only
          cases Plan.problems steps with
          | nil => rfl
          | cons problem problems => rfl

/-- What a plan has of the intent that it is made for, and of the prices. -/
structure Makes (prices : Estimate.PriceList) (i : Intent) (plan : Plan) : Prop where
  intentId : plan.intentId = i.id
  cost : stepCost prices plan.steps = .ok plan.cost

theorem makes_of_outcome_standard {registry : Registry} {catalog : Catalog}
    {prices : Estimate.PriceList} {i : Intent} {s s' : Session} {plan : Plan}
    (h : (standard registry catalog prices i).outcome s = (.ok plan, s')) :
    Makes prices i plan := by
  obtain ⟨⟨strategy, selection⟩, s₁, -, h⟩ := Work.outcome_bind_eq_ok_iff.1 h
  obtain ⟨steps, s₂, -, h⟩ := Work.outcome_bind_eq_ok_iff.1 h
  obtain ⟨generation, s₃, -, h⟩ := Work.outcome_bind_eq_ok_iff.1 h
  obtain ⟨cost, s₄, hcost, h⟩ := Work.outcome_bind_eq_ok_iff.1 h
  obtain ⟨completion, s₅, -, h⟩ := Work.outcome_bind_eq_ok_iff.1 h
  obtain ⟨id, s₆, -, h⟩ := Work.outcome_bind_eq_ok_iff.1 h
  obtain ⟨time, s₇, -, h⟩ := Work.outcome_bind_eq_ok_iff.1 h
  split at h
  · obtain ⟨_, s₈, -, h⟩ := Work.outcome_bind_eq_ok_iff.1 h
    cases h
    exact ⟨rfl, congrArg Prod.fst hcost⟩
  · cases h

theorem checkedSteps_of_outcome_standard {registry : Registry} {catalog : Catalog}
    {prices : Estimate.PriceList} {i : Intent} {s s' : Session} {plan : Plan}
    (h : (standard registry catalog prices i).outcome s = (.ok plan, s')) :
    checkedSteps registry catalog prices i = .ok plan.steps := by
  rw [← map_steps_outcome_standard registry catalog prices i s, h]
  rfl

theorem exists_outcome_of_checkedSteps {registry : Registry} {catalog : Catalog}
    {prices : Estimate.PriceList} {i : Intent} {steps : List Step}
    (h : checkedSteps registry catalog prices i = .ok steps) (s : Session) :
    ∃ plan s', (standard registry catalog prices i).outcome s = (.ok plan, s') ∧
      plan.steps = steps := by
  rw [← map_steps_outcome_standard registry catalog prices i s] at h
  rcases hresult : (standard registry catalog prices i).outcome s with ⟨result, s'⟩
  rw [hresult] at h
  cases result with
  | error e => cases h
  | ok plan => exact ⟨plan, s', rfl, Except.ok.inj h⟩

theorem checkedSteps_eq_ok_iff {registry : Registry} {catalog : Catalog}
    {prices : Estimate.PriceList} {i : Intent} {steps : List Step} :
    checkedSteps registry catalog prices i = .ok steps ↔
      catalog.steps i (registry.choose i).strategy.name = .ok steps ∧
      (∃ cost, stepCost prices steps = .ok cost) ∧ Plan.Ordered steps := by
  rw [checkedSteps]
  cases catalog.steps i (registry.choose i).strategy.name with
  | error e => simp
  | ok found =>
      cases hcost : stepCost prices found with
      | error e => grind
      | ok cost =>
          cases hproblems : Plan.problems found with
          | nil => grind [Plan.problems_eq_nil_iff]
          | cons problem problems => grind [Plan.problems_eq_nil_iff]

/-- A plan that is handed out has ordered steps. -/
theorem ordered_of_outcome_standard {registry : Registry} {catalog : Catalog}
    {prices : Estimate.PriceList} {i : Intent} {s s' : Session} {plan : Plan}
    (h : (standard registry catalog prices i).outcome s = (.ok plan, s')) :
    Plan.Ordered plan.steps :=
  (checkedSteps_eq_ok_iff.1 (checkedSteps_of_outcome_standard h)).2.2

/-- The catalog of the library has a template for every strategy. -/
theorem steps_builtin (i : Intent) (strategy : Strategy) :
    ∃ steps, Catalog.builtin.steps i strategy.name = .ok steps ∧ Plan.Ordered steps ∧
      steps.length ≤ 5 := by
  refine ⟨Catalog.firstStep i :: Template.builtin strategy i 1, ?_,
    (Template.continues_builtin strategy i Nat.one_pos).ordered, ?_⟩
  · cases strategy <;> rfl
  · cases strategy <;> simp [Template.builtin, Template.crud, Template.single]

/-- With the catalog and the prices of the library every intent has a plan. -/
theorem exists_outcome_standard (registry : Registry) (i : Intent) (s : Session) :
    ∃ plan s', (standard registry .builtin Estimate.standardPrices i).outcome s =
      (.ok plan, s') := by
  obtain ⟨steps, hsteps, hordered, hlength⟩ := steps_builtin i (registry.choose i).strategy
  have hlength' : steps.length < 2 ^ 32 := by omega
  have hcost := exists_stepCost Estimate.allPriced_standardPrices hlength'
  obtain ⟨plan, s', hplan, -⟩ :=
    exists_outcome_of_checkedSteps (checkedSteps_eq_ok_iff.2 ⟨hsteps, hcost, hordered⟩) s
  exact ⟨plan, s', hplan⟩

end Planner

end IntentPlan
