import IntentPlan.Proofs.Ordering

/-!
# Two checks of dependencies

The check of a plan lists all that is wrong with its steps, and an evaluation only asks whether the
dependencies are in order.  Both go by the last step with an id (`get?_orders`), so that one
complains about a dependency where the other refuses it (`countP_messages`).  A plan hands out the
first step with an id; that is the same step wherever the check finds nothing
(`Ordered.exists_step?`).
-/

namespace IntentPlan.Plan

/-! ## Dependencies one by one -/

/-- Each step with each of its dependencies, as often as the step names it. -/
def links (steps : List Step) : List (Step × String) :=
  steps.flatMap fun s => s.dependencies.map fun dependency => (s, dependency)

/-- There are steps with the id of the dependency, and the last of them has an earlier place. -/
def resolves (steps : List Step) (link : Step × String) : Bool :=
  (step? steps.reverse link.2).any fun t => decide (t.order < link.1.order)

theorem get?_places (steps : List Step) (id : String) :
    Assoc.get? id (steps.map fun s => (s.id, s.order)) = (step? steps id).map Step.order := by
  induction steps with
  | nil => rfl
  | cons s steps ih =>
      rw [List.map_cons, Assoc.get?, ih]
      by_cases h : s.id = id
      · simp [step?, h]
      · simp [step?, h]

theorem get?_orders (steps : List Step) (id : String) :
    Assoc.get? id (orders steps) = (step? steps.reverse id).map Step.order := by
  rw [orders, Assoc.get?_ofList, ← List.map_reverse, get?_places]

theorem dependenciesOk_eq_all (steps : List Step) :
    dependenciesOk steps = (links steps).all (resolves steps) := by
  simp only [dependenciesOk, links, List.all_flatMap, List.all_map, get?_orders, Option.any_map]
  rfl

/-- There is something wrong with a dependency exactly if it is not resolved. -/
theorem isSome_dependencyProblem? (steps : List Step) (link : Step × String) :
    (dependencyProblem? (orders steps) link.1 link.2).isSome = !resolves steps link := by
  rw [dependencyProblem?, get?_orders, resolves]
  cases step? steps.reverse link.2 with
  | none => rfl
  | some t =>
      by_cases h : link.1.order ≤ t.order
      · simp [h]
      · simp [h, Int.not_le.1 h]

/-! ## What the check of a plan says -/

theorem problems_eq (steps : List Step) :
    problems steps = (if (steps.map Step.id).Nodup then [] else [.duplicateIds]) ++
      (links steps).filterMap fun link => dependencyProblem? (orders steps) link.1 link.2 := by
  have hlinks : ((links steps).filterMap fun link =>
      dependencyProblem? (orders steps) link.1 link.2) =
      steps.flatMap fun s => s.dependencies.filterMap (dependencyProblem? (orders steps) s) := by
    simp only [links, List.filterMap_flatMap, List.filterMap_map, Function.comp_def]
  rw [problems, hlinks]
  by_cases h : (steps.map Step.id).Nodup
  · simp [h, length_orders_eq_iff.2 h]
  · simp [h, mt length_orders_eq_iff.1 h]

/-- No complaint about a dependency reads like the one about ids: it holds a `w`. -/
theorem message_ne_of_dependencyProblem? {orders : Assoc Int} {s : Step} {dependency : String}
    {problem : Problem} (h : dependencyProblem? orders s dependency = some problem) :
    problem.message ≠ Problem.duplicateIds.message := by
  have hw : 'w' ∈ problem.message.toList := by
    rw [dependencyProblem?] at h
    split at h
    · obtain rfl := Option.some.inj h
      simp only [Problem.message, String.toList_append, List.mem_append]
      exact .inl (.inr (by decide))
    · split at h
      · obtain rfl := Option.some.inj h
        simp only [Problem.message, String.toList_append, List.mem_append]
        exact .inr (by decide)
      · cases h
  intro heq
  rw [heq] at hw
  exact absurd hw (by decide)

/-- There are as many complaints about dependencies as there are dependencies that are not
resolved. -/
theorem countP_messages (steps : List Step) :
    ((problems steps).map Problem.message).countP (· != Problem.duplicateIds.message) =
      (links steps).countP fun link => !resolves steps link := by
  have hids : ((if (steps.map Step.id).Nodup then [] else [Problem.duplicateIds]).map
      Problem.message).countP (· != Problem.duplicateIds.message) = 0 := by
    split <;> simp
  have hlinks : ∀ message ∈ ((links steps).filterMap fun link =>
      dependencyProblem? (orders steps) link.1 link.2).map Problem.message,
      (message != Problem.duplicateIds.message) = true := by
    intro message hmessage
    obtain ⟨problem, hproblem, rfl⟩ := List.mem_map.1 hmessage
    obtain ⟨link, -, hlink⟩ := List.mem_filterMap.1 hproblem
    simpa using message_ne_of_dependencyProblem? hlink
  rw [problems_eq, List.map_append, List.countP_append, hids, List.countP_eq_length.2 hlinks,
    List.length_map, List.length_filterMap_eq_countP, Nat.zero_add]
  simp only [isSome_dependencyProblem?]

/-! ## Where nothing is wrong -/

theorem problems_eq_nil_iff_ok (steps : List Step) :
    problems steps = [] ↔ (steps.map Step.id).Nodup ∧ dependenciesOk steps = true := by
  rw [problems_eq, List.append_eq_nil_iff, List.filterMap_eq_nil_iff, dependenciesOk_eq_all,
    List.all_eq_true]
  have hnone (link : Step × String) :
      dependencyProblem? (orders steps) link.1 link.2 = none ↔ resolves steps link = true := by
    rw [← Option.isNone_iff_eq_none, ← Option.not_isSome, isSome_dependencyProblem?, Bool.not_not]
  simp only [hnone]
  by_cases h : (steps.map Step.id).Nodup <;> simp [h]

/-- A plan in order hands out an earlier step for every dependency. -/
theorem Ordered.exists_step? {steps : List Step} (h : Ordered steps) {s : Step} (hs : s ∈ steps)
    {dependency : String} (hd : dependency ∈ s.dependencies) :
    ∃ t, step? steps dependency = some t ∧ t.order < s.order := by
  obtain ⟨t, ht, hid, hlt⟩ := h.earlier s hs dependency hd
  have hfound : (step? steps dependency).isSome = true :=
    List.find?_isSome.2 ⟨t, ht, beq_iff_eq.2 hid⟩
  obtain ⟨t', ht'⟩ := Option.isSome_iff_exists.1 hfound
  have hid' : t'.id = dependency := by
    simpa using List.find?_some ht'
  obtain rfl := h.eq_of_id (List.mem_of_find?_eq_some ht') ht (hid'.trans hid.symm)
  exact ⟨t', ht', hlt⟩

theorem Ordered.perm {steps steps' : List Step} (h : Ordered steps) (hperm : steps.Perm steps') :
    Ordered steps' := by
  constructor
  · exact (hperm.map Step.id).nodup h.nodup
  · intro s hs dependency hd
    obtain ⟨t, ht, hid, hlt⟩ := h.earlier s (hperm.mem_iff.2 hs) dependency hd
    exact ⟨t, hperm.mem_iff.1 ht, hid, hlt⟩

/-- The check of a plan finds nothing wrong exactly if the ids of the steps are different and every
dependency is the id of a step with an earlier place, and then the evaluation finds the dependencies
in order as well.  Apart from the ids it complains once for each dependency that the evaluation
refuses.  Where it finds nothing the plan hands out an earlier step for every dependency, and in
whatever order the steps stand, it finds nothing in all orders or in none. -/
theorem checks_agree (steps : List Step) :
    (problems steps = [] ↔ (steps.map Step.id).Nodup ∧
      ∀ s ∈ steps, ∀ dependency ∈ s.dependencies,
        ∃ t ∈ steps, t.id = dependency ∧ t.order < s.order) ∧
    (problems steps = [] ↔ (steps.map Step.id).Nodup ∧ dependenciesOk steps = true) ∧
    dependenciesOk steps = (links steps).all (resolves steps) ∧
    ((problems steps).map Problem.message).countP (· != Problem.duplicateIds.message) =
      (links steps).countP (fun link => !resolves steps link) ∧
    (problems steps = [] → ∀ s ∈ steps, ∀ dependency ∈ s.dependencies,
      ∃ t, step? steps dependency = some t ∧ t.order < s.order) ∧
    ∀ steps', steps.Perm steps' → (problems steps' = [] ↔ problems steps = []) := by
  refine ⟨?_, problems_eq_nil_iff_ok steps, dependenciesOk_eq_all steps, countP_messages steps,
    ?_, ?_⟩
  · rw [problems_eq_nil_iff]
    exact ⟨fun h => ⟨h.nodup, h.earlier⟩, fun h => ⟨h.1, h.2⟩⟩
  · intro hnil s hs dependency hd
    exact (problems_eq_nil_iff.1 hnil).exists_step? hs hd
  · intro steps' hperm
    rw [problems_eq_nil_iff, problems_eq_nil_iff]
    exact ⟨fun h => h.perm hperm.symm, fun h => h.perm hperm⟩

-- of two steps with one id the checks go by the last one, and the plan hands out the first
example :
    let steps : List Step := [
      { id := "a", order := 5, kind := .deploy, action := "" },
      { id := "b", order := 3, kind := .deploy, action := "", dependencies := ["a"] },
      { id := "a", order := 1, kind := .deploy, action := "" }]
    dependenciesOk steps = true ∧ problems steps = [.duplicateIds] ∧
      (step? steps "a").map Step.order = some 5 := by
  decide +kernel

end IntentPlan.Plan
