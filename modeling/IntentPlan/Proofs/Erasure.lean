import IntentPlan.Evaluation
import IntentPlan.Proofs.Assoc
import IntentPlan.Proofs.Coupling

/-!
# What is left without ids and times

The ids and the times that a run is given show in an intent, in the steps that name it, in the
entries of an audit, in a plan and in a compilation.  `erased` takes them out of each of these.  The
choice of a strategy, the cost of steps and their order look at nothing but what is left
(`Registry.choose_erased`, `Planner.stepCost_erased`, `Plan.problems_erased`).  A template is free
to look at more; one that does not is called discreet, and those of the library are
(`Catalog.isDiscreet_builtin`).
-/

namespace IntentPlan

/-! ## Intents -/

namespace Intent

/-- The intent without its id and the time of its parsing. -/
def erased (i : Intent) : Intent := { i with id := "", parsedAt := ⟨0⟩ }

theorem eq_of_erased_eq {i j : Intent} (h : i.erased = j.erased) :
    j = { i with id := j.id, parsedAt := j.parsedAt } := by
  cases i
  cases j
  cases h
  rfl

theorem erased_withLines {i j : Intent} (h : i.erased = j.erased) (source : String) :
    (i.withLines source).erased = (j.withLines source).erased := by
  rw [eq_of_erased_eq h]
  rfl

theorem complaints_erased (limit : Int) (i : Intent) :
    i.erased.complaints limit = i.complaints limit := rfl

end Intent

namespace Condition

mutual

theorem holds_erased (i : Intent) : ∀ c : Condition, c.holds i.erased = c.holds i
  | .search test terms => by
      cases test <;> rfl
  | .anyOf conditions => holdsSome_erased i conditions

theorem holdsSome_erased (i : Intent) :
    ∀ cs : List Condition, holdsSome i.erased cs = holdsSome i cs
  | [] => rfl
  | c :: cs => by rw [holdsSome, holdsSome, holds_erased i c, holdsSome_erased i cs]

end

end Condition

theorem Registry.choose_erased (r : Registry) (i : Intent) : r.choose i.erased = r.choose i := by
  simp only [choose, applicable, Condition.holds_erased]

/-! ## Steps -/

/-- The parameters without the id of the intent that they name. -/
def Step.withoutIds (fields : Assoc Frozen) : Assoc Frozen :=
  fields.map fun (key, f) => (key, if key = "intent_id" then .null else f)

/-- The step without the id of its intent. -/
def Step.erased (s : Step) : Step := { s with parameters := withoutIds s.parameters }

namespace Step

theorem withoutIds_put (key : String) (f : Frozen) (fields : Assoc Frozen) :
    withoutIds (Assoc.put key f fields) =
      Assoc.put key (if key = "intent_id" then .null else f) (withoutIds fields) := by
  induction fields with
  | nil => rfl
  | cons p rest ih =>
      obtain ⟨k, v⟩ := p
      by_cases hk : k = key
      · simp [withoutIds, Assoc.put, hk]
      · simp only [withoutIds, Assoc.put, if_neg hk, List.map_cons] at ih ⊢
        rw [ih]

theorem withoutIds_ofList (pairs : List (String × Frozen)) :
    withoutIds (Assoc.ofList pairs) = Assoc.ofList (withoutIds pairs) := by
  induction pairs using List.reverseRecOn with
  | nil => rfl
  | append_singleton pairs p ih =>
      rw [Assoc.ofList_concat, withoutIds_put, ih]
      simp [withoutIds, Assoc.ofList_concat]

/-- Parameters that differ in an id only make the same step but for it. -/
theorem erased_make (order : Int) (kind : StepKind) (action : String) {fields fields' : Assoc Datum}
    (h : withoutIds (Datum.freezeFields fields) = withoutIds (Datum.freezeFields fields'))
    (dependencies : List String) :
    (make order kind action fields dependencies).erased =
      (make order kind action fields' dependencies).erased := by
  simp only [make, erased, Assoc.freeze, withoutIds_ofList, h]

end Step

theorem Planner.stepCost_erased (prices : Estimate.PriceList) (steps : List Step) :
    stepCost prices (steps.map Step.erased) = stepCost prices steps := by
  simp only [stepCost, List.map_map, List.length_map]
  rfl

theorem Plan.problems_erased (steps : List Step) :
    problems (steps.map Step.erased) = problems steps := by
  simp only [problems, orders, List.map_map, List.length_map, List.flatMap_map]
  rfl

/-! ## Templates -/

/-- Of the id and the time of an intent the steps of the template show at most the id, as the
parameter `intent_id`.  Both have to be kept out: a template that does not look at the id but shows
the time lets the clock into every plan. -/
def Template.IsDiscreet (t : Template) : Prop :=
  ∀ i j start, i.erased = j.erased →
    Work.Alike (fun a b => a.map Step.erased = b.map Step.erased) (t i start) (t j start)

def Catalog.IsDiscreet (catalog : Catalog) : Prop := ∀ entry ∈ catalog, entry.2.IsDiscreet

theorem Template.erased_builtin (strategy : Strategy) {i j : Intent} (h : i.erased = j.erased)
    (start : Int) :
    (builtin strategy i start).map Step.erased = (builtin strategy j start).map Step.erased := by
  rw [Intent.eq_of_erased_eq h]
  cases strategy with
  | customExecution => exact congrArg (fun s => [s]) (Step.erased_make _ _ _ rfl _)
  | crudGeneration => rfl
  | apiOrchestration => rfl
  | dataPipeline => rfl
  | mlWorkflow => rfl

/-- A template that looks at neither the id nor the time is discreet. -/
theorem Template.isDiscreet_of_erased {t : Template}
    (h : ∀ i start, t i.erased start = t i start) : t.IsDiscreet := by
  intro i j start hij
  rw [← h i, hij, h j]
  apply Work.Alike.refl
  intro steps
  rfl

theorem Template.isDiscreet_ofSpecs (specs : List StepSpec) : (ofSpecs specs).IsDiscreet :=
  isDiscreet_of_erased fun _ _ => rfl

namespace Catalog

theorem isDiscreet_builtin : builtin.IsDiscreet := by
  intro entry hentry
  obtain ⟨strategy, -, rfl⟩ := List.mem_map.1 hentry
  intro i j start h
  exact .ok (Template.erased_builtin strategy h start)

theorem alike_steps {catalog : Catalog} (hcatalog : catalog.IsDiscreet) {i j : Intent}
    (h : i.erased = j.erased) (strategy : String) :
    Work.Alike (fun a b => a.map Step.erased = b.map Step.erased) (catalog.steps i strategy)
      (catalog.steps j strategy) := by
  rw [steps, steps]
  cases hget : Assoc.get? strategy catalog with
  | none => exact .error _
  | some template =>
      have halike := hcatalog _ (Assoc.mem_of_get? hget) i j 1 h
      dsimp only at halike ⊢
      generalize template i 1 = more at halike ⊢
      generalize template j 1 = more' at halike ⊢
      cases halike with
      | error e => exact .error _
      | ok hmore =>
          refine .ok ?_
          rw [List.map_cons, List.map_cons, hmore]
          exact congrArg (· :: _) (Step.erased_make _ _ _ rfl _)

end Catalog

/-! ## Plans and compilations -/

/-- The entry without its time. -/
def Audit.Entry.erased (e : Entry) : Entry := { e with timestamp := ⟨0⟩ }

/-- The plan without its id, the id of its intent and all times. -/
def Plan.erased (p : Plan) : Plan :=
  { p with
    id := ""
    intentId := ""
    steps := p.steps.map Step.erased
    audit := p.audit.map Audit.Entry.erased
    generatedAt := ⟨0⟩ }

theorem Evaluation.Signature.ofPlan_erased (p : Plan) : ofPlan p.erased = ofPlan p := by
  simp only [ofPlan, Plan.erased, List.map_map]
  rfl

/-- The compilation without the ids and times of its intent and its plan. -/
def Compilation.erased (r : Compilation) : Compilation :=
  { r with
    intent? := r.intent?.map Intent.erased
    plan? := r.plan?.map Plan.erased }

namespace Compilation

variable (r : Compilation)

theorem erased_advance (stage : Stage) : (r.advance stage).erased = r.erased.advance stage := rfl

theorem erased_fail (error : String) (stage : Stage) :
    (r.fail error stage).erased = r.erased.fail error stage := rfl

theorem erased_withIntent (i : Intent) :
    ({ r with intent? := some i } : Compilation).erased =
      { r.erased with intent? := some i.erased } := rfl

theorem erased_withPlan (plan : Plan) :
    ({ r with plan? := some plan } : Compilation).erased =
      { r.erased with plan? := some plan.erased } := rfl

end Compilation

end IntentPlan
