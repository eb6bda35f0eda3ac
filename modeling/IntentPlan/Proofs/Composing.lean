import IntentPlan.Plan.Planner
import IntentPlan.Proofs.Ordering
import Mathlib.Algebra.Ring.Nat

/-!
# Templates one after the other

A plan has the steps of one template behind the step that checks the intent.  Here the steps of any
number of templates follow that step, and each template starts at the number of the steps so far
(`Catalog.compose`).  A template of the library may start anywhere behind the first step: its steps
are numbered on from the ones before them, and each of them depends on an earlier number
(`Template.continues_builtin`).  Blocks of such steps can be put together (`Continues.append`), and
behind the first step they are a plan in order (`Continues.ordered`).
-/

namespace IntentPlan

namespace Catalog

/-- The step that checks the intent. -/
def firstStep (i : Intent) : Step :=
  Step.make 0 .validate "validate_intent" [("intent_id", .str i.id)] []

/-- Some steps with those of one more strategy behind them. -/
def extend (catalog : Catalog) (i : Intent) (steps : List Step) (strategy : String) :
    Except PlanFailure (List Step) :=
  match Assoc.get? strategy catalog with
  | none => .error (.planning (.noTemplate strategy catalog.names))
  | some template =>
    match template i steps.length with
    | .error e => .error (.breakdown (.step e))
    | .ok more => .ok (steps ++ more)

/-- The first step with the steps of the strategies behind it, one strategy after the other. -/
def compose (catalog : Catalog) (i : Intent) (strategies : List String) :
    Except PlanFailure (List Step) :=
  strategies.foldlM (catalog.extend i) [firstStep i]

/-- The steps of a plan are composed of one strategy. -/
theorem compose_singleton (catalog : Catalog) (i : Intent) (strategy : String) :
    catalog.compose i [strategy] = catalog.steps i strategy := by
  rw [compose, List.foldlM_cons]
  unfold extend steps
  cases Assoc.get? strategy catalog with
  | none => rfl
  | some template =>
      have hlength : (([firstStep i].length : Nat) : Int) = 1 := rfl
      dsimp only
      rw [hlength]
      cases template i 1 <;> rfl

theorem get?_builtin (strategy : Strategy) :
    Assoc.get? strategy.name builtin =
      some fun i start => .ok (Template.builtin strategy i start) := by
  cases strategy <;> rfl

theorem extend_builtin (i : Intent) (steps : List Step) (strategy : Strategy) :
    builtin.extend i steps strategy.name =
      .ok (steps ++ Template.builtin strategy i steps.length) := by
  rw [extend, get?_builtin]

end Catalog

/-! ## Steps that go on from earlier ones -/

/-- Steps that follow `start` others: they are numbered on from there, each has the id of its
number, and each depends on something, but on ids of earlier numbers only. -/
structure Continues (start : Nat) (steps : List Step) : Prop where
  orders : steps.map Step.order = (List.range' start steps.length).map Int.ofNat
  ids : ∀ s ∈ steps, s.id = Step.idAt s.order
  depends : ∀ s ∈ steps, s.dependencies ≠ []
  earlier : ∀ s ∈ steps, ∀ d ∈ s.dependencies, ∃ m : Nat, d = Step.idAt m ∧ (m : Int) < s.order

namespace Continues

variable {start : Nat} {steps more : List Step}

theorem nil (start : Nat) : Continues start [] := by
  constructor
  · rfl
  all_goals
    intro s hs
    cases hs

/-- A block may follow another one at the number where that one ends. -/
theorem append (h : Continues start steps) (hmore : Continues (start + steps.length) more) :
    Continues start (steps ++ more) := by
  constructor
  · rw [List.map_append, h.orders, hmore.orders, ← List.map_append, List.length_append,
      List.range'_append_1]
  · exact List.forall_mem_append.2 ⟨h.ids, hmore.ids⟩
  · exact List.forall_mem_append.2 ⟨h.depends, hmore.depends⟩
  · exact List.forall_mem_append.2 ⟨h.earlier, hmore.earlier⟩

end Continues

namespace Template

/-- One step that depends on one earlier number. -/
theorem continues_make (kind : StepKind) (action : String) (parameters : Assoc Datum)
    {start m : Nat} (hm : m < start) :
    Continues start [Step.make start kind action parameters [Step.idAt m]] := by
  constructor
  · rfl
  all_goals
    intro s hs
    obtain rfl := List.mem_singleton.1 hs
  · rfl
  · exact List.cons_ne_nil _ _
  · intro d hd
    obtain rfl := List.mem_singleton.1 hd
    exact ⟨m, rfl, Int.ofNat_lt.2 hm⟩

/-- The four steps of this template depend on the number right before their own. -/
theorem continues_crud (i : Intent) {start : Nat} (hstart : 0 < start) :
    Continues start (crud i start) := by
  -- numbers may be negative, so the number before the first is one only if there is an earlier step
  obtain ⟨n, rfl⟩ : ∃ n, start = n + 1 := Nat.exists_eq_add_one.2 hstart
  have hbefore : ((n + 1 : Nat) : Int) - 1 = n := by omega
  rw [crud, hbefore]
  apply (continues_make .generateCode _ _ (Nat.lt_succ_self n)).append
  apply (continues_make .createResource _ _ (Nat.lt_succ_self (n + 1))).append
  apply (continues_make .generateCode _ _ (Nat.lt_succ_self (n + 2))).append
  exact continues_make .deploy _ _ (Nat.lt_succ_self (n + 3))

/-- The template of a strategy of the library may start anywhere behind the first step. -/
theorem continues_builtin (strategy : Strategy) (i : Intent) {start : Nat} (hstart : 0 < start) :
    Continues start (builtin strategy i start) := by
  cases strategy with
  | crudGeneration => exact continues_crud i hstart
  | _ =>
      rw [builtin]
      exact continues_make _ _ _ hstart

end Template

/-! ## Blocks behind the first step -/

namespace Continues

variable {i : Intent} {more : List Step}

theorem orders_cons (h : Continues 1 more) :
    (Catalog.firstStep i :: more).map Step.order =
      (List.range (Catalog.firstStep i :: more).length).map Int.ofNat := by
  rw [List.map_cons, h.orders, List.length_cons, List.range_eq_range', List.range'_succ,
    List.map_cons]
  rfl

theorem id_of_mem (h : Continues 1 more) {s : Step} (hs : s ∈ Catalog.firstStep i :: more) :
    s.id = Step.idAt s.order := by
  rcases List.mem_cons.1 hs with rfl | hs
  · rfl
  · exact h.ids s hs

theorem ids_cons (h : Continues 1 more) :
    (Catalog.firstStep i :: more).map Step.id =
      (List.range (Catalog.firstStep i :: more).length).map fun n : Nat => Step.idAt n := by
  calc
    (Catalog.firstStep i :: more).map Step.id
    _ = (Catalog.firstStep i :: more).map fun s => Step.idAt s.order :=
      List.map_congr_left fun s => h.id_of_mem
    _ = ((Catalog.firstStep i :: more).map Step.order).map Step.idAt := by
      rw [List.map_map]
      rfl
    _ = _ := by
      rw [h.orders_cons, List.map_map]
      rfl

theorem nodup_ids (h : Continues 1 more) : ((Catalog.firstStep i :: more).map Step.id).Nodup := by
  rw [h.ids_cons]
  apply List.nodup_range.map
  intro m n hmn
  exact Int.ofNat.inj (Step.idAt_injective hmn)

/-- There is a step for each number up to that of a step that is there. -/
theorem exists_of_lt (h : Continues 1 more) {s : Step} (hs : s ∈ more) {m : Nat}
    (hm : (m : Int) < s.order) :
    ∃ t ∈ Catalog.firstStep i :: more, t.id = Step.idAt m ∧ t.order = m := by
  have horders := h.orders_cons (i := i)
  -- the numbers are all those below the number of steps, so a smaller one is among them as well
  have hmem : s.order ∈ (Catalog.firstStep i :: more).map Step.order :=
    List.mem_map_of_mem (List.mem_cons_of_mem _ hs)
  rw [horders] at hmem
  obtain ⟨k, hk, hks⟩ := List.mem_map.1 hmem
  have hlt : m < k := by
    rw [← hks] at hm
    exact Int.ofNat_lt.1 hm
  have hmem : (m : Int) ∈ (Catalog.firstStep i :: more).map Step.order := by
    rw [horders]
    exact List.mem_map_of_mem (List.mem_range.2 (Nat.lt_trans hlt (List.mem_range.1 hk)))
  obtain ⟨t, ht, htm⟩ := List.mem_map.1 hmem
  exact ⟨t, ht, by rw [h.id_of_mem ht, htm], htm⟩

theorem ordered (h : Continues 1 more) : Plan.Ordered (Catalog.firstStep i :: more) := by
  constructor
  · exact h.nodup_ids
  · intro s hs d hd
    rcases List.mem_cons.1 hs with rfl | hs
    · cases hd
    · obtain ⟨m, rfl, hm⟩ := h.earlier s hs d hd
      obtain ⟨t, ht, hid, horder⟩ := h.exists_of_lt hs hm
      exact ⟨t, ht, hid, horder ▸ hm⟩

/-- No step but the first is without dependencies. -/
theorem filter_independent (h : Continues 1 more) :
    (Catalog.firstStep i :: more).filter (fun s => s.dependencies.isEmpty) =
      [Catalog.firstStep i] := by
  have hmore : more.filter (fun s => s.dependencies.isEmpty) = [] := by
    apply List.filter_eq_nil_iff.2
    intro s hs hempty
    exact h.depends s hs (List.isEmpty_iff.1 hempty)
  rw [List.filter_cons_of_pos rfl, hmore]

end Continues

/-! ## Composition -/

namespace Catalog

/-- Every further template goes on where the steps before it end. -/
theorem exists_foldlM_extend (i : Intent) (strategies : List Strategy) {more : List Step}
    (h : Continues 1 more) :
    ∃ more', (strategies.map Strategy.name).foldlM (builtin.extend i) (firstStep i :: more) =
      .ok (firstStep i :: more') ∧ Continues 1 more' := by
  induction strategies generalizing more with
  | nil => exact ⟨more, rfl, h⟩
  | cons strategy strategies ih =>
      have hnext : Continues (1 + more.length) _ :=
        Template.continues_builtin strategy i (Nat.lt_add_right _ Nat.one_pos)
      obtain ⟨more', hmore', hcontinues⟩ := ih (h.append hnext)
      refine ⟨more', ?_, hcontinues⟩
      rw [List.map_cons, List.foldlM_cons, extend_builtin, List.length_cons, List.cons_append,
        Nat.add_comm more.length 1]
      exact hmore'

/-- The templates of the library can be put behind the first step in any order and any number, each
at the number of the steps so far.  The steps are then numbered from zero, their ids are those of
their numbers and are different from each other, only the first step depends on nothing, and the
check of a plan finds nothing wrong with them. -/
theorem compose_builtin (i : Intent) (strategies : List Strategy) :
    ∃ steps, builtin.compose i (strategies.map Strategy.name) = .ok steps ∧
      steps.map Step.order = (List.range steps.length).map Int.ofNat ∧
      steps.map Step.id = (List.range steps.length).map (fun n : Nat => Step.idAt n) ∧
      (steps.map Step.id).Nodup ∧
      steps.filter (fun s => s.dependencies.isEmpty) = [firstStep i] ∧
      Plan.problems steps = [] := by
  obtain ⟨more, hcompose, hmore⟩ := exists_foldlM_extend i strategies (Continues.nil 1)
  refine ⟨firstStep i :: more, hcompose, ?_⟩
  exact ⟨hmore.orders_cons, hmore.ids_cons, hmore.nodup_ids, hmore.filter_independent,
    Plan.problems_eq_nil_iff.2 hmore.ordered⟩

end Catalog

end IntentPlan
