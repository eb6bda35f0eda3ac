import IntentPlan.Plan
import IntentPlan.Proofs.Assoc
import IntentPlan.Proofs.Numerals
import Mathlib.Data.Int.Order.Basic
import Mathlib.Data.List.Nodup
import Mathlib.Logic.Relation

/-!
# Steps in order

Steps are ordered if their ids are different and every dependency is the id of a step with an
earlier place.  The check of a plan finds no problem exactly there (`problems_eq_nil_iff`).  Ordered
steps do not depend on each other in a circle (`Ordered.acyclic`).
-/

namespace IntentPlan

/-! ## Ids of places -/

namespace Step

theorem idAt_injective : Function.Injective idAt := by
  intro m n h
  have htexts : "step_" ++ m.repr = "step_" ++ n.repr := h
  exact Text.repr_injective ((String.append_right_inj "step_").1 htexts)

end Step

/-! ## The check of a plan -/

namespace Plan

/-- Different ids, and dependencies on earlier places only. -/
structure Ordered (steps : List Step) : Prop where
  nodup : (steps.map Step.id).Nodup
  earlier : ∀ s ∈ steps, ∀ dependency ∈ s.dependencies,
    ∃ t ∈ steps, t.id = dependency ∧ t.order < s.order

theorem keys_places (steps : List Step) :
    Assoc.keys (steps.map fun s => (s.id, s.order)) = steps.map Step.id := by
  simp [Assoc.keys]

theorem length_orders_eq_iff {steps : List Step} :
    (orders steps).length = steps.length ↔ (steps.map Step.id).Nodup := by
  rw [← keys_places, ← Assoc.length_ofList_eq_iff, List.length_map]
  rfl

theorem get?_orders_eq_some_iff {steps : List Step} (h : (steps.map Step.id).Nodup)
    {id : String} {order : Int} :
    Assoc.get? id (orders steps) = some order ↔ ∃ t ∈ steps, t.id = id ∧ t.order = order := by
  rw [← keys_places] at h
  rw [orders, Assoc.ofList_of_nodup h, Assoc.get?_eq_some_iff h]
  simp

theorem dependencyProblem?_eq_none_iff {orders : Assoc Int} {s : Step} {dependency : String} :
    dependencyProblem? orders s dependency = none ↔
      ∃ order, Assoc.get? dependency orders = some order ∧ order < s.order := by
  rw [dependencyProblem?]
  cases h : Assoc.get? dependency orders with
  | none => simp
  | some order => simp

/-- The check of a plan finds nothing wrong exactly if the steps are ordered. -/
theorem problems_eq_nil_iff {steps : List Step} : problems steps = [] ↔ Ordered steps := by
  have hdependencies : (steps.flatMap fun s =>
      s.dependencies.filterMap (dependencyProblem? (orders steps) s)) = [] ↔
      ∀ s ∈ steps, ∀ d ∈ s.dependencies,
        ∃ order, Assoc.get? d (orders steps) = some order ∧ order < s.order := by
    simp only [List.flatMap_eq_nil_iff, List.filterMap_eq_nil_iff, dependencyProblem?_eq_none_iff]
  simp only [problems, List.append_eq_nil_iff, hdependencies]
  constructor
  · rintro ⟨hlength, hearlier⟩
    have hnodup : (steps.map Step.id).Nodup := by
      rw [← length_orders_eq_iff]
      by_contra hne
      rw [if_pos hne] at hlength
      cases hlength
    refine ⟨hnodup, fun s hs d hd => ?_⟩
    obtain ⟨order, horder, hlt⟩ := hearlier s hs d hd
    obtain ⟨t, ht, hid, rfl⟩ := (get?_orders_eq_some_iff hnodup).1 horder
    exact ⟨t, ht, hid, hlt⟩
  · rintro ⟨hnodup, hearlier⟩
    refine ⟨if_neg (not_not.2 (length_orders_eq_iff.2 hnodup)), fun s hs d hd => ?_⟩
    obtain ⟨t, ht, hid, hlt⟩ := hearlier s hs d hd
    exact ⟨t.order, (get?_orders_eq_some_iff hnodup).2 ⟨t, ht, hid, rfl⟩, hlt⟩

/-! ## Dependencies -/

/-- The step with the first id depends directly on the second id. -/
def Depends (steps : List Step) (id dependency : String) : Prop :=
  ∃ s ∈ steps, s.id = id ∧ dependency ∈ s.dependencies

namespace Ordered

variable {steps : List Step}

theorem eq_of_id (h : Ordered steps) {s t : Step} (hs : s ∈ steps) (ht : t ∈ steps)
    (hid : s.id = t.id) : s = t :=
  List.inj_on_of_nodup_map h.nodup hs ht hid

/-- Along dependencies the places fall. -/
theorem order_lt_of_transGen (h : Ordered steps) {id dependency : String}
    (hd : Relation.TransGen (Depends steps) id dependency) :
    ∃ s ∈ steps, ∃ t ∈ steps, s.id = id ∧ t.id = dependency ∧ t.order < s.order := by
  induction hd with
  | single hstep =>
      obtain ⟨s, hs, hid, hmem⟩ := hstep
      obtain ⟨t, ht, htid, hlt⟩ := h.earlier s hs _ hmem
      exact ⟨s, hs, t, ht, hid, htid, hlt⟩
  | tail _ hstep ih =>
      obtain ⟨s, hs, u, hu, hid, huid, hus⟩ := ih
      obtain ⟨u', hu', huid', hmem⟩ := hstep
      obtain rfl := h.eq_of_id hu hu' (huid.trans huid'.symm)
      obtain ⟨t, ht, htid, htu⟩ := h.earlier u hu _ hmem
      exact ⟨s, hs, t, ht, hid, htid, lt_trans htu hus⟩

/-- No step depends on itself, however long the way. -/
theorem acyclic (h : Ordered steps) (id : String) : ¬Relation.TransGen (Depends steps) id id := by
  intro hcycle
  obtain ⟨s, hs, t, ht, hsid, htid, hlt⟩ := h.order_lt_of_transGen hcycle
  obtain rfl := h.eq_of_id hs ht (hsid.trans htid.symm)
  exact lt_irrefl _ hlt

end Ordered

end Plan

end IntentPlan
