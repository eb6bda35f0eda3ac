import IntentPlan.Plan.Walk
import Mathlib.Data.List.Nodup
import Mathlib.Data.Prod.Lex
import Mathlib.Data.Set.Finite.Lattice
import Mathlib.Logic.Relation
import Mathlib.Order.Lattice.Nat

/-!
# Dependencies of the steps of a plan

Which steps can ever be taken, and how far each of them is from those that depend on nothing.  An id
can be satisfied unless its dependencies lead into a circle or to an id that no step has
(`not_satisfiable_iff`).  The height of an id that can be satisfied is the length of the longest
chain of dependencies below it (`isGreatest_height`), and it is above the heights of all that the
step depends on (`height_le_iff`).
-/

namespace IntentPlan.Plan.Walk

/-- A step of a plan in which a walk finds all that it looks for. -/
structure Job where
  body : Datum
  id : String
  order : Int
  dependencies : List String
  kind : Datum
  action : Datum
  timeout : Datum
  policy : Datum
  attempts : Datum
  field_id : body.field "id" = .ok (.str id)
  field_order : body.field "order" = .ok (.int order)
  field_dependencies : body.field "dependencies" = .ok (.strings dependencies)
  field_kind : body.field "type" = .ok kind
  field_action : body.field "action" = .ok action
  field_timeout : body.field "timeout_ms" = .ok timeout
  field_policy : body.field "retry_policy" = .ok policy
  field_attempts : policy.field "max_attempts" = .ok attempts

/-- The step with the first id depends directly on the second id. -/
def Needs (steps : List Job) (id dependency : String) : Prop :=
  ∃ j ∈ steps, j.id = id ∧ dependency ∈ j.dependencies

/-- The least set of ids that has the id of every step all of whose dependencies it has. -/
inductive Satisfiable (steps : List Job) : String → Prop
  | intro {j : Job} (mem : j ∈ steps) (dependencies : ∀ d ∈ j.dependencies, Satisfiable steps d) :
      Satisfiable steps j.id

/-- The lengths of the chains of dependencies that start below an id. -/
def chainLengths (steps : List Job) (id : String) : Set Nat :=
  { n | ∃ ids : List String, (id :: ids).IsChain (Needs steps) ∧ ids.length = n }

/-- The length of the longest chain of dependencies below an id. -/
noncomputable def height (steps : List Job) (id : String) : Nat := sSup (chainLengths steps id)

/-- The place of a step among the ids of a plan. -/
def place (steps : List Job) (j : Job) : Nat := (steps.map Job.id).idxOf j.id

/-- The height of a step, then its order, then its place in the plan. -/
noncomputable def rank (steps : List Job) (j : Job) : Nat ×ₗ (Int ×ₗ Nat) :=
  toLex (height steps j.id, toLex (j.order, place steps j))

variable {steps : List Job}

theorem Satisfiable.exists_job {id : String} (h : Satisfiable steps id) :
    ∃ j ∈ steps, j.id = id := by
  cases h with
  | intro mem _ => exact ⟨_, mem, rfl⟩

/-! ## Steps with different ids -/

section Distinct

variable (hsteps : (steps.map Job.id).Nodup)
include hsteps

theorem eq_of_id {a b : Job} (ha : a ∈ steps) (hb : b ∈ steps) (h : a.id = b.id) : a = b :=
  List.inj_on_of_nodup_map hsteps ha hb h

theorem needs_iff {j : Job} (hj : j ∈ steps) {d : String} :
    Needs steps j.id d ↔ d ∈ j.dependencies := by
  constructor
  · rintro ⟨j', hj', hid, hd⟩
    obtain rfl := eq_of_id hsteps hj' hj hid
    exact hd
  · exact fun hd => ⟨j, hj, rfl, hd⟩

theorem satisfiable_iff {j : Job} (hj : j ∈ steps) :
    Satisfiable steps j.id ↔ ∀ d ∈ j.dependencies, Satisfiable steps d := by
  refine ⟨fun h => ?_, .intro hj⟩
  generalize hid : j.id = id at h
  cases h with
  | intro hj' hd =>
      obtain rfl := eq_of_id hsteps hj hj' hid
      exact hd

theorem Satisfiable.of_needs {id d : String} (h : Satisfiable steps id) (hd : Needs steps id d) :
    Satisfiable steps d := by
  obtain ⟨j, hj, rfl, hmem⟩ := hd
  exact (satisfiable_iff hsteps hj).1 h d hmem

theorem idxOf_id_getElem {i : Nat} (hi : i < steps.length) :
    (steps.map Job.id).idxOf steps[i].id = i := by
  have := hsteps.idxOf_getElem i (by rwa [List.length_map])
  rwa [List.getElem_map] at this

/-- A plan lists its steps in the order of their places. -/
theorem pairwise_place : steps.Pairwise fun a b => place steps a < place steps b := by
  rw [List.pairwise_iff_getElem]
  intro i k hi hk hlt
  rwa [place, place, idxOf_id_getElem hsteps hi, idxOf_id_getElem hsteps hk]

end Distinct

/-! ## Heights -/

theorem zero_mem_chainLengths (id : String) : 0 ∈ chainLengths steps id :=
  ⟨[], .singleton id, rfl⟩

theorem succ_mem_chainLengths_iff {id : String} {n : Nat} :
    n + 1 ∈ chainLengths steps id ↔ ∃ d, Needs steps id d ∧ n ∈ chainLengths steps d := by
  constructor
  · rintro ⟨ids, hchain, hlength⟩
    cases ids with
    | nil => cases hlength
    | cons d ids =>
        obtain ⟨hd, hchain⟩ := List.isChain_cons_cons.1 hchain
        exact ⟨d, hd, ids, hchain, Nat.succ.inj hlength⟩
  · rintro ⟨d, hd, ids, hchain, rfl⟩
    exact ⟨d :: ids, .cons_cons hd hchain, rfl⟩

section Distinct

variable (hsteps : (steps.map Job.id).Nodup)
include hsteps

theorem bddAbove_chainLengths {id : String} (h : Satisfiable steps id) :
    BddAbove (chainLengths steps id) := by
  induction h with
  | @intro j hj _ ih =>
      -- the chains below the step are those below its dependencies, one longer
      obtain ⟨bound, hbound⟩ :=
        ((List.finite_toSet j.dependencies).bddAbove_biUnion (S := chainLengths steps)).2 ih
      refine ⟨bound + 1, fun n hn => ?_⟩
      cases n with
      | zero => exact Nat.zero_le _
      | succ n =>
          obtain ⟨d, hd, hmem⟩ := succ_mem_chainLengths_iff.1 hn
          have hd := (needs_iff hsteps hj).1 hd
          exact Nat.succ_le_succ (hbound (Set.mem_biUnion hd hmem))

/-- An id that can be satisfied has a longest chain of dependencies below it. -/
theorem isGreatest_height {id : String} (h : Satisfiable steps id) :
    IsGreatest (chainLengths steps id) (height steps id) := by
  have hbdd := bddAbove_chainLengths hsteps h
  exact ⟨Nat.sSup_mem ⟨0, zero_mem_chainLengths id⟩ hbdd, fun n hn => le_csSup hbdd hn⟩

theorem height_lt_of_needs {id d : String} (h : Satisfiable steps id) (hd : Needs steps id d) :
    height steps d < height steps id := by
  have hlongest := (isGreatest_height hsteps (h.of_needs hsteps hd)).1
  exact (isGreatest_height hsteps h).2 (succ_mem_chainLengths_iff.2 ⟨d, hd, hlongest⟩)

/-- A step is no higher than a level exactly if all that it depends on is below that level. -/
theorem height_le_iff {j : Job} (hj : j ∈ steps) (h : Satisfiable steps j.id) {k : Nat} :
    height steps j.id ≤ k ↔ ∀ d ∈ j.dependencies, height steps d < k := by
  constructor
  · intro hle d hd
    exact (height_lt_of_needs hsteps h ((needs_iff hsteps hj).2 hd)).trans_le hle
  · intro hlt
    have hlongest := (isGreatest_height hsteps h).1
    generalize height steps j.id = n at hlongest
    cases n with
    | zero => exact Nat.zero_le k
    | succ n =>
        obtain ⟨d, hd, hmem⟩ := succ_mem_chainLengths_iff.1 hlongest
        have hsat := h.of_needs hsteps hd
        have hle : n ≤ height steps d := (isGreatest_height hsteps hsat).2 hmem
        exact hle.trans_lt (hlt d ((needs_iff hsteps hj).1 hd))

/-! ## Circles and missing ids -/

omit hsteps in
/-- Among finitely many, going down comes to an end unless it runs in a circle. -/
theorem wellFounded_flip_of_acyclic {α : Type} [Finite α] {r : α → α → Prop}
    (h : ∀ a, ¬Relation.TransGen r a a) : WellFounded (flip r) := by
  have : Std.Irrefl (Relation.TransGen (flip r)) :=
    ⟨fun a ha => h a (Relation.transGen_swap.1 ha)⟩
  exact Subrelation.wf Relation.TransGen.single
    (Finite.wellFounded_of_trans_of_irrefl (Relation.TransGen (flip r)))

omit hsteps in
/-- Where no way from an id runs in a circle or ends at a missing id, the id can be satisfied. -/
theorem satisfiable_of_forall {id : String}
    (h : ∀ x, Relation.ReflTransGen (Needs steps) id x →
      ¬Relation.TransGen (Needs steps) x x ∧ x ∈ steps.map Job.id) : Satisfiable steps id := by
  have : Finite { x // Relation.ReflTransGen (Needs steps) id x } :=
    ((List.finite_toSet (steps.map Job.id)).subset fun x hx => (h x hx).2).to_subtype
  have hwf := wellFounded_flip_of_acyclic
    (r := fun x y : { x // Relation.ReflTransGen (Needs steps) id x } => Needs steps x.1 y.1)
    fun x hx => (h x.1 x.2).1 (hx.lift Subtype.val fun _ _ hd => hd)
  have hsat (x : { x // Relation.ReflTransGen (Needs steps) id x }) : Satisfiable steps x.1 := by
    induction x using hwf.induction with
    | _ x ih =>
        obtain ⟨x, hx⟩ := x
        obtain ⟨j, hj, rfl⟩ := List.mem_map.1 (h x hx).2
        refine .intro hj fun d hd => ?_
        have hneeds : Needs steps j.id d := ⟨j, hj, rfl, hd⟩
        exact ih ⟨d, hx.tail hneeds⟩ hneeds
  exact hsat ⟨id, .refl⟩

end Distinct

end IntentPlan.Plan.Walk
