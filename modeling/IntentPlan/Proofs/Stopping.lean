import IntentPlan.Batch.Summary
import IntentPlan.Proofs.Batching

/-!
# Batches that stop at the first failure

A batch that is to stop at the first failure does, item by item, what it does anyway, so that both
runs are in the same session until one of them stops (`cuts_sequential`).  What it returns is cut
off the other results behind the first failure; `Cuts` follows the loop, and `Cuts.isCut` reads off
it that no shorter front of the results ends with a failure.

Payloads are numbered by their items, whatever the compiler and however the items are planned
(`index_of_outcome_runItem`, `index_of_outcome_plan`).  The check of the order looks at nothing
else, so it accepts all results.
-/

namespace IntentPlan.Batch

/-! ## Fronts of results -/

/-- The last of the payloads is one of an item that failed. -/
def EndsInFailure (ps : List Payload) : Prop := ∃ p ∈ ps.getLast?, p.ok = false

/-- The shortest front that ends with a failure, or all payloads if none of them is one. -/
def IsCut (full cut : List Payload) : Prop :=
  (cut <+: full ∧ EndsInFailure cut ∧
    ∀ front, front <+: full → EndsInFailure front → cut.length ≤ front.length) ∨
  (∀ p ∈ full, p.ok = true) ∧ cut = full

/-- The payloads up to the first failure, one after the other. -/
inductive Cuts : List Payload → List Payload → Prop
  | nil : Cuts [] []
  | stop {p : Payload} (h : p.ok = false) (rest : List Payload) : Cuts (p :: rest) [p]
  | goOn {p : Payload} {full cut : List Payload} (h : p.ok = true) (hcut : Cuts full cut) :
      Cuts (p :: full) (p :: cut)

theorem not_endsInFailure_nil : ¬EndsInFailure [] := by
  rintro ⟨p, hp, -⟩
  cases hp

/-- Payloads behind one that is all right decide whether there is a failure at the end. -/
theorem endsInFailure_cons_iff {p : Payload} (hp : p.ok = true) (ps : List Payload) :
    EndsInFailure (p :: ps) ↔ EndsInFailure ps := by
  cases ps with
  | nil =>
      refine iff_of_false ?_ not_endsInFailure_nil
      rintro ⟨q, hq, hfailed⟩
      obtain rfl : p = q := Option.some.inj hq
      rw [hp] at hfailed
      cases hfailed
  | cons q ps => rw [EndsInFailure, EndsInFailure, List.getLast?_cons_cons]

theorem Cuts.isCut {full cut : List Payload} (h : Cuts full cut) : IsCut full cut := by
  induction h with
  | nil => exact .inr ⟨by simp, rfl⟩
  | @stop p hp rest =>
      refine .inl ⟨by simp, ⟨p, rfl, hp⟩, ?_⟩
      intro front _ hfront
      cases front with
      | nil => exact absurd hfront not_endsInFailure_nil
      | cons q front => simp
  | @goOn p full cut hp _ ih =>
      rcases ih with ⟨hbegins, hends, hshortest⟩ | ⟨hall, rfl⟩
      · refine .inl ⟨List.cons_prefix_cons.2 ⟨rfl, hbegins⟩, (endsInFailure_cons_iff hp _).2 hends,
          ?_⟩
        intro front hfront hfailure
        cases front with
        | nil => exact absurd hfailure not_endsInFailure_nil
        | cons q front =>
            obtain ⟨rfl, hrest⟩ := List.cons_prefix_cons.1 hfront
            rw [endsInFailure_cons_iff hp] at hfailure
            exact Nat.succ_le_succ (hshortest front hrest hfailure)
      · exact .inr ⟨List.forall_mem_cons.2 ⟨hp, hall⟩, rfl⟩

/-! ## One item after the other -/

variable {c : Compiler} {options : Options} {s s' : Session}

/-- The first item gives a payload; it may be the last one, or the others follow. -/
theorem outcome_sequential_cons {job : Datum × Nat} {rest : List (Datum × Nat)}
    {ps : List Payload} :
    (sequential c options (job :: rest)).outcome s = (.ok ps, s') ↔
      ∃ p s₁, (runItem c options job).outcome s = (.ok p, s₁) ∧
        (((options.failFast && !p.ok) = true ∧ ps = [p] ∧ s' = s₁) ∨
          (options.failFast && !p.ok) = false ∧ ∃ more, ps = p :: more ∧
            (sequential c options rest).outcome s₁ = (.ok more, s')) := by
  rw [sequential, Work.outcome_bind_eq_ok_iff]
  refine exists_congr fun p => exists_congr fun s₁ => and_congr_right fun _ => ?_
  cases options.failFast && !p.ok with
  | true =>
      simp only [if_true, Work.outcome_pure, Prod.mk.injEq, Except.ok.injEq, true_and]
      grind
  | false =>
      simp only [Bool.false_eq_true, if_false, Work.outcome_bind_eq_ok_iff, Work.outcome_pure]
      grind

/-- Whether to stop makes no difference to a single item. -/
theorem cuts_sequential {jobs : List (Datum × Nat)} {options' : Options} {full : List Payload}
    (hitems : runItem c options = runItem c options') (hfull : options.failFast = false)
    (hfast : options'.failFast = true)
    (h : (sequential c options jobs).outcome s = (.ok full, s')) :
    ∃ cut s'', (sequential c options' jobs).outcome s = (.ok cut, s'') ∧ Cuts full cut := by
  induction jobs generalizing s full with
  | nil =>
      cases h
      exact ⟨[], _, rfl, .nil⟩
  | cons job rest ih =>
      obtain ⟨p, s₁, hp, hcases⟩ := outcome_sequential_cons.1 h
      rw [hfull, Bool.false_and] at hcases
      rcases hcases with ⟨hfalse, -⟩ | ⟨-, more, rfl, hmore⟩
      · cases hfalse
      rw [hitems] at hp
      cases hok : p.ok with
      | false =>
          refine ⟨[p], s₁, outcome_sequential_cons.2 ⟨p, s₁, hp, .inl ⟨?_, rfl, rfl⟩⟩,
            .stop hok more⟩
          rw [hfast, hok]
          rfl
      | true =>
          obtain ⟨cut, s₂, hcut, hcuts⟩ := ih hmore
          refine ⟨p :: cut, s₂, outcome_sequential_cons.2 ⟨p, s₁, hp, .inr ⟨?_, cut, rfl, hcut⟩⟩,
            .goOn hok hcuts⟩
          rw [hok, Bool.not_true, Bool.and_false]

/-! ## The numbers of payloads -/

theorem index_of_outcome_planItem {index : Nat} {item : Datum} {p : Payload}
    (h : (planItem c options index item).outcome s = (.ok p, s')) : p.index = index := by
  obtain ⟨source, s₁, -, h⟩ := Work.outcome_bind_eq_ok_iff.1 h
  obtain ⟨start, s₂, -, h⟩ := Work.outcome_bind_eq_ok_iff.1 h
  obtain ⟨r, s₃, -, h⟩ := Work.outcome_bind_eq_ok_iff.1 h
  obtain ⟨stop, s₄, -, h⟩ := Work.outcome_bind_eq_ok_iff.1 h
  obtain ⟨artifacts, s₅, -, h⟩ := Work.outcome_bind_eq_ok_iff.1 h
  cases h
  rfl

/-- An item that is planned and one that fails both have a payload under their own place. -/
theorem index_of_outcome_runItem {job : Datum × Nat} {p : Payload}
    (h : (runItem c options job).outcome s = (.ok p, s')) : p.index = job.2 := by
  rw [runItem, Work.outcome_attempt_bind] at h
  rcases hitem : (planItem c options job.2 job.1).outcome s with ⟨(e | e) | q, s₁⟩
  · rw [hitem] at h
    cases h
    rfl
  · rw [hitem] at h
    cases h
  · rw [hitem] at h
    cases h
    exact index_of_outcome_planItem hitem

/-- Items that are planned one after the other are numbered from the first one on. -/
theorem index_of_outcome_sequential {jobs : List (Datum × Nat)} {ps : List Payload}
    (h : (sequential c options jobs).outcome s = (.ok ps, s')) :
    ps.map Payload.index <+: jobs.map Prod.snd := by
  induction jobs generalizing s ps with
  | nil =>
      cases h
      exact List.prefix_rfl
  | cons job rest ih =>
      obtain ⟨p, s₁, hp, ⟨-, rfl, -⟩ | ⟨-, more, rfl, hmore⟩⟩ := outcome_sequential_cons.1 h
      · rw [List.map_singleton, List.map_cons, index_of_outcome_runItem hp]
        exact List.cons_prefix_cons.2 ⟨rfl, List.nil_prefix⟩
      · rw [List.map_cons, List.map_cons, index_of_outcome_runItem hp]
        exact List.cons_prefix_cons.2 ⟨rfl, ih hmore⟩

/-- The payload, if there is one, is under the place of the job. -/
def Numbered (job : Datum × Nat) (outcome : Except Estimate.Error Payload) : Prop :=
  ∀ p, outcome = .ok p → p.index = job.2

theorem numbered_outcome_runItem (c : Compiler) (options : Options) (job : Datum × Nat)
    (s : Session) : Numbered job ((runItem c options job).outcome s).1 := by
  intro p hp
  exact index_of_outcome_runItem (Prod.ext hp rfl)

theorem numbered_completed {jobs : List (Datum × Nat)}
    {outcomes : List (Except Estimate.Error Payload)}
    (h : (completed c options jobs).outcome s = (.ok outcomes, s')) :
    List.Forall₂ Numbered jobs outcomes := by
  induction jobs generalizing s outcomes with
  | nil =>
      cases h
      exact .nil
  | cons job rest ih =>
      rw [completed, Work.outcome_attempt_bind] at h
      obtain ⟨more, s₁, hmore, h⟩ := Work.outcome_bind_eq_ok_iff.1 h
      cases h
      exact .cons (numbered_outcome_runItem c options job s) (ih hmore)

theorem numbered_apart (sessions : Nat → Session) (jobs : List (Datum × Nat)) :
    List.Forall₂ Numbered jobs (apart c options sessions jobs) := by
  rw [apart, List.forall₂_map_right_iff, List.forall₂_same]
  intro job _
  exact numbered_outcome_runItem c options job _

/-- Outcomes that are collected without a failure are all payloads. -/
theorem eq_map_ok_of_mapM {outcomes : List (Except Estimate.Error Payload)} {ps : List Payload}
    (h : outcomes.mapM id = .ok ps) : outcomes = ps.map .ok := by
  have hall : List.Forall₂ (· = ·) outcomes (ps.map .ok) :=
    List.forall₂_map_right_iff.2 (Work.mapM_eq_ok_iff.1 h)
  rwa [List.forall₂_eq_eq_eq] at hall

/-- Where all outcomes are payloads, these are numbered as the jobs are. -/
theorem index_of_numbered {jobs : List (Datum × Nat)}
    {outcomes : List (Except Estimate.Error Payload)} {ps : List Payload}
    (hnumbered : List.Forall₂ Numbered jobs outcomes) (h : outcomes.mapM id = .ok ps) :
    List.Forall₂ (fun job p => p.index = job.2) jobs ps := by
  rw [eq_map_ok_of_mapM h, List.forall₂_map_right_iff] at hnumbered
  exact hnumbered.imp fun _ p hp => hp p rfl

/-- Whatever the order in which numbered payloads come, they are put back into that of the items. -/
theorem map_index_inOrder {schedule : List Nat} {items : List Datum} {ps : List Payload}
    (hschedule : schedule.Perm (List.range items.length))
    (h : List.Forall₂ (fun job p => p.index = job.2) (jobs schedule items) ps) :
    (inOrder items.length ps).map Payload.index = List.range items.length := by
  have hnumbered := forall₂_inOrder (fun _ _ hp => hp) hschedule h
  rw [map_index_of_forall₂ (fun _ _ hp => hp) hnumbered, map_snd_zipIdx]

theorem index_of_outcome_parallel {schedule : List Nat} {items : List Datum} {ps : List Payload}
    (hschedule : schedule.Perm (List.range items.length))
    (h : (parallel c options schedule items).outcome s = (.ok ps, s')) :
    ps.map Payload.index = List.range items.length := by
  obtain ⟨outcomes, s₁, houtcomes, h⟩ := Work.outcome_bind_eq_ok_iff.1 h
  obtain ⟨payloads, s₂, hpayloads, h⟩ := Work.outcome_bind_eq_ok_iff.1 h
  cases h
  have hcollect : outcomes.mapM id = .ok payloads := congrArg Prod.fst hpayloads
  exact map_index_inOrder hschedule (index_of_numbered (numbered_completed houtcomes) hcollect)

/-! ## Whole batches -/

/-- The directory of the artifacts is made before the first item is looked at. -/
def makeRoot (options : Options) : Work Error Unit :=
  match options.artifactDir with
  | some root => (Work.changeFiles (·.makeDirectories root)).mapError .artifactDir
  | none => pure ()

theorem plan_eq (c : Compiler) (options : Options) (schedule : List Nat) (items : List Datum) :
    plan c options schedule items = makeRoot options >>= fun _ =>
      if options.workers ≤ 1 || options.failFast then
        (sequential c options items.zipIdx).mapError .estimate
      else (parallel c options schedule items).mapError .estimate := by
  rw [plan, makeRoot]
  cases options.artifactDir <;> rfl

variable {schedule : List Nat} {items : List Datum} {ps : List Payload}

theorem outcome_plan_sequential (h : (options.workers ≤ 1 || options.failFast) = true) :
    (plan c options schedule items).outcome s = (.ok ps, s') ↔
      ∃ s₁, (makeRoot options).outcome s = (.ok (), s₁) ∧
        (sequential c options items.zipIdx).outcome s₁ = (.ok ps, s') := by
  rw [plan_eq, Work.outcome_bind_eq_ok_iff]
  constructor
  · rintro ⟨_, s₁, hroot, hplan⟩
    rw [if_pos h, Work.outcome_mapError_eq_ok_iff] at hplan
    exact ⟨s₁, hroot, hplan⟩
  · rintro ⟨s₁, hroot, hplan⟩
    refine ⟨(), s₁, hroot, ?_⟩
    rw [if_pos h, Work.outcome_mapError_eq_ok_iff]
    exact hplan

/-- A batch numbers its payloads from zero on. -/
theorem index_of_outcome_plan (hschedule : 1 < options.workers → options.failFast = false →
      schedule.Perm (List.range items.length))
    (h : (plan c options schedule items).outcome s = (.ok ps, s')) :
    ∃ n, ps.map Payload.index = List.range n := by
  by_cases hmode : (options.workers ≤ 1 || options.failFast) = true
  · obtain ⟨s₁, -, hplan⟩ := (outcome_plan_sequential hmode).1 h
    have hbegins := index_of_outcome_sequential hplan
    rw [map_snd_zipIdx, List.prefix_iff_eq_take, List.take_range] at hbegins
    exact ⟨_, hbegins⟩
  · rw [plan_eq] at h
    obtain ⟨_, s₁, -, hplan⟩ := Work.outcome_bind_eq_ok_iff.1 h
    rw [if_neg hmode, Work.outcome_mapError_eq_ok_iff] at hplan
    simp only [Bool.or_eq_true, decide_eq_true_eq, not_or, Int.not_le, Bool.not_eq_true] at hmode
    exact ⟨_, index_of_outcome_parallel (hschedule hmode.1 hmode.2) hplan⟩

/-! ## The check of the order -/

theorem statedIndex_fields (p : Payload) : statedIndex p.fields = .ok p.index := by
  cases p <;> rfl

/-- The check looks at the numbers alone. -/
theorem checkOrder_fields {n : Nat} (h : ps.map Payload.index = List.range n) :
    checkOrder (ps.map Payload.fields) = .ok () := by
  have hlength : (ps.map Payload.fields).length = n := by
    rw [List.length_map, ← List.length_map (f := Payload.index), h, List.length_range]
  have hstated : (ps.map Payload.fields).mapM statedIndex =
      .ok (ps.map fun p => Int.ofNat p.index) := by
    have hpure : statedIndex ∘ Payload.fields = fun p => pure (Int.ofNat p.index) :=
      funext statedIndex_fields
    rw [List.mapM_map, hpure]
    exact List.mapM_pure
  have hexpected : (ps.map fun p => Int.ofNat p.index) = (List.range n).map Int.ofNat := by
    rw [← h, List.map_map]
    rfl
  rw [checkOrder, hstated, hlength]
  exact if_pos hexpected

/-- A batch that is to stop at the first failure returns, if the same batch returns at all without
that, the shortest front of its results that ends with a failure, or all results if there is none.
Both start in the same session, and it makes no difference how many items might be planned side by
side.  The check of the order accepts the results of every batch, one after the other or side by
side, and also where items that run side by side get whatever times, ids and files they find. -/
theorem plan_failFast_isCut (c : Compiler) (options : Options) (items : List Datum) :
    (∀ (workers : Int) (schedule schedule' : List Nat) (s s' : Session) (full : List Payload),
      workers ≤ 1 →
      (plan c { options with failFast := false, workers } schedule items).outcome s =
        (.ok full, s') →
      ∃ cut s'', (plan c { options with failFast := true } schedule' items).outcome s =
        (.ok cut, s'') ∧ IsCut full cut) ∧
    (∀ (schedule : List Nat) (s s' : Session) (results : List Payload),
      (1 < options.workers → options.failFast = false →
        schedule.Perm (List.range items.length)) →
      (plan c options schedule items).outcome s = (.ok results, s') →
      checkOrder (results.map Payload.fields) = .ok ()) ∧
    ∀ (schedule : List Nat) (sessions : Nat → Session) (results : List Payload),
      schedule.Perm (List.range items.length) →
      (apart c options sessions (jobs schedule items)).mapM id = .ok results →
      checkOrder ((inOrder items.length results).map Payload.fields) = .ok () := by
  refine ⟨?_, ?_, ?_⟩
  · intro workers schedule schedule' s s' full hworkers hfull
    have hone : (decide (workers ≤ 1) || false) = true := by
      rw [decide_eq_true hworkers]
      rfl
    obtain ⟨s₁, hroot, hplan⟩ := (outcome_plan_sequential hone).1 hfull
    -- the two differ only in what is looked at between items
    have hitems : runItem c { options with failFast := false, workers } =
        runItem c { options with failFast := true } := rfl
    obtain ⟨cut, s₂, hcut, hcuts⟩ := cuts_sequential hitems rfl rfl hplan
    have hfast : (decide (options.workers ≤ 1) || true) = true := Bool.or_true _
    exact ⟨cut, s₂, (outcome_plan_sequential hfast).2 ⟨s₁, hroot, hcut⟩, hcuts.isCut⟩
  · intro schedule s s' results hschedule hplan
    obtain ⟨n, hindex⟩ := index_of_outcome_plan hschedule hplan
    exact checkOrder_fields hindex
  · intro schedule sessions results hschedule hresults
    have hnumbered := index_of_numbered (numbered_apart sessions (jobs schedule items)) hresults
    exact checkOrder_fields (map_index_inOrder hschedule hnumbered)

/-- Of three items the second is no object; the batch stops there, however many items it might plan
side by side, and never comes to the third. -/
theorem plan_failFast_isCut_three :
    let relay : Datum := .map [("source", .str "intent relay \x7b goal: 'pass it on' \x7d")]
    let s : Session := ⟨.constant ⟨0⟩, .constant "a", .constant 0.0, [], {}, ""⟩
    ∃ full cut s' s'',
      (plan {} {} [] [relay, .null, relay]).outcome s = (.ok full, s') ∧
      full.map Payload.ok = [true, false, true] ∧
      (plan {} { failFast := true, workers := 4 } [] [relay, .null, relay]).outcome s =
        (.ok cut, s'') ∧
      cut.length = 2 ∧ IsCut full cut ∧
      checkOrder (full.map Payload.fields) = .ok () ∧
      checkOrder (cut.map Payload.fields) = .ok () := by
  intro relay s
  have hok : ((plan {} {} [] [relay, .null, relay]).outcome s).1.toOption.map
      (List.map Payload.ok) = some [true, false, true] := by decide +kernel
  have hlength : ((plan {} { failFast := true, workers := 4 } [] [relay, .null, relay]).outcome
      s).1.toOption.map List.length = some 2 := by decide +kernel
  rcases hfull : (plan {} {} [] [relay, .null, relay]).outcome s with ⟨e | full, s'⟩
  · rw [hfull] at hok
    cases hok
  rw [hfull] at hok
  obtain ⟨cut, s'', hcut, hiscut⟩ := (plan_failFast_isCut {} { failFast := true, workers := 4 }
    [relay, .null, relay]).1 1 [] [] s s' full (le_refl 1) hfull
  rw [hcut] at hlength
  refine ⟨full, cut, s', s'', rfl, Option.some.inj hok, hcut, Option.some.inj hlength, hiscut,
    ?_, ?_⟩
  · exact (plan_failFast_isCut {} {} [relay, .null, relay]).2.1 [] s s' full (by decide) hfull
  · exact (plan_failFast_isCut {} { failFast := true, workers := 4 } [relay, .null, relay]).2.1 [] s
      s'' cut (by decide) hcut

end IntentPlan.Batch
