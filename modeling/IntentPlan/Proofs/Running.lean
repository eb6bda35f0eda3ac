import IntentPlan.Proofs.Stopping

/-!
# The course of a batch

A batch that returns has run some of its jobs one after the other, each in the session that the job
before it left (`Runs`), whether they were planned in their own order or side by side.  What holds
of every item that was run therefore holds of a batch, and what an item keeps, a batch keeps
(`exists_runs_of_outcome_plan`).
-/

namespace IntentPlan.Batch

variable {c : Compiler} {options : Options}

/-! ## One item -/

/-- A source is looked for, and nothing is changed. -/
theorem outcome_loadSource_snd (item : Datum) (s : Session) :
    ((loadSource item).outcome s).2 = s := by
  unfold loadSource
  split
  · split
    · rfl
    · rename_i path _ _
      rw [Work.outcome_bind, Work.outcome_ofExcept]
      cases path.text.mapError ItemFault.textless with
      | error e => rfl
      | ok text => rfl
    · rfl
  · rfl

/-- An item fails by a fault of its own, or its source is compiled and the artifacts of that
compilation are made.  Files are not touched before and between the two. -/
theorem outcome_runItem_cases {job : Datum × Nat} {s s' : Session} {p : Payload}
    (h : (runItem c options job).outcome s = (.ok p, s')) :
    (∃ e, p = .failed job.2 e) ∨
      ∃ source r elapsedMs artifacts s₁ s₂ s₃,
        p = .finished job.2 r elapsedMs options.includeExplain artifacts ∧
        s₁.files = s.files ∧ (c.compile source).outcome s₁ = (.ok r, s₂) ∧
        s₃.files = s₂.files ∧
        (artifactsOf options.artifactDir job.2 job.1 r).outcome s₃ = (.ok artifacts, s') := by
  rw [runItem, Work.outcome_attempt_bind] at h
  rcases hitem : (planItem c options job.2 job.1).outcome s with ⟨(e | e) | q, s₀⟩
  · rw [hitem] at h
    cases h
    exact .inl ⟨e, rfl⟩
  · rw [hitem] at h
    cases h
  · rw [hitem] at h
    cases h
    obtain ⟨source, s₁, hload, h⟩ := Work.outcome_bind_eq_ok_iff.1 hitem
    obtain ⟨start, s₂, hstart, h⟩ := Work.outcome_bind_eq_ok_iff.1 h
    obtain ⟨r, s₃, hcompile, h⟩ := Work.outcome_bind_eq_ok_iff.1 h
    obtain ⟨stop, s₄, hstop, h⟩ := Work.outcome_bind_eq_ok_iff.1 h
    obtain ⟨artifacts, s₅, hartifacts, h⟩ := Work.outcome_bind_eq_ok_iff.1 h
    cases h
    rw [Work.outcome_mapError_eq_ok_iff] at hload hcompile hartifacts
    have hsame := outcome_loadSource_snd job.1 s
    rw [hload] at hsame
    cases hsame
    cases hstart
    cases hstop
    refine .inr ⟨source, r, _, artifacts, _, s₃, _, rfl, ?_, hcompile, ?_, hartifacts⟩
    · rfl
    · rfl

/-! ## Many items -/

/-- The jobs are run one after the other and come to these payloads. -/
inductive Runs (c : Compiler) (options : Options) :
    Session → List (Datum × Nat) → List Payload → Session → Prop
  | nil (s : Session) : Runs c options s [] [] s
  | cons {job : Datum × Nat} {p : Payload} {jobs : List (Datum × Nat)} {ps : List Payload}
      {s s₁ s' : Session} (hfirst : (runItem c options job).outcome s = (.ok p, s₁))
      (hrest : Runs c options s₁ jobs ps s') : Runs c options s (job :: jobs) (p :: ps) s'

/-- Every payload is one of an item. -/
theorem Runs.exists_runItem {jobs : List (Datum × Nat)} {ps : List Payload} {s s' : Session}
    (h : Runs c options s jobs ps s') {p : Payload} (hp : p ∈ ps) :
    ∃ job ∈ jobs, ∃ s₁ s₂, (runItem c options job).outcome s₁ = (.ok p, s₂) := by
  induction h with
  | nil => cases hp
  | cons hfirst _ ih =>
      rcases List.mem_cons.1 hp with rfl | hmem
      · exact ⟨_, List.mem_cons_self, _, _, hfirst⟩
      · obtain ⟨job, hjob, hrun⟩ := ih hmem
        exact ⟨job, List.mem_cons_of_mem _ hjob, hrun⟩

/-- Items that are planned one after the other are run up to the last payload. -/
theorem exists_runs_of_outcome_sequential {jobs : List (Datum × Nat)} {ps : List Payload}
    {s s' : Session} (h : (sequential c options jobs).outcome s = (.ok ps, s')) :
    ∃ ran, ran <+: jobs ∧ Runs c options s ran ps s' := by
  induction jobs generalizing s ps with
  | nil =>
      cases h
      exact ⟨[], List.prefix_rfl, .nil _⟩
  | cons job rest ih =>
      obtain ⟨p, s₁, hp, ⟨-, rfl, rfl⟩ | ⟨-, more, rfl, hmore⟩⟩ := outcome_sequential_cons.1 h
      · exact ⟨[job], by simp, .cons hp (.nil _)⟩
      · obtain ⟨ran, hran, hruns⟩ := ih hmore
        exact ⟨job :: ran, List.cons_prefix_cons.2 ⟨rfl, hran⟩, .cons hp hruns⟩

theorem runs_of_outcome_completed {jobs : List (Datum × Nat)} {ps : List Payload}
    {s s' : Session} (h : (completed c options jobs).outcome s = (.ok (ps.map .ok), s')) :
    Runs c options s jobs ps s' := by
  induction jobs generalizing s ps with
  | nil =>
      obtain ⟨hnil, rfl⟩ := Prod.mk.inj h
      obtain rfl := List.map_eq_nil_iff.1 (Except.ok.inj hnil).symm
      exact .nil _
  | cons job rest ih =>
      rw [completed, Work.outcome_attempt_bind] at h
      obtain ⟨more, s₁, hmore, h⟩ := Work.outcome_bind_eq_ok_iff.1 h
      obtain ⟨heq, rfl⟩ := Prod.mk.inj h
      obtain ⟨p, qs, rfl, hp, rfl⟩ := List.map_eq_cons_iff.1 (Except.ok.inj heq).symm
      exact .cons (Prod.ext hp.symm rfl) (ih hmore)

theorem mem_of_mem_inOrder {n : Nat} {ps : List Payload} {p : Payload} (h : p ∈ inOrder n ps) :
    p ∈ ps := by
  obtain ⟨index, -, hfind⟩ := List.mem_filterMap.1 h
  exact List.mem_of_find?_eq_some hfind

/-- A batch that returns has made its directory and run items: the first ones of the list, or all
that are scheduled. -/
theorem exists_runs_of_outcome_plan {schedule : List Nat} {items : List Datum} {ps : List Payload}
    {s s' : Session} (h : (plan c options schedule items).outcome s = (.ok ps, s')) :
    ∃ s₁ ran qs, (makeRoot options).outcome s = (.ok (), s₁) ∧ Runs c options s₁ ran qs s' ∧
      (∀ p ∈ ps, p ∈ qs) ∧
      (ran <+: items.zipIdx ∨
        1 < options.workers ∧ options.failFast = false ∧ ran = jobs schedule items) := by
  by_cases hmode : (options.workers ≤ 1 || options.failFast) = true
  · obtain ⟨s₁, hroot, hplan⟩ := (outcome_plan_sequential hmode).1 h
    obtain ⟨ran, hran, hruns⟩ := exists_runs_of_outcome_sequential hplan
    exact ⟨s₁, ran, ps, hroot, hruns, fun p hp => hp, .inl hran⟩
  · rw [plan_eq] at h
    obtain ⟨_, s₁, hroot, hplan⟩ := Work.outcome_bind_eq_ok_iff.1 h
    rw [if_neg hmode, Work.outcome_mapError_eq_ok_iff] at hplan
    obtain ⟨outcomes, s₂, houtcomes, hplan⟩ := Work.outcome_bind_eq_ok_iff.1 hplan
    obtain ⟨qs, s₃, hqs, hplan⟩ := Work.outcome_bind_eq_ok_iff.1 hplan
    cases hplan
    obtain ⟨hcollect, rfl⟩ : outcomes.mapM id = .ok qs ∧ s₂ = s' := Prod.mk.inj hqs
    simp only [Bool.or_eq_true, decide_eq_true_eq, not_or, Int.not_le, Bool.not_eq_true] at hmode
    rw [eq_map_ok_of_mapM hcollect] at houtcomes
    exact ⟨s₁, _, qs, hroot, runs_of_outcome_completed houtcomes,
      fun p hp => mem_of_mem_inOrder hp, .inr ⟨hmode.1, hmode.2, rfl⟩⟩

end IntentPlan.Batch
