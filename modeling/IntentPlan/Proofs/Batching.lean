import IntentPlan.Batch
import IntentPlan.Proofs.Acceptance
import IntentPlan.Proofs.Independence
import Mathlib.Data.List.Nodup
import Mathlib.Data.List.Perm.Basic

/-!
# Batches in any order

An item of a batch that writes no files always comes to a payload, and to the same one up to ids and
times wherever the same files are seen (`exists_yields`, `Yields.same`).  Payloads that come in any
order are put back into the order of their items (`inOrder_of_perm`).  So the items of a batch may
be planned side by side and end in any order, with the payloads that they have one after the other.
-/

namespace IntentPlan.Batch

open Work (Rel)

/-! ## Payloads without ids and times -/

namespace Payload

/-- The payload without the time that it took and the ids and times of its compilation. -/
def erased : Payload → Payload
  | .failed index e => .failed index e
  | .finished index compilation _ explained artifacts =>
    .finished index compilation.erased 0.0 explained artifacts

/-- The entries of the payload.  Of the two that depend on more than the item, the time and the
explanation, only the keys are left. -/
def shown (p : Payload) : Assoc Datum :=
  p.fields.map fun (key, d) =>
    (key, if key = "elapsed_ms" ∨ key = "explain" then .null else d)

theorem planFields_erased (plan? : Option Plan) :
    planFields (plan?.map Plan.erased) = planFields plan? := by
  cases plan? with
  | none => rfl
  | some plan => simp [planFields, Plan.erased]

theorem ofOption_name_erased (intent? : Option Intent) :
    Datum.ofOption (fun i => .str i.name) (intent?.map Intent.erased) =
      Datum.ofOption (fun i : Intent => .str i.name) intent? := by
  cases intent? <;> rfl

theorem shown_erased (p : Payload) : p.erased.shown = p.shown := by
  cases p with
  | failed index e => rfl
  | finished index r elapsedMs explained artifacts =>
      simp only [shown, erased, fields, Compilation.ok, Compilation.erased, planFields_erased,
        ofOption_name_erased, List.map_append]
      cases explained <;> rfl

/-- Payloads with the same entries but for the time that was measured, and with explanations that
are the same up to ids and times. -/
structure Same (p q : Payload) : Prop where
  shown : p.shown = q.shown
  erased : p.erased = q.erased

theorem Same.of_erased_eq {p q : Payload} (h : p.erased = q.erased) : Same p q := by
  refine ⟨?_, h⟩
  rw [← shown_erased, h, shown_erased]

end Payload

/-! ## One item -/

/-- Two runs that see these files. -/
def Sees (files f g : Files) : Prop := f = files ∧ g = files

theorem rel_loadSource (files : Files) (item : Datum) :
    Rel (Sees files) Eq (loadSource item) (loadSource item) := by
  unfold loadSource
  split
  · split
    · exact Rel.ofExcept_refl _
    · refine (Rel.ofExcept_refl _).bind ?_
      rintro text _ rfl
      exact (Rel.readFile (fun f g (h : Sees files f g) => h.1.trans h.2.symm) _).mapError _
    · exact Rel.throw _
  · exact Rel.throw _

theorem artifactsOf_none (index : Nat) (item : Datum) (r : Compilation) :
    artifactsOf none index item r = pure none := rfl

section

variable (config : Config) (registry : Registry) {options : Options} {files : Files}

theorem rel_planItem (hdir : options.artifactDir = none) (index : Nat) (item : Datum) :
    Rel (Sees files) (fun p q => p.erased = q.erased)
      (planItem { config, registry } options index item)
      (planItem { config, registry } options index item) := by
  refine ((rel_loadSource files item).mapError _).bind ?_
  rintro source _ rfl
  refine Rel.readStopwatch.bind ?_
  intro start start' _
  refine ((Compiler.rel_compile rfl Catalog.isDiscreet_builtin source).mapError _).bind ?_
  intro r r' hr
  refine Rel.readStopwatch.bind ?_
  intro stop stop' _
  rw [hdir, artifactsOf_none, artifactsOf_none]
  refine (Rel.mapError _ (Rel.pure rfl)).bind ?_
  rintro artifacts _ rfl
  refine Rel.pure ?_
  simp only [Payload.erased, hr]

theorem rel_runItem (hdir : options.artifactDir = none) (job : Datum × Nat) :
    Rel (Sees files) (fun p q => p.erased = q.erased) (runItem { config, registry } options job)
      (runItem { config, registry } options job) := by
  refine (rel_planItem config registry hdir job.2 job.1).attempt.bind ?_
  rintro _ _ (hpayload | (e | e))
  · exact Rel.pure hpayload
  · refine (Rel.noteAll _ _).bind ?_
    intro _ _ _
    exact Rel.pure rfl
  · exact Rel.throw e

/-- An item is planned, or it fails by a fault of its own. -/
theorem outcome_planItem_cases (options : Options) (index : Nat) (item : Datum) (s : Session) :
    (∃ p s', (planItem { config, registry } options index item).outcome s = (.ok p, s') ∧
      p.index = index) ∨
    ∃ e s', (planItem { config, registry } options index item).outcome s =
      (.error (.item e), s') := by
  rw [planItem, Work.outcome_bind, Work.outcome_mapError]
  rcases (loadSource item).outcome s with ⟨e | source, s₁⟩
  · exact .inr ⟨e, s₁, rfl⟩
  dsimp only [Except.mapError]
  rw [Work.outcome_bind, Work.outcome_readStopwatch]
  dsimp only
  obtain ⟨r, s₂, hr, -⟩ := Compiler.exists_outcome_compile config registry source
    { s₁ with stopwatch := s₁.stopwatch.rest }
  rw [Work.outcome_bind, Work.outcome_mapError, hr]
  dsimp only [Except.mapError]
  rw [Work.outcome_bind, Work.outcome_readStopwatch]
  dsimp only
  rw [Work.outcome_bind, Work.outcome_mapError]
  rcases (artifactsOf options.artifactDir index item r).outcome
    { s₂ with stopwatch := s₂.stopwatch.rest } with ⟨e | artifacts, s₃⟩
  · exact .inr ⟨_, _, rfl⟩
  · exact .inl ⟨_, _, rfl, rfl⟩

/-- Every item comes to a payload, and to one under its own place. -/
theorem exists_outcome_runItem (options : Options) (job : Datum × Nat) (s : Session) :
    ∃ p s', (runItem { config, registry } options job).outcome s = (.ok p, s') ∧
      p.index = job.2 := by
  rw [runItem, Work.outcome_attempt_bind]
  rcases outcome_planItem_cases config registry options job.2 job.1 s with
    ⟨p, s', hp, hindex⟩ | ⟨e, s', he⟩
  · rw [hp]
    exact ⟨p, s', rfl, hindex⟩
  · rw [he]
    exact ⟨_, _, rfl, rfl⟩

end

/-- Where these files are seen, the job can come to this payload. -/
def Yields (c : Compiler) (options : Options) (files : Files) (job : Datum × Nat) (p : Payload) :
    Prop :=
  ∃ s, s.files = files ∧ ((runItem c options job).outcome s).1 = .ok p

section

variable {config : Config} {registry : Registry} {options : Options} {files : Files}

theorem Yields.index {job : Datum × Nat} {p : Payload}
    (h : Yields { config, registry } options files job p) : p.index = job.2 := by
  obtain ⟨s, -, hp⟩ := h
  obtain ⟨q, s', hq, hindex⟩ := exists_outcome_runItem config registry options job s
  rw [hq] at hp
  cases hp
  exact hindex

theorem Yields.same (hdir : options.artifactDir = none) {job : Datum × Nat} {p q : Payload}
    (hp : Yields { config, registry } options files job p)
    (hq : Yields { config, registry } options files job q) : p.Same q := by
  obtain ⟨s, hs, hp⟩ := hp
  obtain ⟨t, ht, hq⟩ := hq
  obtain ⟨halike, -⟩ := rel_runItem config registry hdir job s t ⟨hs, ht⟩
  rw [hp, hq] at halike
  obtain ⟨herased⟩ := halike
  exact .of_erased_eq herased

theorem exists_yields (hdir : options.artifactDir = none) (job : Datum × Nat) {s : Session}
    (hs : s.files = files) :
    ∃ p s', (runItem { config, registry } options job).outcome s = (.ok p, s') ∧
      s'.files = files ∧ Yields { config, registry } options files job p := by
  obtain ⟨p, s', hp, -⟩ := exists_outcome_runItem config registry options job s
  obtain ⟨-, hfiles, -⟩ := rel_runItem config registry hdir job s s ⟨hs, hs⟩
  rw [hp] at hfiles
  exact ⟨p, s', hp, hfiles, s, hs, congrArg Prod.fst hp⟩

/-! ## Many items -/

theorem exists_sequential (hdir : options.artifactDir = none) (hfast : options.failFast = false)
    (jobs : List (Datum × Nat)) {s : Session} (hs : s.files = files) :
    ∃ ps s', (sequential { config, registry } options jobs).outcome s = (.ok ps, s') ∧
      List.Forall₂ (Yields { config, registry } options files) jobs ps := by
  induction jobs generalizing s with
  | nil => exact ⟨[], s, rfl, .nil⟩
  | cons job rest ih =>
      obtain ⟨p, s₁, hp, hs₁, hyields⟩ := exists_yields hdir job hs
      obtain ⟨ps, s₂, hps, hrest⟩ := ih hs₁
      refine ⟨p :: ps, s₂, ?_, .cons hyields hrest⟩
      rw [sequential, Work.outcome_bind, hp]
      dsimp only
      rw [hfast, Bool.false_and, if_neg Bool.false_ne_true, Work.outcome_bind, hps]
      rfl

theorem exists_completed (hdir : options.artifactDir = none) (jobs : List (Datum × Nat))
    {s : Session} (hs : s.files = files) :
    ∃ ps s', (completed { config, registry } options jobs).outcome s = (.ok (ps.map .ok), s') ∧
      List.Forall₂ (Yields { config, registry } options files) jobs ps := by
  induction jobs generalizing s with
  | nil => exact ⟨[], s, rfl, .nil⟩
  | cons job rest ih =>
      obtain ⟨p, s₁, hp, hs₁, hyields⟩ := exists_yields hdir job hs
      obtain ⟨ps, s₂, hps, hrest⟩ := ih hs₁
      refine ⟨p :: ps, s₂, ?_, .cons hyields hrest⟩
      rw [completed, Work.outcome_attempt_bind, hp, Work.outcome_bind, hps]
      rfl

/-- What jobs come to that run side by side, each of them with the times and ids that it happens to
get. -/
def apart (c : Compiler) (options : Options) (sessions : Nat → Session)
    (jobs : List (Datum × Nat)) : List (Except Estimate.Error Payload) :=
  jobs.map fun job => ((runItem c options job).outcome (sessions job.2)).1

theorem exists_apart (hdir : options.artifactDir = none) {sessions : Nat → Session}
    (hsessions : ∀ index, (sessions index).files = files) (jobs : List (Datum × Nat)) :
    ∃ ps, apart { config, registry } options sessions jobs = ps.map .ok ∧
      List.Forall₂ (Yields { config, registry } options files) jobs ps := by
  induction jobs with
  | nil => exact ⟨[], rfl, .nil⟩
  | cons job rest ih =>
      obtain ⟨p, s', hp, -, hyields⟩ := exists_yields hdir job (hsessions job.2)
      obtain ⟨ps, hps, hrest⟩ := ih
      refine ⟨p :: ps, ?_, .cons hyields hrest⟩
      rw [apart, List.map_cons, List.map_cons, hp]
      exact congrArg _ hps

theorem forall₂_same (hdir : options.artifactDir = none) {jobs : List (Datum × Nat)}
    {ps qs : List Payload}
    (hps : List.Forall₂ (Yields { config, registry } options files) jobs ps)
    (hqs : List.Forall₂ (Yields { config, registry } options files) jobs qs) :
    List.Forall₂ Payload.Same ps qs := by
  induction hps generalizing qs with
  | nil =>
      cases hqs
      exact .nil
  | cons hp _ ih =>
      cases hqs with
      | cons hq hqs => exact .cons (hp.same hdir hq) (ih hqs)

end

/-! ## Order -/

theorem filterMap_eq_self {α : Type} {f : α → Option α} {l : List α} (h : ∀ a ∈ l, f a = some a) :
    l.filterMap f = l :=
  (List.filterMap_congr h).trans List.filterMap_some

/-- Payloads that come in any order are put back into theirs. -/
theorem inOrder_of_perm {ps qs : List Payload} {n : Nat}
    (hindex : qs.map Payload.index = List.range n) (hperm : qs.Perm ps) : inOrder n ps = qs := by
  have hnodup : (ps.map Payload.index).Nodup := by
    rw [← (hperm.map _).nodup_iff, hindex]
    exact List.nodup_range
  rw [inOrder, ← hindex, List.filterMap_map]
  refine filterMap_eq_self ?_
  intro q hq
  have hmem : q ∈ ps := hperm.mem_iff.1 hq
  cases hfind : ps.find? fun p => p.index == q.index with
  | none => exact absurd BEq.rfl (List.find?_eq_none.1 hfind q hmem)
  | some p =>
      -- the payload that is found is the only one under its place
      have hsame : p.index = q.index := beq_iff_eq.1 (List.find?_some hfind :)
      have heq := List.inj_on_of_nodup_map hnodup (List.mem_of_find?_eq_some hfind) hmem hsame
      exact heq ▸ hfind

/-- The items with their places, in the order in which they end. -/
def jobs (schedule : List Nat) (items : List Datum) : List (Datum × Nat) :=
  schedule.filterMap fun index => items[index]?.map fun item => (item, index)

theorem map_snd_zipIdx (items : List Datum) :
    items.zipIdx.map Prod.snd = List.range items.length := by
  rw [List.zipIdx_map_snd, List.range_eq_range']

section

variable {schedule : List Nat} {items : List Datum}

theorem jobs_perm (h : schedule.Perm (List.range items.length)) :
    (jobs schedule items).Perm items.zipIdx := by
  refine (h.filterMap _).trans (.of_eq ?_)
  rw [← map_snd_zipIdx, List.filterMap_map]
  refine filterMap_eq_self ?_
  intro job hjob
  rw [Function.comp_apply, List.mem_zipIdx_iff_getElem?.1 hjob]
  rfl

theorem map_index_of_forall₂ {r : Datum × Nat → Payload → Prop}
    (hr : ∀ job p, r job p → p.index = job.2) {jobs : List (Datum × Nat)} {ps : List Payload}
    (h : List.Forall₂ r jobs ps) : ps.map Payload.index = jobs.map Prod.snd := by
  induction h with
  | nil => rfl
  | cons hp _ ih => rw [List.map_cons, List.map_cons, hr _ _ hp, ih]

theorem forall₂_inOrder {r : Datum × Nat → Payload → Prop}
    (hr : ∀ job p, r job p → p.index = job.2)
    (hschedule : schedule.Perm (List.range items.length)) {ps : List Payload}
    (h : List.Forall₂ r (jobs schedule items) ps) :
    List.Forall₂ r items.zipIdx (inOrder items.length ps) := by
  obtain ⟨qs, hqs, hperm⟩ := List.perm_comp_forall₂ (jobs_perm hschedule).symm h
  have hindex := (map_index_of_forall₂ hr hqs).trans (map_snd_zipIdx items)
  rw [inOrder_of_perm hindex hperm]
  exact hqs

/-! ## Batches -/

variable {c : Compiler} {options : Options}

theorem plan_of_none (hdir : options.artifactDir = none) :
    plan c options schedule items = if options.workers ≤ 1 || options.failFast then
        (sequential c options items.zipIdx).mapError .estimate
      else (parallel c options schedule items).mapError .estimate := by
  rw [plan, hdir]

theorem outcome_parallel {s s' : Session} {ps : List Payload}
    (h : (completed c options (jobs schedule items)).outcome s = (.ok (ps.map .ok), s')) :
    (parallel c options schedule items).outcome s = (.ok (inOrder items.length ps), s') := by
  have hcollect : (ps.map (Except.ok (ε := Estimate.Error))).mapM id = .ok ps := by
    rw [List.mapM_map]
    exact List.mapM_pure.trans (congrArg _ (List.map_id ps))
  change (completed c options (jobs schedule items) >>= _).outcome s = _
  rw [Work.outcome_bind, h]
  dsimp only
  rw [hcollect]
  rfl

end

/-- Items that are planned side by side, and end in any order, have the payloads of items that are
planned one after the other.  Nothing is thrown: every item has a payload of its own, in its own
place.  That is so as well where the items do not wait for each other, and each gets whatever times
and ids are next. -/
theorem plan_parallel_same (config : Config) (registry : Registry) {options : Options}
    (hdir : options.artifactDir = none) (hfast : options.failFast = false)
    (hworkers : 1 < options.workers) {workers : Int} (hsequential : workers ≤ 1)
    {schedule : List Nat} {items : List Datum}
    (hschedule : schedule.Perm (List.range items.length)) (schedule' : List Nat) (s t : Session)
    (hfiles : s.files = t.files) :
    let c : Compiler := { config, registry }
    ∃ ps qs s' t',
      (plan c options schedule items).outcome s = (.ok ps, s') ∧
      (plan c { options with workers } schedule' items).outcome t = (.ok qs, t') ∧
      ps.length = items.length ∧ ps.map Payload.index = List.range items.length ∧
      List.Forall₂ (Yields c options s.files) items.zipIdx ps ∧
      List.Forall₂ Payload.Same ps qs ∧
      ∀ sessions : Nat → Session, (∀ index, (sessions index).files = s.files) →
        ∃ rs, apart c options sessions (jobs schedule items) = rs.map .ok ∧
          List.Forall₂ Payload.Same (inOrder items.length rs) qs := by
  intro c
  have hindex : ∀ job p, Yields c options s.files job p → p.index = job.2 :=
    fun _ _ hyields => hyields.index
  obtain ⟨ps, s', hps, hended⟩ : ∃ ps s', (completed c options (jobs schedule items)).outcome s =
      (.ok (ps.map .ok), s') ∧ List.Forall₂ (Yields c options s.files) (jobs schedule items) ps :=
    exists_completed hdir _ rfl
  have hdir' : { options with workers }.artifactDir = none := hdir
  -- how many items are planned side by side makes no difference to one of them
  obtain ⟨qs, t', hqs, hfollowed⟩ : ∃ qs t',
      (sequential c { options with workers } items.zipIdx).outcome t = (.ok qs, t') ∧
        List.Forall₂ (Yields c options s.files) items.zipIdx qs :=
    exists_sequential hdir' hfast _ hfiles.symm
  have hordered := forall₂_inOrder hindex hschedule hended
  refine ⟨inOrder items.length ps, qs, s', t', ?_, ?_, ?_, ?_, hordered,
    forall₂_same hdir hordered hfollowed, ?_⟩
  · have hmany : ¬(options.workers ≤ 1 || options.failFast) = true := by
      simpa [hfast] using hworkers
    rw [plan_of_none hdir, if_neg hmany, Work.outcome_mapError, outcome_parallel hps]
    rfl
  · have hone : (workers ≤ 1 || options.failFast) = true := by
      simpa [hfast] using hsequential
    rw [plan_of_none hdir', if_pos hone, Work.outcome_mapError, hqs]
    rfl
  · rw [← hordered.length_eq, List.length_zipIdx]
  · rw [map_index_of_forall₂ hindex hordered, map_snd_zipIdx]
  · intro sessions hsessions
    obtain ⟨rs, hrs, hran⟩ := exists_apart hdir hsessions (jobs schedule items)
    exact ⟨rs, hrs, forall₂_same hdir (forall₂_inOrder hindex hschedule hran) hfollowed⟩

/-- An item that is planned, one that is no object and one whose source breaks off; the last ends
first. -/
theorem plan_parallel_same_three :
    let items : List Datum := [.map [("source", .str "intent relay \x7b goal: 'pass it on' \x7d")],
      .null, .map [("source", .str "intent relay")]]
    let options : Options := { includeExplain := true, workers := 4 }
    let s : Session := ⟨.constant ⟨0⟩, .constant "a", .constant 0.0, [], {}, ""⟩
    let t : Session := ⟨.constant ⟨7⟩, .constant "b", .constant 1.0, [], {}, ""⟩
    ∃ ps qs s' t',
      (plan {} options [2, 0, 1] items).outcome s = (.ok ps, s') ∧
      (plan {} { options with workers := 1 } [] items).outcome t = (.ok qs, t') ∧
      ps.map Payload.ok = [true, false, false] ∧ ps.map Payload.index = [0, 1, 2] ∧
      List.Forall₂ Payload.Same ps qs := by
  intro items options s t
  have hdir : options.artifactDir = none := rfl
  have hschedule : [2, 0, 1].Perm (List.range items.length) := by decide
  obtain ⟨ps, qs, s', t', hps, hqs, -, hindex, -, hsame, -⟩ :=
    plan_parallel_same {} .default hdir rfl (by decide) (le_refl 1) hschedule [] s t rfl
  have hok : ((plan {} options [2, 0, 1] items).outcome s).1.toOption.map (List.map Payload.ok) =
      some [true, false, false] := by decide +kernel
  rw [hps] at hok
  exact ⟨ps, qs, s', t', hps, hqs, Option.some.inj hok, hindex, hsame⟩

end IntentPlan.Batch
