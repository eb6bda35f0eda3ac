import IntentPlan.Proofs.Lifecycle
import IntentPlan.Proofs.Running

/-!
# The counts of a summary

A tally counts texts one by one, and at every moment it holds each text that has come so far, in the
order of their first occurrence, with the number of times that it has come (`Counts.concat`).

The results of a batch are the entries of payloads.  Whether an item was planned is said in four of
them, and they agree (`Settled`): a compilation that fails always says why, in an error that is not
empty (`Compiler.Course.error_ne_empty`).  So the counts that go by one of the entries are the
counts that go by another.
-/

namespace IntentPlan

/-! ## Tallies -/

namespace Batch

/-- How often each text occurs: every text that occurs has one place, in the order of first
occurrences, and all occurrences are counted. -/
structure Counts (texts : List String) (counts : Assoc Nat) : Prop where
  count (s : String) : (Assoc.get? s counts).getD 0 = texts.count s
  keys : Assoc.keys counts = texts.eraseDups
  sum : (counts.map Prod.snd).sum = texts.length

theorem sum_put_succ (s : String) (counts : Assoc Nat) :
    ((Assoc.put s ((Assoc.get? s counts).getD 0 + 1) counts).map Prod.snd).sum =
      (counts.map Prod.snd).sum + 1 := by
  induction counts with
  | nil => rfl
  | cons p rest ih =>
      obtain ⟨k, n⟩ := p
      by_cases hk : k = s
      · simp only [Assoc.get?, Assoc.put, if_pos hk, Option.getD_some, List.map_cons, List.sum_cons]
        omega
      · simp only [Assoc.get?, Assoc.put, if_neg hk, List.map_cons, List.sum_cons, ih]
        omega

/-- One more text is counted. -/
theorem Counts.concat {texts : List String} {counts : Assoc Nat} (h : Counts texts counts)
    (s : String) :
    Counts (texts ++ [s]) (Assoc.put s ((Assoc.get? s counts).getD 0 + 1) counts) := by
  refine ⟨fun k => ?_, ?_, ?_⟩
  · rw [Assoc.get?_put, List.count_append]
    by_cases hk : k = s
    · subst hk
      rw [if_pos rfl, Option.getD_some, h.count, List.count_singleton_self]
    · rw [if_neg hk, h.count, List.count_singleton, if_neg (by simpa using Ne.symm hk),
        Nat.add_zero]
  · rw [Assoc.keys_put, h.keys, List.eraseDups_append]
    by_cases hs : s ∈ texts
    · simp [hs, List.removeAll]
    · simp [hs, List.removeAll, List.eraseDups_cons]
  · rw [sum_put_succ, h.sum, List.length_append, List.length_singleton]

theorem counts_tally (texts : List String) : Counts texts (tally texts) := by
  induction texts using List.reverseRecOn with
  | nil => exact ⟨fun _ => rfl, rfl, rfl⟩
  | append_singleton texts s ih =>
      rw [tally, List.foldl_append]
      exact ih.concat s

/-! ## Summaries -/

/-- What a summary counts of any results. -/
theorem outcome_build_cases {results : List Result} {s s' : Session} {m : Summary}
    (h : (Summary.build results).outcome s = (.ok m, s')) :
    m.total = results.length ∧ m.ok = results.countP Result.ok ∧
      m.failed = results.countP (fun r => !r.ok) ∧
      m.strategyCounts = tally (results.filterMap Result.strategy?) ∧
      m.stageCounts = tally (results.map Result.stage) := by
  rw [Summary.build] at h
  split at h
  · cases h
  obtain ⟨elapsed, s₁, -, h⟩ := Work.outcome_bind_eq_ok_iff.1 h
  obtain ⟨costs, s₂, -, h⟩ := Work.outcome_bind_eq_ok_iff.1 h
  obtain ⟨generatedAt, s₃, -, h⟩ := Work.outcome_bind_eq_ok_iff.1 h
  cases h
  exact ⟨rfl, rfl, rfl, rfl, rfl⟩

/-- Every result is all right or it is not. -/
theorem countP_ok_add (results : List Result) :
    results.countP Result.ok + results.countP (fun r => !r.ok) = results.length := by
  rw [List.length_eq_countP_add_countP Result.ok]
  simp

end Batch

/-! ## Errors in words -/

theorem append_ne_empty {a : String} (h : a ≠ "") (b : String) : a ++ b ≠ "" :=
  fun he => h (String.append_eq_empty_iff.1 he).1

theorem intercalate_ne_empty {separator : String} {texts : List String} (hne : texts ≠ [])
    (h : ∀ s ∈ texts, s ≠ "") : String.intercalate separator texts ≠ "" := by
  cases texts with
  | nil => exact absurd rfl hne
  | cons s rest =>
      have hs := h s List.mem_cons_self
      cases rest with
      | nil => rwa [String.intercalate_singleton]
      | cons t rest =>
          rw [String.intercalate_cons_cons]
          exact append_ne_empty (append_ne_empty hs _) _

theorem Intent.Problem.message_ne_empty (problem : Intent.Problem) : problem.message ≠ "" := by
  cases problem with
  | noName => decide
  | noGoal => decide
  | noCapability => decide
  | tooComplex score limit =>
      have hlead : "Intent is too complex (score " ≠ "" := by decide
      exact append_ne_empty (append_ne_empty (append_ne_empty (append_ne_empty hlead _) _) _) _

theorem Datum.TextFault.message_ne_empty (e : Datum.TextFault) : e.message ≠ "" := by
  cases e with
  | tooManyDigits =>
      have hlead : "Exceeds the limit (" ≠ "" := by decide
      exact append_ne_empty (append_ne_empty (append_ne_empty hlead _) _) _

theorem LoweringError.message_ne_empty (e : LoweringError) : e.message ≠ "" := by
  have hquote : "'" ≠ "" := by decide
  cases e with
  | notDeclaration kind =>
      have hlead : "Invalid AST: expected IntentDeclaration, got " ≠ "" := by decide
      exact append_ne_empty hlead _
  | noFields kind => exact append_ne_empty (append_ne_empty hquote _) _
  | notStrings key => exact append_ne_empty (append_ne_empty hquote _) _
  | notText key => exact append_ne_empty (append_ne_empty hquote _) _
  | unwritable e => exact e.message_ne_empty

theorem SourceError.message_ne_empty (e : SourceError) : e.message ≠ "" := by
  cases e with
  | lex e =>
      have hlead : "Lex error at " ≠ "" := by decide
      exact append_ne_empty (append_ne_empty (append_ne_empty hlead _) _) _
  | parse e =>
      have hlead : "Parse error at " ≠ "" := by decide
      exact append_ne_empty (append_ne_empty (append_ne_empty hlead _) _) _
  | lowering e => exact e.message_ne_empty

namespace Planner

/-- The planner never refuses an intent without a word. -/
def StatesReasons (p : Planner) : Prop :=
  ∀ i s s' e, (p i).outcome s = (.error (.planning e), s') → e.message ≠ ""

/-- The steps of a strategy are missing for a reason that is not empty. -/
theorem message_ne_empty_of_steps {catalog : Catalog} {i : Intent} {strategy : String}
    {e : PlanError} (h : catalog.steps i strategy = .error (.planning e)) : e.message ≠ "" := by
  rw [Catalog.steps] at h
  split at h
  · cases h
    have hlead : "No step template for strategy '" ≠ "" := by decide
    exact append_ne_empty (append_ne_empty (append_ne_empty hlead _) _) _
  · split at h
    · cases h
    · cases h

theorem statesReasons_standard (registry : Registry) (catalog : Catalog)
    (prices : Estimate.PriceList) : (standard registry catalog prices).StatesReasons := by
  intro i s s' e h
  simp only [standard, Registry.select, Audit.entry, Work.outcome_bind, Work.outcome_readClock,
    Work.outcome_freshId, Work.outcome_noteAll, Work.outcome_pure, Work.outcome_ofExcept] at h
  cases hsteps : catalog.steps i (registry.choose i).strategy.name with
  | error failure =>
      rw [hsteps] at h
      cases h
      exact message_ne_empty_of_steps hsteps
  | ok steps =>
      rw [hsteps] at h
      dsimp only at h
      cases hcost : stepCost prices steps with
      | error failure =>
          rw [hcost] at h
          rw [stepCost] at hcost
          split at hcost
          · cases hcost
          · cases hcost
            cases h
      | ok cost =>
          rw [hcost] at h
          dsimp only at h
          cases hproblems : Plan.problems steps with
          | nil =>
              rw [hproblems] at h
              cases h
          | cons problem problems =>
              rw [hproblems] at h
              cases h
              have hlead : "Generated plan violates step ordering: " ≠ "" := by decide
              exact append_ne_empty hlead _

end Planner

/-- A compilation that fails says why. -/
theorem Compiler.Course.error_ne_empty {c : Compiler} {source : String} {s : Session}
    {r : Compilation} (h : Course c source s r) (hplanner : c.planner.StatesReasons) {e : String}
    (he : r.error? = some e) : e ≠ "" := by
  cases h with
  | @refused failure =>
      rw [Compilation.error?_ofSourceError] at he
      cases he
      exact failure.message_ne_empty
  | invalid _ hforbids =>
      cases he
      refine intercalate_ne_empty hforbids.2 fun complaint hcomplaint => ?_
      obtain ⟨problem, -, rfl⟩ := List.mem_map.1 hcomplaint
      exact problem.message_ne_empty
  | unplanned _ _ hplan =>
      cases he
      exact hplanner _ _ _ _ hplan
  | planned => cases he

namespace Batch

/-! ## The entries of payloads -/

namespace Payload

def stage : Payload → Stage
  | .failed _ _ => .received
  | .finished _ r _ _ _ => r.stage

def plan? : Payload → Option Plan
  | .failed _ _ => none
  | .finished _ r _ _ _ => r.plan?

/-- The error that is written down. -/
def error? : Payload → Option String
  | .failed _ e => some e.message
  | .finished _ r _ _ _ => r.error?.filter fun e => !e.isEmpty

theorem get?_ok_fields (p : Payload) : Assoc.get? "ok" p.fields = some (.bool p.ok) := by
  cases p <;> rfl

theorem get?_stage_fields (p : Payload) :
    Assoc.get? "stage" p.fields = some (.str p.stage.name) := by
  cases p <;> rfl

/-- Whatever the entries are that may be missing, those behind them are found. -/
theorem get?_fields (p : Payload) :
    Assoc.get? "error" p.fields = p.error?.map .str ∧
      Assoc.get? "strategy" p.fields = p.plan?.map (fun plan => .str plan.strategy.name) ∧
      Assoc.get? "estimated_cost" p.fields = p.plan?.map (fun plan => .float plan.cost) := by
  cases p with
  | failed index e => exact ⟨rfl, rfl, rfl⟩
  | finished index r elapsedMs explained artifacts =>
      rw [fields, errorFields, error?, plan?]
      cases r.error?.filter fun e => !e.isEmpty <;> cases r.plan? <;> cases explained <;>
        cases artifacts <;> exact ⟨rfl, rfl, rfl⟩

theorem ok_fields (p : Payload) : Result.ok p.fields = p.ok := by
  rw [Result.ok, Result.has, get?_ok_fields]
  rfl

theorem stage_fields (p : Payload) : Result.stage p.fields = p.stage.name := by
  rw [Result.stage, get?_stage_fields]
  rfl

theorem isTruthy_name (strategy : Strategy) : (Datum.str strategy.name).isTruthy = true := by
  cases strategy <;> rfl

/-- Stages and strategies are texts. -/
theorem isTextless_fields (p : Payload) : Result.isTextless p.fields = false := by
  rw [Result.isTextless, List.any_cons, List.any_cons, p.get?_stage_fields, p.get?_fields.2.1]
  cases p.plan? <;> rfl

/-- No strategy has an empty name, so that each is counted. -/
theorem strategy?_fields (p : Payload) :
    Result.strategy? p.fields = p.plan?.map fun plan => plan.strategy.name := by
  rw [Result.strategy?, p.get?_fields.2.1]
  cases p.plan? with
  | none => rfl
  | some plan => exact if_pos (isTruthy_name plan.strategy)

/-! Whether an item was planned, by its parts. -/

theorem ok_iff_stage (p : Payload) : p.ok = true ↔ p.stage = .planned := by
  cases p with
  | failed index e => exact iff_of_false Bool.false_ne_true nofun
  | finished index r elapsedMs explained artifacts => exact beq_iff_eq

theorem name_eq_planned_iff (stage : Stage) : stage.name = "planned" ↔ stage = .planned := by
  cases stage <;> decide

end Payload

/-- What the entries of a result say about whether its item was planned. -/
structure Settled (r : Result) : Prop where
  ok : Assoc.get? "ok" r = some (.bool r.ok)
  stage : r.ok = true ↔ Assoc.get? "stage" r = some (.str "planned")
  strategy : r.ok = true ↔ (Assoc.get? "strategy" r).isSome = true
  error : r.ok = true ↔ Assoc.get? "error" r = none

variable {c : Compiler} {options : Options}

/-- An item that was planned has a plan. -/
theorem ok_eq_isSome_plan?_of_outcome_runItem {job : Datum × Nat} {s s' : Session} {p : Payload}
    (h : (runItem c options job).outcome s = (.ok p, s')) : p.ok = p.plan?.isSome := by
  rcases outcome_runItem_cases h with ⟨e, rfl⟩ |
    ⟨source, r, elapsedMs, artifacts, s₁, s₂, s₃, rfl, -, hcompile, -, -⟩
  · rfl
  · rw [Bool.eq_iff_iff, Payload.ok_iff_stage]
    exact (Compiler.course_of_outcome hcompile).ended.plan?_isSome_iff.symm

/-- An item that was not planned has an error. -/
theorem ok_iff_error?_of_outcome_runItem (hplanner : c.planner.StatesReasons)
    {job : Datum × Nat} {s s' : Session} {p : Payload}
    (h : (runItem c options job).outcome s = (.ok p, s')) : p.ok = true ↔ p.error? = none := by
  rcases outcome_runItem_cases h with ⟨e, rfl⟩ |
    ⟨source, r, elapsedMs, artifacts, s₁, s₂, s₃, rfl, -, hcompile, -, -⟩
  · exact iff_of_false Bool.false_ne_true nofun
  · have hcourse := Compiler.course_of_outcome hcompile
    have hkept : r.error?.filter (fun e => !e.isEmpty) = r.error? := by
      cases he : r.error? with
      | none => rfl
      | some e =>
          have hne := hcourse.error_ne_empty hplanner he
          rw [Option.filter_some, if_pos (by simpa [String.isEmpty_iff] using hne)]
    rw [Payload.ok_iff_stage, Payload.error?, hkept]
    exact hcourse.ended.error?_eq_none_iff.symm

theorem settled_of_outcome_runItem (hplanner : c.planner.StatesReasons) {job : Datum × Nat}
    {s s' : Session} {p : Payload} (h : (runItem c options job).outcome s = (.ok p, s')) :
    Settled p.fields := by
  obtain ⟨herror, hstrategy, -⟩ := p.get?_fields
  constructor
  · rw [p.get?_ok_fields, p.ok_fields]
  · rw [p.ok_fields, p.ok_iff_stage, p.get?_stage_fields, Option.some.injEq, Datum.str.injEq,
      Payload.name_eq_planned_iff]
  · rw [p.ok_fields, ok_eq_isSome_plan?_of_outcome_runItem h, hstrategy, Option.isSome_map]
  · rw [p.ok_fields, ok_iff_error?_of_outcome_runItem hplanner h, herror, Option.map_eq_none_iff]

/-! ## Summaries of batches -/

/-- Where all values under a key are numbers, they are found. -/
theorem exists_numbers {key : String} {results : List Result}
    (h : ∀ r ∈ results, ∀ d, Assoc.get? key r = some d → ∃ x, d = .float x) :
    ∃ xs, numbers key results = .ok xs := by
  induction results with
  | nil => exact ⟨[], rfl⟩
  | cons r rest ih =>
      obtain ⟨xs, hxs⟩ := ih fun r' hr' => h r' (List.mem_cons_of_mem _ hr')
      rw [numbers]
      cases hfirst : (if r.ok then Assoc.get? key r else none) with
      | none => exact ⟨xs, hxs⟩
      | some d =>
          have hd : Assoc.get? key r = some d := by
            split at hfirst
            · exact hfirst
            · cases hfirst
          obtain ⟨x, rfl⟩ := h r List.mem_cons_self d hd
          have hfloat : (Datum.float x).toFloat = .ok x := rfl
          refine ⟨x :: xs, ?_⟩
          dsimp only
          rw [hfloat, hxs]

/-- A payload has only numbers where numbers are taken from. -/
theorem exists_outcome_build (ps : List Payload) (s : Session) :
    ∃ m s', (Summary.build (ps.map Payload.fields)).outcome s = (.ok m, s') := by
  obtain ⟨elapsed, helapsed⟩ : ∃ xs, numbers "elapsed_ms" (ps.map Payload.fields) = .ok xs := by
    refine exists_numbers fun r hr d hd => ?_
    obtain ⟨p, -, rfl⟩ := List.mem_map.1 hr
    cases p with
    | failed index e => cases hd
    | finished index r elapsedMs explained artifacts =>
        cases hd
        exact ⟨elapsedMs, rfl⟩
  obtain ⟨costs, hcosts⟩ : ∃ xs, numbers "estimated_cost" (ps.map Payload.fields) = .ok xs := by
    refine exists_numbers fun r hr d hd => ?_
    obtain ⟨p, -, rfl⟩ := List.mem_map.1 hr
    rw [p.get?_fields.2.2] at hd
    obtain ⟨plan, -, rfl⟩ := Option.map_eq_some_iff.1 hd
    exact ⟨plan.cost, rfl⟩
  have htexts : (ps.map Payload.fields).any Result.isTextless = false := by
    rw [List.any_map, List.any_eq_false]
    intro p _
    rw [Function.comp_apply, p.isTextless_fields]
    exact Bool.false_ne_true
  rw [Summary.build, htexts, helapsed, hcosts]
  exact ⟨_, _, rfl⟩

/-- The entries of the payloads agree, a summary of them can be made, and what it counts goes
together. -/
structure Balanced (ps : List Payload) : Prop where
  settled : ∀ p ∈ ps, Settled p.fields
  summary : ∀ s, ∃ m s', (Summary.build (ps.map Payload.fields)).outcome s = (.ok m, s') ∧
    m.ok = (Assoc.get? "planned" m.stageCounts).getD 0 ∧
    m.ok = (m.strategyCounts.map Prod.snd).sum ∧
    m.failed = ps.countP fun p => (Assoc.get? "error" p.fields).isSome

theorem balanced_of_runItem (hplanner : c.planner.StatesReasons) {ps : List Payload}
    (h : ∀ p ∈ ps, ∃ job s s', (runItem c options job).outcome s = (.ok p, s')) : Balanced ps := by
  have hsettled : ∀ p ∈ ps, Settled p.fields := by
    intro p hp
    obtain ⟨job, s, s', hrun⟩ := h p hp
    exact settled_of_outcome_runItem hplanner hrun
  refine ⟨hsettled, fun s => ?_⟩
  obtain ⟨m, s', hm⟩ := exists_outcome_build ps s
  obtain ⟨-, hok, hfailed, hstrategies, hstages⟩ := outcome_build_cases hm
  have hplanned : m.ok = ps.countP Payload.ok := by
    rw [hok, List.countP_map]
    exact List.countP_congr fun p _ => by rw [Function.comp_apply, p.ok_fields]
  refine ⟨m, s', hm, ?_, ?_, ?_⟩
  · rw [hstages, (counts_tally _).count, List.map_map, List.count, List.countP_map, hplanned]
    refine List.countP_congr fun p _ => ?_
    rw [Function.comp_apply, Function.comp_apply, p.stage_fields, p.ok_iff_stage, beq_iff_eq,
      Payload.name_eq_planned_iff]
  · rw [hstrategies, (counts_tally _).sum, List.filterMap_map, List.length_filterMap_eq_countP,
      hplanned]
    refine List.countP_congr fun p hp => ?_
    obtain ⟨job, s, s', hrun⟩ := h p hp
    rw [Function.comp_apply, p.strategy?_fields, Option.isSome_map,
      ok_eq_isSome_plan?_of_outcome_runItem hrun]
  · rw [hfailed, List.countP_map]
    refine List.countP_congr fun p hp => ?_
    rw [Function.comp_apply, Bool.not_eq_true', ← Bool.not_eq_true, (hsettled p hp).error,
      Option.isSome_iff_ne_none]

/-- A summary of any results counts each of them once as all right or failed, once by its stage, and
once by its strategy if it has one; the texts that are counted stand in the order in which they come
first.  In a batch every result is all right exactly if its stage is the last one, if it has a
strategy, and if it has no error, so that all these counts agree; and this is so however the items
are planned, also where items that run side by side get whatever times, ids and files they find.
All that is asked of the planner is that it does not refuse an intent without a word, and no
standard planner does. -/
theorem summary_conserves (c : Compiler) (options : Options) (items : List Datum) :
    (∀ (results : List Result) (s s' : Session) (m : Summary),
      (Summary.build results).outcome s = (.ok m, s') →
      m.total = results.length ∧ m.ok = results.countP Result.ok ∧ m.ok + m.failed = m.total ∧
      Counts (results.map Result.stage) m.stageCounts ∧
      Counts (results.filterMap Result.strategy?) m.strategyCounts) ∧
    (c.planner.StatesReasons → ∀ schedule : List Nat,
      (∀ (s s' : Session) (ps : List Payload),
        (plan c options schedule items).outcome s = (.ok ps, s') → Balanced ps) ∧
      ∀ (sessions : Nat → Session) (ps : List Payload),
        (apart c options sessions (jobs schedule items)).mapM id = .ok ps →
        Balanced (inOrder items.length ps)) ∧
    ∀ registry catalog prices, (Planner.standard registry catalog prices).StatesReasons := by
  refine ⟨?_, fun hplanner schedule => ⟨?_, ?_⟩, Planner.statesReasons_standard⟩
  · intro results s s' m hm
    obtain ⟨htotal, hok, hfailed, hstrategies, hstages⟩ := outcome_build_cases hm
    refine ⟨htotal, hok, ?_, ?_, ?_⟩
    · rw [hok, hfailed, htotal, countP_ok_add]
    · rw [hstages]
      exact counts_tally _
    · rw [hstrategies]
      exact counts_tally _
  · intro s s' ps hplan
    obtain ⟨s₁, ran, qs, -, hruns, hsub, -⟩ := exists_runs_of_outcome_plan hplan
    have hitems : ∀ p ∈ ps, ∃ job s s', (runItem c options job).outcome s = (.ok p, s') := by
      intro p hp
      obtain ⟨job, -, hrun⟩ := hruns.exists_runItem (hsub p hp)
      exact ⟨job, hrun⟩
    exact balanced_of_runItem hplanner hitems
  · intro sessions ps hps
    have hitems : ∀ p ∈ inOrder items.length ps,
        ∃ job s s', (runItem c options job).outcome s = (.ok p, s') := by
      intro p hp
      have hmem : .ok p ∈ apart c options sessions (jobs schedule items) := by
        rw [eq_map_ok_of_mapM hps]
        exact List.mem_map_of_mem (mem_of_mem_inOrder hp)
      obtain ⟨job, -, hrun⟩ := List.mem_map.1 hmem
      exact ⟨job, _, _, Prod.ext hrun rfl⟩
    exact balanced_of_runItem hplanner hitems

/-- An item that is planned, one that is no object and one whose source breaks off. -/
theorem summary_conserves_three :
    let items : List Datum := [.map [("source", .str "intent relay \x7b goal: 'pass it on' \x7d")],
      .null, .map [("source", .str "intent relay")]]
    let s : Session := ⟨.constant ⟨0⟩, .constant "a", .constant 0.0, [], {}, ""⟩
    ∃ ps s' m s'', (plan {} {} [] items).outcome s = (.ok ps, s') ∧ Balanced ps ∧
      (Summary.build (ps.map Payload.fields)).outcome s' = (.ok m, s'') ∧
      m.total = 3 ∧ m.ok = 1 ∧ m.failed = 2 ∧ Assoc.get? "planned" m.stageCounts = some 1 ∧
      (m.strategyCounts.map Prod.snd).sum = 1 := by
  intro items s
  have hoks : ((plan {} {} [] items).outcome s).1.toOption.map (List.map Payload.ok) =
      some [true, false, false] := by decide +kernel
  rcases hplan : (plan {} {} [] items).outcome s with ⟨e | ps, s'⟩
  · rw [hplan] at hoks
    cases hoks
  rw [hplan] at hoks
  obtain ⟨hcounts, hbatch, hstandard⟩ := summary_conserves {} {} items
  have hbalanced := (hbatch (hstandard _ _ _) []).1 s s' ps hplan
  obtain ⟨m, s'', hm, hstage, hstrategies, -⟩ := hbalanced.summary s'
  obtain ⟨htotal, hok, hsum, -, -⟩ := hcounts _ _ _ _ hm
  have hmap : ps.map Payload.ok = [true, false, false] := Option.some.inj hoks
  have hthree : m.total = 3 := by
    rw [htotal, List.length_map, ← List.length_map (f := Payload.ok), hmap]
    rfl
  have hone : m.ok = 1 := by
    have hcount : (ps.map Payload.ok).countP id = 1 := by
      rw [hmap]
      rfl
    rw [hok, ← hcount, List.countP_map, List.countP_map]
    exact List.countP_congr fun p _ => by rw [Function.comp_apply, p.ok_fields]; rfl
  refine ⟨ps, s', m, s'', rfl, hbalanced, hm, hthree, hone, by omega, ?_, hstrategies ▸ hone⟩
  rw [hone] at hstage
  cases hget : Assoc.get? "planned" m.stageCounts with
  | none =>
      rw [hget] at hstage
      cases hstage
  | some n =>
      rw [hget] at hstage
      exact congrArg some hstage.symm

end Batch

end IntentPlan
