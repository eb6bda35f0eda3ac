import IntentPlan.Proofs.Assoc
import IntentPlan.Proofs.Dependencies
import IntentPlan.Proofs.Outcome
import IntentPlan.Proofs.Sorting
import Mathlib.Data.String.Basic

/-!
# The schedule of a walk

A walk takes the steps that can be satisfied, level by level.  What a round takes are the steps of
the next height, in the order of their places (`AtLevel.round`), and when nothing is left to take
all others can never be satisfied (`AtLevel.schedule`).  So the steps that were taken stand in the
order of their heights, then of their orders, then of their places in the plan (`exists_schedule`).
-/

namespace IntentPlan.Plan.Walk

/-! ## The entries of a plan -/

namespace Job

variable (j : Job)

def found : Found := ⟨.str j.id, .str j.id, j.body⟩

/-- A job as a walk finds it. -/
def entry : Entry := { j.found with dependencies := j.dependencies.map .str }

/-- The line that is printed for a job. -/
def line : String :=
  "run " ++ j.id ++ ": " ++ j.kind.display ++ "/" ++ j.action.display ++ " (timeout " ++
    j.timeout.display ++ "ms, up to " ++ j.attempts.display ++ " attempts)"

theorem idOf_body : idOf j.body = .ok (.str j.id) := by
  rw [idOf, j.field_id]

theorem entry_found : j.found.entry = .ok j.entry := by
  rw [Found.entry, found, j.field_dependencies]
  rfl

theorem keyed_entry : j.entry.keyed = .ok (.int j.order, j.entry) := by
  change (j.body.field "order" >>= fun order => pure (order, j.entry)) = _
  rw [j.field_order]
  rfl

theorem line_entry : j.entry.line = .ok j.line := by
  simp only [Entry.line, entry, found, j.field_policy, j.field_kind, j.field_action,
    j.field_timeout]
  change (j.policy.field "max_attempts" >>= _) = _
  rw [j.field_attempts]
  rfl

def keyed : String × Job := (j.id, j)

end Job

/-- The last step of every id, at the place where the id stands first. -/
def latest (jobs : List Job) : List Job :=
  (jobs.map Job.id).eraseDups.filterMap fun id => jobs.reverse.find? fun j => j.id == id

theorem keys_keyed (jobs : List Job) : Assoc.keys (jobs.map Job.keyed) = jobs.map Job.id := by
  rw [Assoc.keys, List.map_map]
  rfl

theorem find?_keyed (id : String) (jobs : List Job) :
    (Assoc.get? id (jobs.map Job.keyed)).map (Prod.mk id) =
      (jobs.find? fun j => j.id == id).map Job.keyed := by
  induction jobs with
  | nil => rfl
  | cons j jobs ih =>
      rw [List.map_cons, Job.keyed, Assoc.get?, List.find?_cons]
      by_cases h : j.id = id
      · subst h
        simp [Job.keyed]
      · rw [if_neg h, ih, beq_eq_false_iff_ne.2 h]

/-- Steps that are written under their ids one after the other leave the last of every id. -/
theorem ofList_keyed (jobs : List Job) :
    Assoc.ofList (jobs.map Job.keyed) = (latest jobs).map Job.keyed := by
  rw [← Assoc.filterMap_get?_keys (Assoc.nodup_keys_ofList (jobs.map Job.keyed)),
    Assoc.keys_ofList, keys_keyed, latest, List.map_filterMap]
  refine List.filterMap_congr fun id _ => ?_
  rw [Assoc.get?_ofList, ← List.map_reverse, find?_keyed]

theorem nodup_latest (jobs : List Job) : ((latest jobs).map Job.id).Nodup := by
  have hnodup := Assoc.nodup_keys_ofList (jobs.map Job.keyed)
  rwa [ofList_keyed, keys_keyed] at hnodup

/-- Of steps with different ids none replaces another. -/
theorem latest_of_nodup {jobs : List Job} (h : (jobs.map Job.id).Nodup) : latest jobs = jobs := by
  have hkeyed : Function.Injective Job.keyed := fun a b hab => congrArg Prod.snd hab
  rw [← keys_keyed] at h
  apply hkeyed.list_map
  rw [← ofList_keyed, Assoc.ofList_of_nodup h]

theorem same_str (a b : String) : (Datum.str a).same (.str b) = (a == b) := by
  rw [Datum.same]

def foundUnder (p : String × Job) : Found := ⟨.str p.1, .str p.2.id, p.2.body⟩

theorem insert_foundUnder (j : Job) (m : Assoc Job) :
    insert (.str j.id) j.body (m.map foundUnder) = (Assoc.put j.id j m).map foundUnder := by
  induction m with
  | nil => rfl
  | cons p m ih =>
      obtain ⟨k, j'⟩ := p
      have hsame : (foundUnder (k, j')).key.same (.str j.id) = (k == j.id) := same_str k j.id
      rw [List.map_cons, insert, hsame, Assoc.put]
      by_cases h : k = j.id
      · rw [if_pos (beq_iff_eq.2 h), if_pos h]
        rfl
      · rw [if_neg (mt beq_iff_eq.1 h), if_neg h, ih]
        rfl

theorem collect_foundUnder (m : Assoc Job) (jobs : List Job) :
    collect (m.map foundUnder) (jobs.map Job.body) =
      .ok ((Assoc.putAll m (jobs.map Job.keyed)).map foundUnder) := by
  induction jobs generalizing m with
  | nil => rfl
  | cons j jobs ih =>
      simp only [List.map_cons, collect, j.idOf_body, insert_foundUnder, ih]
      rfl

theorem collect_body (jobs : List Job) :
    collect [] (jobs.map Job.body) = .ok ((latest jobs).map Job.found) := by
  have hcollect := collect_foundUnder [] jobs
  change _ = Except.ok ((Assoc.ofList (jobs.map Job.keyed)).map foundUnder) at hcollect
  rw [ofList_keyed, List.map_map] at hcollect
  exact hcollect

theorem mapM_eq_ok {ε α β : Type} {f : α → Except ε β} {g : α → β} (h : ∀ a, f a = .ok (g a))
    (xs : List α) : xs.mapM f = .ok (xs.map g) := by
  obtain rfl : f = fun a => .ok (g a) := funext h
  exact List.mapM_pure

/-- A plan whose steps are these jobs.  A plan that says nothing of steps has none. -/
def Holds (plan : Datum) (jobs : List Job) : Prop :=
  ∃ steps, plan.optionalField "steps" = .ok steps ∧
    steps.getD (.list []) = .list (jobs.map Job.body)

/-- The entries of a plan are the last steps of its ids. -/
theorem entries_of_holds {plan : Datum} {jobs : List Job} (h : Holds plan jobs) :
    entries plan = .ok ((latest jobs).map Job.entry) := by
  obtain ⟨steps, hsteps, hbodies⟩ := h
  have hentries : ((latest jobs).map Job.found).mapM Found.entry =
      .ok ((latest jobs).map Job.entry) := by
    rw [List.mapM_map]
    exact mapM_eq_ok Job.entry_found (latest jobs)
  rw [entries, hsteps]
  change ((steps.getD (.list [])).contents.mapError Error.access >>= fun bodies =>
    collect [] bodies >>= fun steps => (steps.mapM Found.entry).mapError Error.access) = _
  rw [hbodies]
  change (collect [] (jobs.map Job.body) >>= fun steps =>
    (steps.mapM Found.entry).mapError Error.access) = _
  rw [collect_body]
  change (((latest jobs).map Job.found).mapM Found.entry).mapError Error.access = _
  rw [hentries]
  rfl

/-! ## One round -/

/-- Whether all dependencies of a job are done. -/
def canRun (done : List String) (j : Job) : Bool := j.dependencies.all fun d => d ∈ done

theorem canRun_iff {done : List String} {j : Job} :
    canRun done j = true ↔ ∀ d ∈ j.dependencies, d ∈ done := by
  simp [canRun]

theorem isReady_entry (done : List String) (j : Job) :
    j.entry.isReady (done.map .str) = canRun done j := by
  rw [Bool.eq_iff_iff, canRun_iff]
  simp [Entry.isReady, Job.entry, same_str]

theorem ready_entry (done : List String) (pending : List Job) :
    ready (done.map .str) (pending.map Job.entry) =
      (pending.filter (canRun done)).map Job.entry := by
  rw [ready, List.filter_map]
  congr 2
  funext j
  exact isReady_entry done j

theorem waiting_entry (done : List String) (pending : List Job) :
    waiting (done.map .str) (pending.map Job.entry) =
      (pending.filter fun j => !canRun done j).map Job.entry := by
  rw [waiting, List.filter_map]
  congr 2
  funext j
  exact congrArg not (isReady_entry done j)

/-- The jobs of a round in the order of their places. -/
def nextRound (done : List String) (pending : List Job) : List Job :=
  Sorting.sorted (Sorting.byKey Job.order) (pending.filter (canRun done))

theorem sortByKey_map {α β κ : Type} [LinearOrder κ] {key : α → Datum} {weight : α → κ}
    (h : ∀ a b, (key a).less (key b) = pure (Sorting.byKey weight a b)) (value : α → β)
    (xs : List α) :
    Datum.sortByKey (xs.map fun x => (key x, value x)) =
      .ok ((Sorting.sorted (Sorting.byKey weight) xs).map fun x => (key x, value x)) := by
  rw [Datum.sortByKey]
  exact Sorting.sort_map (f := fun x => (key x, value x)) h xs

theorem less_order (a b : Job) :
    (Datum.int a.order).less (.int b.order) = pure (Sorting.byKey Job.order a b) := by
  simp [Datum.less, Datum.magnitude?, Datum.Magnitude.ofInt, Datum.Magnitude.less, Sorting.byKey,
    pure, Except.pure]

theorem inOrder_entry (jobs : List Job) :
    inOrder (jobs.map Job.entry) =
      .ok ((Sorting.sorted (Sorting.byKey Job.order) jobs).map Job.entry) := by
  have hkeyed : (jobs.map Job.entry).mapM Entry.keyed =
      .ok (jobs.map fun j => (Datum.int j.order, j.entry)) := by
    rw [List.mapM_map]
    exact mapM_eq_ok Job.keyed_entry jobs
  rw [inOrder, hkeyed]
  change ((Datum.sortByKey _).mapError Error.order >>= fun sorted => pure (sorted.map Prod.snd)) = _
  rw [sortByKey_map less_order]
  change Except.ok _ = Except.ok _
  rw [List.map_map]
  rfl

/-- The lines of jobs, one below the other. -/
def printout : List Job → String
  | [] => ""
  | j :: jobs => j.line ++ "\n" ++ printout jobs

theorem printout_append (jobs more : List Job) :
    printout (jobs ++ more) = printout jobs ++ printout more := by
  induction jobs with
  | nil => rw [List.nil_append, printout, String.empty_append]
  | cons j jobs ih => simp only [List.cons_append, printout, ih, String.append_assoc]

theorem outcome_printAll (jobs : List Job) (s : Session) :
    (printAll (jobs.map Job.entry)).outcome s =
      (.ok (), { s with printed := s.printed ++ printout jobs }) := by
  induction jobs generalizing s with
  | nil =>
      rw [printout, String.append_empty]
      rfl
  | cons j jobs ih =>
      simp only [List.map_cons, printAll, j.line_entry, Work.outcome_bind, Work.outcome_ofExcept,
        Except.mapError, Work.outcome_print, ih, printout, String.append_assoc]

/-- A round takes the jobs that can run, and leaves the others. -/
theorem outcome_rounds_of_canRun {done : List String} {pending : List Job}
    (h : ∃ j ∈ pending, canRun done j = true) (s : Session) :
    (rounds (done.map .str) (pending.map Job.entry)).outcome s =
      (rounds ((done ++ (nextRound done pending).map Job.id).map .str)
        ((pending.filter fun j => !canRun done j).map Job.entry)).outcome
          { s with printed := s.printed ++ printout (nextRound done pending) } := by
  obtain ⟨j, hj, hcan⟩ := h
  have hne : ¬(pending.map Job.entry).isEmpty = true := by
    rw [List.isEmpty_iff, List.map_eq_nil_iff]
    exact List.ne_nil_of_mem hj
  have hfewer : (waiting (done.map .str) (pending.map Job.entry)).length <
      (pending.map Job.entry).length := by
    rw [waiting_entry, List.length_map, List.length_map, List.length_filter_lt_length_iff_exists]
    exact ⟨j, hj, by simp [hcan]⟩
  have hround : inOrder (ready (done.map .str) (pending.map Job.entry)) =
      .ok ((nextRound done pending).map Job.entry) := by
    rw [ready_entry, inOrder_entry, nextRound]
  have hdone : done.map Datum.str ++ ((nextRound done pending).map Job.entry).map (·.id) =
      (done ++ (nextRound done pending).map Job.id).map .str := by
    rw [List.map_append, List.map_map, List.map_map]
    rfl
  rw [rounds, if_neg hne, dif_pos hfewer, hround, waiting_entry]
  simp only [Work.outcome_bind, Work.outcome_ofExcept, outcome_printAll, hdone]

/-- What a walk gives when it can take no other job. -/
def ending (done : List String) (pending : List Job) : Except Error (List Datum) :=
  if pending.isEmpty then .ok (done.map .str) else .error (stuck (pending.map Job.entry))

theorem outcome_rounds_of_not_canRun {done : List String} {pending : List Job}
    (h : ∀ j ∈ pending, canRun done j = false) (s : Session) :
    (rounds (done.map .str) (pending.map Job.entry)).outcome s = (ending done pending, s) := by
  have hwaiting : waiting (done.map .str) (pending.map Job.entry) = pending.map Job.entry := by
    rw [waiting_entry, List.filter_eq_self.2 fun j hj => by rw [h j hj]; rfl]
  rw [rounds, hwaiting, dif_neg (lt_irrefl _), ending]
  cases pending with
  | nil => rfl
  | cons j pending => rfl

/-- The ids that can be satisfied by chains of dependencies below a length. -/
def Below (steps : List Job) (k : Nat) (id : String) : Prop :=
  Satisfiable steps id ∧ height steps id < k

/-- Up to a level all is taken, in order, and nothing else. -/
structure AtLevel (steps : List Job) (k : Nat) (taken pending : List Job) : Prop where
  mem_taken : ∀ j, j ∈ taken ↔ j ∈ steps ∧ Below steps k j.id
  sublist : pending.Sublist steps
  mem_pending : ∀ j ∈ steps, j ∈ pending ↔ ¬Below steps k j.id
  sorted : taken.Pairwise fun a b => rank steps a < rank steps b

/-- All steps that can be satisfied are taken in the order of their ranks, and the others are left
as they stand. -/
structure Schedule (steps taken left : List Job) : Prop where
  mem_taken : ∀ j, j ∈ taken ↔ j ∈ steps ∧ Satisfiable steps j.id
  sublist : left.Sublist steps
  mem_left : ∀ j ∈ steps, j ∈ left ↔ ¬Satisfiable steps j.id
  sorted : taken.Pairwise fun a b => rank steps a < rank steps b

theorem rank_lt_iff {steps : List Job} {a b : Job} :
    rank steps a < rank steps b ↔ height steps a.id < height steps b.id ∨
      height steps a.id = height steps b.id ∧
        Sorting.KeyedBefore Job.order (fun a b => place steps a < place steps b) a b := by
  rw [rank, rank, Prod.Lex.toLex_lt_toLex, Prod.Lex.toLex_lt_toLex]
  rfl

section Distinct

variable {steps : List Job} (hsteps : (steps.map Job.id).Nodup)
include hsteps

theorem below_succ_iff {j : Job} (hj : j ∈ steps) {k : Nat} :
    Below steps (k + 1) j.id ↔ ∀ d ∈ j.dependencies, Below steps k d := by
  constructor
  · rintro ⟨hsat, hlt⟩ d hd
    exact ⟨(satisfiable_iff hsteps hj).1 hsat d hd,
      (height_le_iff hsteps hj hsat).1 (Nat.le_of_lt_succ hlt) d hd⟩
  · intro h
    have hsat : Satisfiable steps j.id := .intro hj fun d hd => (h d hd).1
    exact ⟨hsat, Nat.lt_succ_of_le ((height_le_iff hsteps hj hsat).2 fun d hd => (h d hd).2)⟩

namespace AtLevel

variable {k : Nat} {taken pending : List Job}

omit hsteps in
theorem initial (steps : List Job) : AtLevel steps 0 [] steps := by
  have hnone (id : String) : ¬Below steps 0 id := fun h => Nat.not_lt_zero _ h.2
  refine ⟨fun j => ?_, .refl steps, fun j hj => ?_, .nil⟩
  · simp [hnone]
  · simp [hj, hnone]

omit hsteps in
theorem mem_done_iff (h : AtLevel steps k taken pending) {id : String} :
    id ∈ taken.map Job.id ↔ Below steps k id := by
  rw [List.mem_map]
  constructor
  · rintro ⟨j, hj, rfl⟩
    exact ((h.mem_taken j).1 hj).2
  · intro hbelow
    obtain ⟨j, hj, rfl⟩ := hbelow.1.exists_job
    exact ⟨j, (h.mem_taken j).2 ⟨hj, hbelow⟩, rfl⟩

/-- What can run are the steps of the next level. -/
theorem canRun_iff_below (h : AtLevel steps k taken pending) {j : Job} (hj : j ∈ steps) :
    canRun (taken.map Job.id) j = true ↔ Below steps (k + 1) j.id := by
  rw [canRun_iff, below_succ_iff hsteps hj]
  exact forall₂_congr fun d _ => h.mem_done_iff

theorem mem_nextRound_iff (h : AtLevel steps k taken pending) {j : Job} :
    j ∈ nextRound (taken.map Job.id) pending ↔
      j ∈ steps ∧ Satisfiable steps j.id ∧ height steps j.id = k := by
  rw [nextRound, (Sorting.sorted_perm _).mem_iff, List.mem_filter]
  constructor
  · rintro ⟨hpending, hcan⟩
    have hj := h.sublist.subset hpending
    obtain ⟨hsat, hlt⟩ := (h.canRun_iff_below hsteps hj).1 hcan
    refine ⟨hj, hsat, Nat.le_antisymm (Nat.le_of_lt_succ hlt) ?_⟩
    exact not_lt.1 fun hlow => (h.mem_pending j hj).1 hpending ⟨hsat, hlow⟩
  · rintro ⟨hj, hsat, hheight⟩
    refine ⟨(h.mem_pending j hj).2 fun hbelow => hbelow.2.ne hheight, ?_⟩
    exact (h.canRun_iff_below hsteps hj).2 ⟨hsat, hheight ▸ Nat.lt_succ_self k⟩

theorem pairwise_nextRound (h : AtLevel steps k taken pending) :
    (nextRound (taken.map Job.id) pending).Pairwise fun a b => rank steps a < rank steps b := by
  have hplaces := ((pairwise_place hsteps).sublist h.sublist).filter (canRun (taken.map Job.id))
  refine (Sorting.pairwise_sorted hplaces).imp_of_mem fun ha hb hab => ?_
  have ha := ((h.mem_nextRound_iff hsteps).1 ha).2.2
  have hb := ((h.mem_nextRound_iff hsteps).1 hb).2.2
  exact rank_lt_iff.2 (.inr ⟨ha.trans hb.symm, hab⟩)

/-- A round goes up by one level. -/
theorem round (h : AtLevel steps k taken pending) :
    AtLevel steps (k + 1) (taken ++ nextRound (taken.map Job.id) pending)
      (pending.filter fun j => !canRun (taken.map Job.id) j) := by
  constructor
  · intro j
    rw [List.mem_append, h.mem_taken, h.mem_nextRound_iff hsteps, Below, Below,
      Nat.lt_succ_iff_lt_or_eq]
    tauto
  · exact List.filter_sublist.trans h.sublist
  · intro j hj
    rw [List.mem_filter, h.mem_pending j hj, Bool.not_eq_true', ← Bool.not_eq_true,
      h.canRun_iff_below hsteps hj]
    refine and_iff_right_of_imp fun hnot hbelow => hnot ⟨hbelow.1, ?_⟩
    exact hbelow.2.trans (Nat.lt_succ_self k)
  · refine List.pairwise_append.2 ⟨h.sorted, h.pairwise_nextRound hsteps, fun a ha b hb => ?_⟩
    have hlow := ((h.mem_taken a).1 ha).2.2
    have hlevel := ((h.mem_nextRound_iff hsteps).1 hb).2.2
    exact rank_lt_iff.2 (.inl (hlevel ▸ hlow))

/-- Where nothing can run any more, all that can be satisfied is taken. -/
theorem satisfiable_iff_below (h : AtLevel steps k taken pending)
    (hstuck : ∀ j ∈ pending, canRun (taken.map Job.id) j = false) {id : String} :
    Satisfiable steps id ↔ Below steps k id := by
  refine ⟨fun hsat => ?_, And.left⟩
  induction hsat with
  | @intro j hj _ ih =>
      by_contra hnot
      have hcan := (h.canRun_iff_below hsteps hj).2 ((below_succ_iff hsteps hj).2 ih)
      rw [hstuck j ((h.mem_pending j hj).2 hnot)] at hcan
      cases hcan

theorem schedule (h : AtLevel steps k taken pending)
    (hstuck : ∀ j ∈ pending, canRun (taken.map Job.id) j = false) :
    Schedule steps taken pending := by
  refine ⟨fun j => ?_, h.sublist, fun j hj => ?_, h.sorted⟩
  · rw [h.mem_taken, h.satisfiable_iff_below hsteps hstuck]
  · rw [h.mem_pending j hj, h.satisfiable_iff_below hsteps hstuck]

end AtLevel

/-! ## All rounds -/

/-- From any level the rounds go on to the schedule of the steps. -/
theorem exists_rounds {k : Nat} {taken pending : List Job} (h : AtLevel steps k taken pending) :
    ∃ more left, Schedule steps (taken ++ more) left ∧ ∀ s,
      (rounds ((taken.map Job.id).map .str) (pending.map Job.entry)).outcome s =
        (ending ((taken ++ more).map Job.id) left,
          { s with printed := s.printed ++ printout more }) := by
  -- on the number of pending jobs, of which every round but the last takes one at least
  induction hlength : pending.length using Nat.strong_induction_on
    generalizing k taken pending with
  | _ n ih =>
      by_cases hcan : ∃ j ∈ pending, canRun (taken.map Job.id) j = true
      · have hfewer : (pending.filter fun j => !canRun (taken.map Job.id) j).length < n := by
          obtain ⟨j, hj, hcan⟩ := hcan
          rw [← hlength, List.length_filter_lt_length_iff_exists]
          exact ⟨j, hj, by simp [hcan]⟩
        obtain ⟨more, left, hschedule, hrest⟩ := ih _ hfewer (h.round hsteps) rfl
        refine ⟨nextRound (taken.map Job.id) pending ++ more, left, ?_, fun s => ?_⟩
        · rwa [← List.append_assoc]
        · rw [outcome_rounds_of_canRun hcan, ← List.map_append, hrest, List.append_assoc,
            printout_append, String.append_assoc]
      · have hstuck : ∀ j ∈ pending, canRun (taken.map Job.id) j = false :=
          fun j hj => Bool.eq_false_iff.2 fun hj' => hcan ⟨j, hj, hj'⟩
        refine ⟨[], pending, ?_, fun s => ?_⟩
        · rw [List.append_nil]
          exact h.schedule hsteps hstuck
        · rw [outcome_rounds_of_not_canRun hstuck, List.append_nil, printout, String.append_empty]

namespace Schedule

variable {taken left : List Job}

theorem nodup (h : Schedule steps taken left) : (taken.map Job.id).Nodup := by
  refine List.pairwise_map.2 (h.sorted.imp_of_mem fun {a b} ha hb hab hid => ?_)
  obtain rfl := eq_of_id hsteps ((h.mem_taken a).1 ha).1 ((h.mem_taken b).1 hb).1 hid
  exact lt_irrefl _ hab

theorem idxOf_lt (h : Schedule steps taken left) {a b : Job} (ha : a ∈ taken) (hb : b ∈ taken)
    (hab : rank steps a < rank steps b) :
    (taken.map Job.id).idxOf a.id < (taken.map Job.id).idxOf b.id := by
  obtain ⟨i, hi, rfl⟩ := List.getElem_of_mem ha
  obtain ⟨k, hk, rfl⟩ := List.getElem_of_mem hb
  rw [idxOf_id_getElem (h.nodup hsteps) hi, idxOf_id_getElem (h.nodup hsteps) hk]
  rcases lt_trichotomy i k with hlt | rfl | hgt
  · exact hlt
  · exact absurd hab (lt_irrefl _)
  · exact absurd hab (List.pairwise_iff_getElem.1 h.sorted k i hk hi hgt).asymm

/-- What is taken stands behind all that it depends on. -/
theorem behind (h : Schedule steps taken left) {j : Job} (hj : j ∈ taken) {d : String}
    (hd : d ∈ j.dependencies) :
    (taken.map Job.id).idxOf d < (taken.map Job.id).idxOf j.id := by
  obtain ⟨hmem, hsat⟩ := (h.mem_taken j).1 hj
  have hneeds := (needs_iff hsteps hmem).2 hd
  have hdsat := hsat.of_needs hsteps hneeds
  obtain ⟨t, ht, rfl⟩ := hdsat.exists_job
  exact h.idxOf_lt hsteps ((h.mem_taken t).2 ⟨ht, hdsat⟩) hj
    (rank_lt_iff.2 (.inl (height_lt_of_needs hsteps hsat hneeds)))

theorem perm (h : Schedule steps taken left) : (taken ++ left).Perm steps := by
  have hnodup : (taken ++ left).Nodup := by
    refine List.nodup_append.2 ⟨(h.nodup hsteps).of_map, h.sublist.nodup hsteps.of_map, ?_⟩
    rintro j hj _ hleft rfl
    obtain ⟨hmem, hsat⟩ := (h.mem_taken j).1 hj
    exact (h.mem_left j hmem).1 hleft hsat
  refine (List.perm_ext_iff_of_nodup hnodup hsteps.of_map).2 fun j => ?_
  rw [List.mem_append, h.mem_taken]
  constructor
  · rintro (hj | hj)
    · exact hj.1
    · exact h.sublist.subset hj
  · intro hj
    by_cases hsat : Satisfiable steps j.id
    · exact .inl ⟨hj, hsat⟩
    · exact .inr ((h.mem_left j hj).2 hsat)

omit hsteps in
theorem left_eq_nil_iff (h : Schedule steps taken left) :
    left = [] ↔ ∀ j ∈ steps, Satisfiable steps j.id := by
  rw [List.eq_nil_iff_forall_not_mem]
  constructor
  · intro hnone j hj
    exact not_not.1 (mt (h.mem_left j hj).2 (hnone j))
  · intro hall j hj
    exact (h.mem_left j (h.sublist.subset hj)).1 hj (hall j (h.sublist.subset hj))

end Schedule

end Distinct

/-- A walk through a plan takes its schedule and prints a line for every step. -/
theorem exists_schedule {plan : Datum} {jobs : List Job} (h : Holds plan jobs) :
    ∃ taken left, Schedule (latest jobs) taken left ∧ ∀ s,
      (walk plan).outcome s =
        (ending (taken.map Job.id) left, { s with printed := s.printed ++ printout taken }) := by
  obtain ⟨taken, left, hschedule, hrounds⟩ :=
    exists_rounds (nodup_latest jobs) (.initial (latest jobs))
  refine ⟨taken, left, hschedule, fun s => ?_⟩
  rw [walk, Work.outcome_bind, Work.outcome_ofExcept, entries_of_holds h]
  exact hrounds s

theorem outcome_run {text : String} {plan : Datum} (h : Json.read text = .ok plan) (s : Session) :
    (run text).outcome s = (walk plan).outcome s := by
  rw [run, Work.outcome_bind, Work.outcome_ofExcept, h]
  rfl

end IntentPlan.Plan.Walk
