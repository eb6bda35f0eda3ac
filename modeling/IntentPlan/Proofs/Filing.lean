import IntentPlan.Proofs.FileTree
import IntentPlan.Proofs.Independence
import IntentPlan.Proofs.Naming
import IntentPlan.Proofs.Running

/-!
# The files of a batch

Every item of a batch writes below a directory of its own.  Compiling its source leaves the files
alone (`Compiler.moves_compile`), its artifacts are written below its name
(`written_outcome_writeArtifacts`), and this is all it does (`moves_runItem`).  No other item has
that name, so what it has written is there when the batch ends (`Runs.filed`).
-/

namespace IntentPlan

open Work (Moves)

/-! ## Compiling -/

/-- The planner does not touch the files. -/
def Planner.LeavesFiles (p : Planner) : Prop := ∀ i, (p i).Moves Eq

theorem Planner.leavesFiles_standard (registry : Registry) (catalog : Catalog)
    (prices : Estimate.PriceList) : (standard registry catalog prices).LeavesFiles := by
  intro i s
  simp only [standard, Registry.select, Audit.entry, Work.outcome_bind, Work.outcome_readClock,
    Work.outcome_freshId, Work.outcome_noteAll, Work.outcome_pure, Work.outcome_ofExcept]
  cases catalog.steps i (registry.choose i).strategy.name with
  | error e => rfl
  | ok steps =>
      dsimp only
      cases stepCost prices steps with
      | error e => rfl
      | ok cost =>
          dsimp only
          cases Plan.problems steps with
          | nil => rfl
          | cons problem problems => rfl

namespace Compiler

variable {c : Compiler}

theorem moves_planIntent (h : c.planner.LeavesFiles) (r : Compilation) (i : Intent) :
    (c.planIntent r i).Moves Eq := by
  refine (h i).attempt.bind ?_
  rintro ((e | e) | plan)
  · exact (Moves.noteAll _).bind fun _ => .pure _
  · exact .throw e
  · exact .pure _

theorem moves_compile (h : c.planner.LeavesFiles) (source : String) :
    (c.compile source).Moves Eq := by
  refine (Moves.of_rel fun R => Token.rel_tokenize _ _).attempt.bind ?_
  rintro (e | tokens)
  · exact .pure _
  refine (Moves.of_rel fun R => Declaration.rel_parse _).attempt.bind ?_
  rintro (e | declaration)
  · exact .pure _
  refine (Moves.of_rel fun R => Intent.rel_ofNode _).attempt.bind ?_
  rintro (e | intent)
  · exact .pure _
  refine ((Moves.noteAll _).bind fun _ => .pure _).bind ?_
  intro complaints
  split
  · exact .pure _
  · exact moves_planIntent h _ _

end Compiler

namespace Batch

open Files (Extends)

variable {c : Compiler} {options : Options} {root : Path} {names : List String}

/-! ## One item -/

/-- If the directory is there, it stays there, and nothing changes but within. -/
def Below (root : Path) (names : List String) (Within : List String → Prop) (fs fs' : Files) :
    Prop :=
  fs.place root = .ok (.directory names) → Extends Within fs fs'

instance (Within : List String → Prop) : Std.Refl (Below root names Within) :=
  ⟨fun fs _ => .refl _ fs⟩

instance (Within : List String → Prop) : IsTrans Files (Below root names Within) where
  trans _ _ _ h h' hroot := (h hroot).trans (h' ((h hroot).place_directory hroot))

/-- Names at or below the directory of an item, whatever the item is called. -/
def OfItem (names : List String) (index : Nat) (n : List String) : Prop :=
  ∃ label, names ++ [itemName index label] <+: n

/-- No name lies below the directories of two items. -/
theorem OfItem.eq {i j : Nat} {n : List String} (hi : OfItem names i n) (hj : OfItem names j n) :
    i = j := by
  obtain ⟨label, rest, rfl⟩ := hi
  obtain ⟨label', rest', heq⟩ := hj
  rw [List.append_assoc, List.append_assoc] at heq
  exact (eq_of_itemName_eq (List.cons.inj (List.append_cancel_left heq)).1).symm

/-- Where the artifacts of an item with this directory are. -/
def artifactsIn (directory : Path) : Artifacts where
  planFile := directory.child "plan.json"
  auditFile := directory.child "audit.txt"

/-- The directory has these names, and the artifacts of the plan are in it. -/
structure Holds (fs : Files) (directory : Path) (names : List String) (plan : Plan) : Prop where
  place : fs.place directory = .ok (.directory names)
  read_plan : fs.read (artifactsIn directory).planFile = .ok (Json.write plan.toDatum).toUTF8
  read_audit : fs.read (artifactsIn directory).auditFile =
    .ok (Audit.render plan.audit ++ "\n").toUTF8

theorem Holds.of_extends {fs fs' : Files} {directory : Path} {plan : Plan}
    {Within : List String → Prop} (h : Holds fs directory names plan)
    (hext : Extends Within fs fs') (hout : ∀ name, ¬Within (names ++ [name])) :
    Holds fs' directory names plan where
  place := hext.place_directory h.place
  read_plan := hext.read_child h.place (by decide : "plan.json" ≠ "..") h.read_plan (hout _)
  read_audit := hext.read_child h.place (by decide : "audit.txt" ≠ "..") h.read_audit (hout _)

theorem outcome_changeFiles_cases (f : Files → Except FileFault Files) (s : Session) :
    (∃ fs, f s.files = .ok fs ∧
      (Work.changeFiles f).outcome s = (.ok (), { s with files := fs })) ∨
    ∃ e, f s.files = .error e ∧ (Work.changeFiles f).outcome s = (.error e, s) := by
  have hchange : (Work.changeFiles f).outcome s =
      (Work.changeFiles fun _ => f s.files).outcome s := rfl
  rw [hchange]
  cases f s.files with
  | ok fs => exact .inl ⟨fs, rfl, rfl⟩
  | error e => exact .inr ⟨e, rfl, rfl⟩

/-- What holds of the session as it is, and of all that is done with the changed files, holds of the
whole. -/
theorem outcome_changeFiles_bind {α : Type} {f : Files → Except FileFault Files}
    {next : Unit → Work FileFault α} {s : Session} {P : Except FileFault α × Session → Prop}
    (herror : ∀ e, P (.error e, s))
    (hok : ∀ fs, f s.files = .ok fs → P ((next ()).outcome { s with files := fs })) :
    P ((Work.changeFiles f >>= next).outcome s) := by
  rw [Work.outcome_bind]
  rcases outcome_changeFiles_cases f s with ⟨fs, hf, hout⟩ | ⟨e, -, hout⟩
  · rw [hout]
    exact hok fs hf
  · rw [hout]
    exact herror e

/-- Artifacts are written below the name of their item, as far as they are written, and if they all
are, they can be read there. -/
structure Written (root : Path) (names : List String) (name : String) (plan : Plan) (fs : Files)
    (result : Except FileFault Artifacts × Session) : Prop where
  below : Extends (names ++ [name] <+: ·) fs result.2.files
  holds : ∀ a s', result = (.ok a, s') → a = artifactsIn (root.child name) ∧
    Holds s'.files (root.child name) (names ++ [name]) plan

theorem written_outcome_writeArtifacts {s : Session}
    (hroot : s.files.place root = .ok (.directory names)) {name : String} (hname : name ≠ "..")
    (plan : Plan) :
    Written root names name plan s.files ((writeArtifacts (root.child name) plan).outcome s) := by
  have hbelow : ∀ (file : String) n, n = (names ++ [name]) ++ [file] → names ++ [name] <+: n := by
    rintro file _ rfl
    exact List.prefix_append _ _
  -- the second file has another name than the first, which stays as it was written
  have hother : (names ++ [name]) ++ ["plan.json"] ≠ (names ++ [name]) ++ ["audit.txt"] := by
    intro h
    exact absurd (List.cons.inj (List.append_cancel_left h)).1 (by decide)
  rw [writeArtifacts]
  refine outcome_changeFiles_bind (fun _ => ⟨.refl _ _, nofun⟩) fun fs₁ hmake => ?_
  obtain ⟨hext₁, hplace₁⟩ := Files.makeDirectories_child hroot hname hmake
  refine outcome_changeFiles_bind (fun _ => ⟨hext₁, nofun⟩) fun fs₂ hplan => ?_
  obtain ⟨hext₂, hread₂⟩ := Files.writeText_child hplace₁ (by decide) hplan
  have hplace₂ := hext₂.place_directory hplace₁
  have hext := hext₁.trans (hext₂.mono (hbelow _))
  refine outcome_changeFiles_bind (fun _ => ⟨hext, nofun⟩) fun fs₃ haudit => ?_
  obtain ⟨hext₃, hread₃⟩ := Files.writeText_child hplace₂ (by decide) haudit
  refine ⟨hext.trans (hext₃.mono (hbelow _)), ?_⟩
  rintro a s' ⟨⟩
  exact ⟨rfl, hext₃.place_directory hplace₂,
    hext₃.read_child hplace₂ (by decide) hread₂ hother, hread₃⟩

/-- The payload of an item has the artifacts of its plan in the directory of the item, and none
without a plan. -/
inductive Filed (root : Path) (names : List String) (fs : Files) (item : Datum) : Payload → Prop
  | failed (index : Nat) (e : ItemFault) : Filed root names fs item (.failed index e)
  | unplanned {index : Nat} {r : Compilation} {elapsedMs : Float} {explained : Bool}
      (hplan : r.plan? = none) :
      Filed root names fs item (.finished index r elapsedMs explained none)
  | planned {index : Nat} {r : Compilation} {plan : Plan} {name : String} {elapsedMs : Float}
      {explained : Bool} (hplan : r.plan? = some plan) (hname : label item r.intent? = .ok name)
      (hholds : Holds fs (itemDirectory root index name) (names ++ [itemName index name]) plan) :
      Filed root names fs item (.finished index r elapsedMs explained
        (some (artifactsIn (itemDirectory root index name))))

theorem Filed.of_extends {fs fs' : Files} {item : Datum} {p : Payload}
    {Within : List String → Prop} (h : Filed root names fs item p) (hext : Extends Within fs fs')
    (hout : ∀ n, OfItem names p.index n → ¬Within n) : Filed root names fs' item p := by
  cases h with
  | failed index e => exact .failed index e
  | unplanned hplan => exact .unplanned hplan
  | planned hplan hname hholds =>
      refine .planned hplan hname (hholds.of_extends hext fun name => hout _ ?_)
      exact ⟨_, List.prefix_append _ _⟩

section

variable (hdir : options.artifactDir = some root)

include hdir

theorem moves_artifactsOf (index : Nat) (item : Datum) (r : Compilation) :
    (artifactsOf options.artifactDir index item r).Moves
      (Below root names (OfItem names index)) := by
  rw [hdir]
  unfold artifactsOf
  cases r.plan? with
  | none => exact .pure _
  | some plan =>
      refine (Moves.ofExcept _).bind fun name => ?_
      refine Moves.bind (Moves.mapError fun s hroot => ?_) fun _ => .pure _
      have hwrite := written_outcome_writeArtifacts hroot (itemName_ne_up index name) plan
      exact hwrite.below.mono fun n hn => ⟨_, hn⟩

/-- An item changes nothing but below its own directory, however it ends. -/
theorem moves_runItem (hplanner : c.planner.LeavesFiles) (job : Datum × Nat) :
    (runItem c options job).Moves (Below root names (OfItem names job.2)) := by
  have hload : (loadSource job.1).Moves Eq := fun s => by rw [outcome_loadSource_snd]
  have hitem : (planItem c options job.2 job.1).Moves (Below root names (OfItem names job.2)) := by
    refine (Moves.of_eq hload).mapError.bind fun source => ?_
    refine Moves.readStopwatch.bind fun start => ?_
    refine (Moves.of_eq (Compiler.moves_compile hplanner source)).mapError.bind fun r => ?_
    refine Moves.readStopwatch.bind fun stop => ?_
    exact (moves_artifactsOf hdir job.2 job.1 r).mapError.bind fun artifacts => .pure _
  refine hitem.attempt.bind ?_
  rintro ((e | e) | payload)
  · exact (Moves.noteAll _).bind fun _ => .pure _
  · exact .throw e
  · exact .pure _

/-- Right after its item a payload has its artifacts. -/
theorem filed_of_outcome_runItem (hplanner : c.planner.LeavesFiles) {job : Datum × Nat}
    {s s' : Session} {p : Payload} (hroot : s.files.place root = .ok (.directory names))
    (h : (runItem c options job).outcome s = (.ok p, s')) :
    Filed root names s'.files job.1 p := by
  rcases outcome_runItem_cases h with
    ⟨e, rfl⟩ | ⟨source, r, elapsedMs, artifacts, s₁, s₂, s₃, rfl, hs₁, hcompile, hs₃, hartifacts⟩
  · exact .failed _ e
  have hmoves := Compiler.moves_compile hplanner source s₁
  rw [hcompile, hs₁] at hmoves
  rw [hdir] at hartifacts
  unfold artifactsOf at hartifacts
  cases hplan : r.plan? with
  | none =>
      rw [hplan] at hartifacts
      cases hartifacts
      exact .unplanned hplan
  | some plan =>
      rw [hplan] at hartifacts
      obtain ⟨name, s₄, hname, hartifacts⟩ := Work.outcome_bind_eq_ok_iff.1 hartifacts
      obtain ⟨a, s₅, hwrite, hsome⟩ := Work.outcome_bind_eq_ok_iff.1 hartifacts
      cases hsome
      obtain ⟨hlabel, rfl⟩ := Prod.mk.inj hname
      rw [Work.outcome_mapError_eq_ok_iff] at hwrite
      rw [hmoves, ← hs₃] at hroot
      obtain ⟨rfl, hholds⟩ := (written_outcome_writeArtifacts hroot
        (itemName_ne_up job.2 name) plan).holds a s' hwrite
      exact .planned hplan (Work.mapError_eq_ok_iff.1 hlabel) hholds

/-! ## Many items -/

/-- Jobs with different places leave each other's artifacts alone. -/
theorem Runs.filed (hplanner : c.planner.LeavesFiles) {ran : List (Datum × Nat)}
    {ps : List Payload} {s s' : Session} (h : Runs c options s ran ps s')
    (hroot : s.files.place root = .ok (.directory names)) (hnodup : (ran.map Prod.snd).Nodup) :
    Extends (fun n => ∃ job ∈ ran, OfItem names job.2 n) s.files s'.files ∧
      ∀ p ∈ ps, ∃ job ∈ ran, p.index = job.2 ∧ Filed root names s'.files job.1 p := by
  induction h with
  | nil s => exact ⟨.refl _ _, fun p hp => absurd hp List.not_mem_nil⟩
  | @cons job p jobs ps s s₁ s' hfirst hrest ih =>
      have hmoves := moves_runItem hdir hplanner job s hroot
      rw [hfirst] at hmoves
      obtain ⟨hnotMem, hnodup⟩ := List.nodup_cons.1 hnodup
      obtain ⟨hext, hfiled⟩ := ih (hmoves.place_directory hroot) hnodup
      refine ⟨?_, fun q hq => ?_⟩
      · exact (hmoves.mono fun n hn => ⟨job, List.mem_cons_self, hn⟩).trans
          (hext.mono fun n ⟨other, hother, hn⟩ => ⟨other, List.mem_cons_of_mem _ hother, hn⟩)
      · rcases List.mem_cons.1 hq with rfl | hq
        · have hindex := index_of_outcome_runItem hfirst
          refine ⟨job, List.mem_cons_self, hindex, ?_⟩
          refine (filed_of_outcome_runItem hdir hplanner hroot hfirst).of_extends hext ?_
          rintro n hn ⟨other, hother, hn'⟩
          -- the names of another item would have the place of this one
          rw [hindex] at hn
          exact hnotMem (hn.eq hn' ▸ List.mem_map_of_mem hother)
        · obtain ⟨other, hother, hplace⟩ := hfiled q hq
          exact ⟨other, List.mem_cons_of_mem _ hother, hplace⟩

theorem place_of_outcome_makeRoot {s s₁ : Session}
    (h : (makeRoot options).outcome s = (.ok (), s₁)) :
    ∃ names, s₁.files.place root = .ok (.directory names) := by
  rw [makeRoot, hdir] at h
  rw [Work.outcome_mapError_eq_ok_iff] at h
  rcases outcome_changeFiles_cases (·.makeDirectories root) s with
    ⟨fs, hmake, hout⟩ | ⟨e, -, hout⟩
  · rw [hout] at h
    cases h
    obtain ⟨fs₁, hlast⟩ := Files.exists_makeDirectory hmake
    exact Files.place_makeDirectory hlast
  · rw [hout] at h
    cases h

end

theorem map_snd_jobs_sublist (schedule : List Nat) (items : List Datum) :
    ((jobs schedule items).map Prod.snd).Sublist schedule := by
  induction schedule with
  | nil => exact .slnil
  | cons index rest ih =>
      rw [jobs, List.filterMap_cons]
      cases items[index]? with
      | none => exact ih.cons _
      | some item => exact ih.cons_cons _

theorem getElem?_of_mem_jobs {schedule : List Nat} {items : List Datum} {job : Datum × Nat}
    (h : job ∈ jobs schedule items) : items[job.2]? = some job.1 := by
  obtain ⟨index, -, hjob⟩ := List.mem_filterMap.1 h
  obtain ⟨item, hitem, rfl⟩ := Option.map_eq_some_iff.1 hjob
  exact hitem

/-- The jobs that a batch runs are items of it with their places, no place twice. -/
theorem nodup_ran {schedule : List Nat} {items : List Datum} {ran : List (Datum × Nat)}
    (hschedule : 1 < options.workers → options.failFast = false → schedule.Nodup)
    (h : ran <+: items.zipIdx ∨
      1 < options.workers ∧ options.failFast = false ∧ ran = jobs schedule items) :
    (ran.map Prod.snd).Nodup ∧ ∀ job ∈ ran, items[job.2]? = some job.1 := by
  rcases h with hfront | ⟨hworkers, hfast, rfl⟩
  · constructor
    · refine List.Nodup.sublist (hfront.sublist.map Prod.snd) ?_
      rw [map_snd_zipIdx]
      exact List.nodup_range
    · exact fun job hjob => List.mem_zipIdx_iff_getElem?.1 (hfront.subset hjob)
  · exact ⟨(hschedule hworkers hfast).sublist (map_snd_jobs_sublist schedule items),
      fun job hjob => getElem?_of_mem_jobs hjob⟩

/-- The artifacts of a batch stay below its directory and do not get in each other's way.  Any text
becomes a slug; the directory of an item is the directory of the batch and one more name, of small
letters, digits and underscores; and items with different places have different directories.  Where
the planner leaves the files alone, as every standard planner does, an item changes nothing outside
the directory of its place, however it ends.  A batch that returns therefore changes nothing but the
directories of its items once its own is made, and every payload has its artifacts in the directory
of its item, where they are read at the end as they were written. -/
theorem artifacts_kept_apart :
    (∀ text, Text.IsSlug (Text.slug text)) ∧
    (∀ root index label, itemDirectory root index label = root.child (itemName index label) ∧
      ∀ ch ∈ (itemName index label).toList, Text.IsNameChar ch) ∧
    (∀ root i j label label', i ≠ j →
      itemDirectory root i label ≠ itemDirectory root j label') ∧
    (∀ (c : Compiler) (options : Options) (root : Path), c.planner.LeavesFiles →
      options.artifactDir = some root →
      (∀ job s names, s.files.place root = .ok (.directory names) → ∀ n, ¬OfItem names job.2 n →
        ((runItem c options job).outcome s).2.files.node? n = s.files.node? n) ∧
      ∀ schedule items s s' ps,
        (1 < options.workers → options.failFast = false → schedule.Nodup) →
        (plan c options schedule items).outcome s = (.ok ps, s') →
        ∃ s₁ names, (makeRoot options).outcome s = (.ok (), s₁) ∧
          s₁.files.place root = .ok (.directory names) ∧
          (∀ n, (∀ i < items.length, ¬OfItem names i n) →
            s'.files.node? n = s₁.files.node? n) ∧
          ∀ p ∈ ps, ∃ item, items[p.index]? = some item ∧ Filed root names s'.files item p) ∧
    ∀ registry catalog prices, (Planner.standard registry catalog prices).LeavesFiles := by
  refine ⟨Text.isSlug_slug, fun root index label => ⟨rfl, fun _ => isNameChar_of_mem_itemName⟩,
    fun root i j label label' h => itemDirectory_ne h label label',
    fun c options root hplanner hdir => ⟨?_, ?_⟩, Planner.leavesFiles_standard⟩
  · intro job s names hroot n hn
    exact (moves_runItem hdir hplanner job s hroot).elsewhere n hn
  · intro schedule items s s' ps hschedule h
    obtain ⟨s₁, ran, qs, hmake, hruns, hps, hran⟩ := exists_runs_of_outcome_plan h
    obtain ⟨hnodup, hitems⟩ := nodup_ran hschedule hran
    obtain ⟨names, hroot⟩ := place_of_outcome_makeRoot hdir hmake
    obtain ⟨hext, hfiled⟩ := hruns.filed hdir hplanner hroot hnodup
    refine ⟨s₁, names, hmake, hroot, fun n hn => hext.elsewhere n ?_, fun p hp => ?_⟩
    · rintro ⟨job, hjob, hin⟩
      exact hn job.2 (List.getElem?_eq_some_iff.1 (hitems job hjob)).1 hin
    · obtain ⟨job, hjob, hindex, hfile⟩ := hfiled p (hps p hp)
      exact ⟨job.1, hindex ▸ hitems job hjob, hfile⟩

/-- Two items whose names try to leave the directory, and to be the same. -/
theorem artifacts_kept_apart_two :
    let root : Path := ⟨"", ["out"]⟩
    let options : Options := { artifactDir := some root }
    let items : List Datum := ["../up", "..\x00up"].map fun name => .map [("name", .str name),
      ("source", .str "intent relay \x7b goal: 'pass it on' \x7d")]
    let s : Session := ⟨.constant ⟨0⟩, .constant "a", .constant 0.0, [], {}, ""⟩
    ∃ ps s' names, (plan {} options [] items).outcome s = (.ok ps, s') ∧
      ps.map Payload.ok = [true, true] ∧
      ∀ p ∈ ps, ∃ item, items[p.index]? = some item ∧ Filed root names s'.files item p := by
  intro root options items s
  have hoks : ((plan {} options [] items).outcome s).1.toOption.map (List.map Payload.ok) =
      some [true, true] := by decide +kernel
  rcases hplan : (plan {} options [] items).outcome s with ⟨e | ps, s'⟩
  · rw [hplan] at hoks
    cases hoks
  rw [hplan] at hoks
  obtain ⟨-, -, -, hbatch, hstandard⟩ := artifacts_kept_apart
  obtain ⟨s₁, names, -, -, -, hfiled⟩ := (hbatch {} options root (hstandard _ _ _) rfl).2
    [] items s s' ps (fun _ _ => .nil) hplan
  exact ⟨ps, s', names, rfl, Option.some.inj hoks, hfiled⟩

end Batch

end IntentPlan
