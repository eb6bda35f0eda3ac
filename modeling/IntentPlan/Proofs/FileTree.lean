import IntentPlan.Proofs.Coupling
import Mathlib.Order.Defs.Unbundled

/-!
# What changes in a tree of files

A tree of files grows: what is a directory stays one, and nothing changes but at names that are
given (`Files.Extends`).  A path to a directory therefore keeps leading to it, and a file is read as
it was written as long as only other names change (`Extends.place_directory`,
`Extends.read_child`).  Making a directory and writing a file below a directory are such changes
(`makeDirectories_child`, `writeText_child`).  Work is followed by what it makes of the files,
however it ends (`Work.Moves`).
-/

namespace IntentPlan

namespace Files

variable {fs fs' fs'' : Files}

/-! ## Nodes -/

theorem lookup_filter_ne {β : Type} {names n : List String} (entries : List (List String × β))
    (h : n ≠ names) :
    (entries.filter fun entry => entry.1 != names).lookup n = entries.lookup n := by
  induction entries with
  | nil => rfl
  | cons entry rest ih =>
      by_cases hentry : entry.1 = names
      · have hn : (n == entry.1) = false := by simpa [hentry] using h
        rw [List.filter_cons_of_neg (by simpa using hentry), ih, List.lookup_cons, hn]
      · rw [List.filter_cons_of_pos (by simpa using hentry), List.lookup_cons, List.lookup_cons, ih]

theorem lookup_filter_self {β : Type} (names : List String) (entries : List (List String × β)) :
    (entries.filter fun entry => entry.1 != names).lookup names = none := by
  rw [List.lookup_eq_none_iff]
  intro entry hentry
  have hne : entry.1 ≠ names := by simpa using (List.mem_filter.1 hentry).2
  exact bne_iff_ne.2 hne.symm

theorem node?_set_of_ne {names n : List String} {node : FileNode} (h : n ≠ names) :
    (fs.set names node).node? n = fs.node? n := by
  have hlookup : (fs.set names node).entries.lookup n = fs.entries.lookup n := by
    have hn : (n == names) = false := beq_eq_false_iff_ne.2 h
    rw [set, List.lookup_append, lookup_filter_ne _ h, List.lookup_cons, hn]
    exact Option.or_none
  rw [node?, node?, hlookup]

/-- The working directory and those above it cannot be replaced; all else can. -/
theorem node?_set_self {names : List String} {node : FileNode}
    (h : fs.node? names ≠ some .directory) : (fs.set names node).node? names = some node := by
  have hfree : ¬(isAbove names || names == root) = true := by
    intro hfixed
    rw [node?, if_pos hfixed] at h
    exact h rfl
  rw [node?, if_neg hfree, set, List.lookup_append, lookup_filter_self, List.lookup_cons,
    beq_self_eq_true]
  rfl

/-! ## Trees that grow -/

/-- Directories stay directories, and nothing changes but within. -/
structure Extends (Within : List String → Prop) (fs fs' : Files) : Prop where
  directory : ∀ n, fs.node? n = some .directory → fs'.node? n = some .directory
  elsewhere : ∀ n, ¬Within n → fs'.node? n = fs.node? n

namespace Extends

variable {Within Within' : List String → Prop}

theorem refl (Within : List String → Prop) (fs : Files) : Extends Within fs fs :=
  ⟨fun _ h => h, fun _ _ => rfl⟩

theorem trans (h : Extends Within fs fs') (h' : Extends Within fs' fs'') :
    Extends Within fs fs'' :=
  ⟨fun n hn => h'.directory n (h.directory n hn),
    fun n hn => (h'.elsewhere n hn).trans (h.elsewhere n hn)⟩

theorem mono (h : Extends Within fs fs') (hsub : ∀ n, Within n → Within' n) :
    Extends Within' fs fs' :=
  ⟨h.directory, fun n hn => h.elsewhere n fun hwithin => hn (hsub n hwithin)⟩

end Extends

theorem extends_set {names : List String} (node : FileNode)
    (h : fs.node? names ≠ some .directory) : Extends (· = names) fs (fs.set names node) where
  directory n hn := by
    rwa [node?_set_of_ne]
    rintro rfl
    exact h hn
  elsewhere _ hn := node?_set_of_ne hn

/-! ## Following a path -/

/-- The names lead from one directory to another through directories. -/
inductive Leads (fs : Files) : List String → List String → List String → Prop
  | stay (here : List String) : Leads fs here [] here
  | rise {here rest names : List String} (hrest : Leads fs (up here) rest names) :
      Leads fs here (".." :: rest) names
  | enter {here rest names : List String} {name : String} (hname : name ≠ "..")
      (hshort : ¬nameLimit < name.utf8ByteSize)
      (hnode : fs.node? (here ++ [name]) = some .directory)
      (hrest : Leads fs (here ++ [name]) rest names) : Leads fs here (name :: rest) names

theorem follow_cons_of_directory {here rest : List String} {name : String} (hname : name ≠ "..")
    (hshort : ¬nameLimit < name.utf8ByteSize)
    (hnode : fs.node? (here ++ [name]) = some .directory) :
    fs.follow here (name :: rest) = fs.follow (here ++ [name]) rest := by
  rw [follow.eq_def]
  split
  · rename_i hnil
    cases hnil
  · rename_i heq
    exact absurd (List.cons.inj heq).1 hname
  · rename_i heq
    cases heq
    rw [if_neg hshort, hnode]

/-- What stands at names that end a path. -/
def Place.at (names : List String) : Option FileNode → Place
  | none => .vacant names
  | some .directory => .directory names
  | some (.file content) => .file names content

theorem follow_singleton {name : String} (hname : name ≠ "..") (here : List String) :
    fs.follow here [name] = if nameLimit < name.utf8ByteSize then .tooLong
      else .at (here ++ [name]) (fs.node? (here ++ [name])) := by
  rw [follow.eq_def]
  split
  · rename_i hnil
    cases hnil
  · rename_i heq
    exact absurd (List.cons.inj heq).1 hname
  · rename_i heq
    cases heq
    dsimp only
    rcases fs.node? (here ++ [name]) with - | (- | content)
    · rfl
    · rfl
    · rfl

theorem leads_of_follow {here parts names : List String}
    (h : fs.follow here parts = .directory names) : Leads fs here parts names := by
  fun_induction follow fs here parts with
  | case1 here =>
      cases h
      exact .stay _
  | case2 here rest ih => exact .rise (ih h)
  | case8 here name hname there hshort rest hnode ih => exact .enter hname hshort hnode (ih h)
  | case3 | case4 | case5 | case6 | case7 => cases h

/-- A name that is free lies in a directory. -/
theorem exists_leads_of_follow {here parts names : List String}
    (h : fs.follow here parts = .vacant names) :
    ∃ front last directory, parts = front ++ [last] ∧ names = directory ++ [last] ∧
      Leads fs here front directory ∧ last ≠ ".." ∧ ¬nameLimit < last.utf8ByteSize ∧
      fs.node? names = none := by
  fun_induction follow fs here parts with
  | case4 here name hname there hshort hnode =>
      obtain rfl := Place.vacant.inj h
      exact ⟨[], name, here, rfl, rfl, .stay _, hname, hshort, hnode⟩
  | case2 here rest ih =>
      obtain ⟨front, last, directory, rfl, hnames, hleads, hlast⟩ := ih h
      exact ⟨".." :: front, last, directory, rfl, hnames, .rise hleads, hlast⟩
  | case8 here name hname there hshort rest hnode ih =>
      obtain ⟨front, last, directory, rfl, hnames, hleads, hlast⟩ := ih h
      exact ⟨name :: front, last, directory, rfl, hnames, .enter hname hshort hnode hleads, hlast⟩
  | case1 | case3 | case5 | case6 | case7 => cases h

namespace Leads

theorem follow_append {here front names : List String} (h : Leads fs here front names)
    (back : List String) : fs.follow here (front ++ back) = fs.follow names back := by
  induction h with
  | stay here => rfl
  | rise _ ih => exact ih
  | enter hname hshort hnode _ ih =>
      rw [List.cons_append, follow_cons_of_directory hname hshort hnode]
      exact ih

/-- What leads to a directory still does in a tree that grew. -/
theorem of_extends {Within : List String → Prop} {here parts names : List String}
    (h : Leads fs here parts names) (hext : Extends Within fs fs') :
    Leads fs' here parts names := by
  induction h with
  | stay here => exact .stay here
  | rise _ ih => exact .rise ih
  | enter hname hshort hnode _ ih => exact .enter hname hshort (hext.directory _ hnode) ih

end Leads

/-! ## Places -/

/-- Where a path starts. -/
def start (p : Path) : List String := if p.absolute then root else []

/-- The path is one that can be followed. -/
def Usable (p : Path) : Prop :=
  (p.parts.any fun part => part.toList.contains '\x00') = false ∧
    ¬pathLimit ≤ p.toString.utf8ByteSize

theorem place_of_usable {p : Path} (h : Usable p) :
    fs.place p = .ok (fs.follow (start p) p.parts) := by
  rw [place, if_neg (by rw [h.1]; exact Bool.false_ne_true), if_neg h.2]
  rfl

theorem usable_of_place {p : Path} {found : Place} (h : fs.place p = .ok found)
    (hfound : found ≠ .tooLong) : Usable p := by
  rw [place] at h
  split at h
  · cases h
  · rename_i hnull
    split at h
    · cases h
      exact absurd rfl hfound
    · rename_i hlimit
      exact ⟨eq_false_of_ne_true hnull, hlimit⟩

theorem leads_of_place {p : Path} {names : List String}
    (h : fs.place p = .ok (.directory names)) : Leads fs (start p) p.parts names := by
  rw [place_of_usable (usable_of_place h nofun)] at h
  exact leads_of_follow (Except.ok.inj h)

theorem Leads.place {p : Path} {names : List String} (h : Leads fs (start p) p.parts names)
    (hp : Usable p) : fs.place p = .ok (.directory names) := by
  rw [place_of_usable hp, ← List.append_nil p.parts, h.follow_append]
  rfl

/-- A path to a directory leads to it in every tree that grew from this one. -/
theorem Extends.place_directory {Within : List String → Prop} (h : Extends Within fs fs')
    {p : Path} {names : List String} (hp : fs.place p = .ok (.directory names)) :
    fs'.place p = .ok (.directory names) :=
  ((leads_of_place hp).of_extends h).place (usable_of_place hp nofun)

/-- A name in a directory stands for what the tree has there, if it can be used at all. -/
theorem place_child {p : Path} {names : List String} (hp : fs.place p = .ok (.directory names))
    {name : String} (hname : name ≠ "..") {found : Place}
    (h : fs.place (p.child name) = .ok found) (hfound : found ≠ .tooLong) :
    found = .at (names ++ [name]) (fs.node? (names ++ [name])) ∧
      ∀ fs' : Files, fs'.place p = .ok (.directory names) →
        fs'.place (p.child name) = .ok (.at (names ++ [name]) (fs'.node? (names ++ [name]))) := by
  have husable := usable_of_place h hfound
  have hchild : ∀ fs' : Files, fs'.place p = .ok (.directory names) →
      fs'.place (p.child name) = .ok (fs'.follow names [name]) := by
    intro fs' hp'
    rw [place_of_usable husable]
    exact congrArg Except.ok ((leads_of_place hp').follow_append [name])
  have hfollow := Except.ok.inj (h.symm.trans (hchild fs hp))
  rw [follow_singleton hname] at hfollow
  split at hfollow
  · exact absurd hfollow hfound
  · rename_i hshort
    refine ⟨hfollow, fun fs' hp' => ?_⟩
    rw [hchild fs' hp', follow_singleton hname, if_neg hshort]

theorem read_eq_ok_iff {p : Path} {content : ByteArray} :
    fs.read p = .ok content ↔ ∃ names, fs.place p = .ok (.file names content) := by
  constructor
  · intro h
    rcases hplace : fs.place p with e | found
    · rw [read, hplace] at h
      cases h
    · rw [read, hplace] at h
      cases found with
      | file names content =>
          cases h
          exact ⟨names, rfl⟩
      | directory | vacant | nowhere | blocked | tooLong => cases h
  · rintro ⟨names, h⟩
    rw [read, h]
    rfl

/-- A file is read as it was, as long as its own names do not change. -/
theorem Extends.read_child {Within : List String → Prop} (h : Extends Within fs fs') {p : Path}
    {names : List String} (hp : fs.place p = .ok (.directory names)) {name : String}
    (hname : name ≠ "..") {content : ByteArray} (hread : fs.read (p.child name) = .ok content)
    (hout : ¬Within (names ++ [name])) : fs'.read (p.child name) = .ok content := by
  obtain ⟨names', hfile⟩ := read_eq_ok_iff.1 hread
  obtain ⟨-, hchild⟩ := place_child hp hname hfile nofun
  refine read_eq_ok_iff.2 ⟨names', ?_⟩
  rw [hchild fs' (h.place_directory hp), h.elsewhere _ hout, ← hchild fs hp, hfile]

/-! ## Making directories and writing files -/

theorem makeDirectory_cases {p : Path} (h : fs.makeDirectory p = .ok fs') :
    (fs' = fs ∧ ∃ names, fs.place p = .ok (.directory names)) ∨
      ∃ names, fs.place p = .ok (.vacant names) ∧ fs' = fs.set names .directory := by
  rcases hplace : fs.place p with e | found
  · rw [makeDirectory, hplace] at h
    cases h
  · rw [makeDirectory, hplace] at h
    cases found with
    | directory names =>
        cases h
        exact .inl ⟨rfl, names, rfl⟩
    | vacant names =>
        cases h
        exact .inr ⟨names, rfl, rfl⟩
    | file | nowhere | blocked | tooLong => cases h

/-- Where a directory could be made, there is one afterwards. -/
theorem place_makeDirectory {p : Path} (h : fs.makeDirectory p = .ok fs') :
    ∃ names, fs'.place p = .ok (.directory names) := by
  rcases makeDirectory_cases h with ⟨rfl, hdirectory⟩ | ⟨names, hvacant, rfl⟩
  · exact hdirectory
  · have husable := usable_of_place hvacant nofun
    rw [place_of_usable husable] at hvacant
    obtain ⟨front, last, directory, hparts, rfl, hleads, hlast, hshort, hnode⟩ :=
      exists_leads_of_follow (Except.ok.inj hvacant)
    have hfree : fs.node? (directory ++ [last]) ≠ some .directory := by
      rw [hnode]
      exact nofun
    have hleads' := hleads.of_extends (extends_set .directory hfree)
    refine ⟨directory ++ [last], ?_⟩
    rw [place_of_usable husable, hparts, hleads'.follow_append, follow_singleton hlast,
      if_neg hshort, node?_set_self hfree]
    rfl

/-- The last of the directories on the way is made by itself. -/
theorem exists_makeDirectory {p : Path} (h : fs.makeDirectories p = .ok fs') :
    ∃ fs₁ : Files, fs₁.makeDirectory p = .ok fs' := by
  rw [makeDirectories] at h
  rcases hplace : fs.place p with e | found
  · rw [hplace] at h
    cases h
  · rw [hplace] at h
    cases found with
    | nowhere =>
        change (if hparts : p.parts = [] then _ else fs.makeDirectories p.parent >>= _) = _ at h
        split at h
        · cases h
        · rcases hparent : fs.makeDirectories p.parent with e | fs₁
          · rw [hparent] at h
            cases h
          · rw [hparent] at h
            exact ⟨fs₁, h⟩
    | directory | file | vacant | blocked | tooLong => exact ⟨fs, h⟩

section Child

variable {p : Path} {names : List String} {name : String}
variable (hp : fs.place p = .ok (.directory names)) (hname : name ≠ "..")

include hp hname

/-- A directory below one that is there is made at its own name. -/
theorem makeDirectories_child (h : fs.makeDirectories (p.child name) = .ok fs') :
    Extends (names ++ [name] <+: ·) fs fs' ∧
      fs'.place (p.child name) = .ok (.directory (names ++ [name])) := by
  rcases hplace : fs.place (p.child name) with e | found
  · rw [makeDirectories, hplace] at h
    cases h
  by_cases hlong : found = .tooLong
  · rw [makeDirectories, hplace, hlong] at h
    change fs.makeDirectory (p.child name) = _ at h
    rw [makeDirectory, hplace, hlong] at h
    cases h
  obtain ⟨rfl, hchild⟩ := place_child hp hname hplace hlong
  have hmake : fs.makeDirectories (p.child name) = fs.makeDirectory (p.child name) := by
    rw [makeDirectories, hplace]
    rcases fs.node? (names ++ [name]) with - | (- | content)
    · rfl
    · rfl
    · rfl
  rw [hmake, makeDirectory, hplace] at h
  rcases hnode : fs.node? (names ++ [name]) with - | (- | content)
  · rw [hnode] at h
    cases h
    have hfree : fs.node? (names ++ [name]) ≠ some .directory := by
      rw [hnode]
      exact nofun
    have hext := extends_set .directory hfree
    refine ⟨hext.mono fun n hn => hn ▸ List.prefix_rfl, ?_⟩
    rw [hchild _ (hext.place_directory hp), node?_set_self hfree]
    rfl
  · rw [hnode] at h
    cases h
    refine ⟨.refl _ _, ?_⟩
    rw [hplace, hnode]
    rfl
  · rw [hnode] at h
    cases h

/-- A file in a directory is written at its own name, and nothing else changes. -/
theorem writeText_child {text : String} (h : fs.writeText (p.child name) text = .ok fs') :
    Extends (· = names ++ [name]) fs fs' ∧ fs'.read (p.child name) = .ok text.toUTF8 := by
  rcases hplace : fs.place (p.child name) with e | found
  · rw [writeText, write, hplace] at h
    cases h
  by_cases hlong : found = .tooLong
  · rw [writeText, write, hplace, hlong] at h
    cases h
  obtain ⟨rfl, hchild⟩ := place_child hp hname hplace hlong
  rw [writeText, write, hplace] at h
  have hwritten : fs.node? (names ++ [name]) ≠ some .directory ∧
      fs.set (names ++ [name]) (.file text.toUTF8) = fs' := by
    rcases hnode : fs.node? (names ++ [name]) with - | (- | content)
    · rw [hnode] at h
      cases h
      exact ⟨nofun, rfl⟩
    · rw [hnode] at h
      cases h
    · rw [hnode] at h
      cases h
      exact ⟨nofun, rfl⟩
  obtain ⟨hfree, rfl⟩ := hwritten
  have hext := extends_set (.file text.toUTF8) hfree
  refine ⟨hext, read_eq_ok_iff.2 ⟨names ++ [name], ?_⟩⟩
  rw [hchild _ (hext.place_directory hp), node?_set_self hfree]
  rfl

end Child

end Files

/-! ## Work that changes files -/

namespace Work

variable {ε ε' α β : Type} {M : Files → Files → Prop}

/-- However the work ends, `M` relates the files before it to those after it. -/
def Moves (M : Files → Files → Prop) (w : Work ε α) : Prop :=
  ∀ s, M s.files (w.outcome s).2.files

namespace Moves

/-- Work that two runs do alike for every relation between their files leaves them alone. -/
theorem of_rel {r : α → α → Prop} {w : Work ε α} (h : ∀ R, Rel R r w w) : w.Moves Eq :=
  fun s => ((h fun f _ => s.files = f) s s rfl).2

theorem of_eq [Std.Refl M] {w : Work ε α} (h : w.Moves Eq) : w.Moves M := by
  intro s
  rw [← h s]
  exact Std.Refl.refl _

theorem pure [Std.Refl M] (a : α) : (pure a : Work ε α).Moves M :=
  fun _ => Std.Refl.refl _

theorem throw [Std.Refl M] (e : ε) : (throw e : Work ε α).Moves M :=
  fun _ => Std.Refl.refl _

theorem ofExcept [Std.Refl M] (x : Except ε α) : (ofExcept x).Moves M :=
  fun _ => Std.Refl.refl _

theorem bind [IsTrans Files M] {w : Work ε α} {f : α → Work ε β} (hw : w.Moves M)
    (hf : ∀ a, (f a).Moves M) : (w >>= f).Moves M := by
  intro s
  have hfirst := hw s
  rw [outcome_bind]
  rcases hout : w.outcome s with ⟨e | a, s₁⟩
  · rwa [hout] at hfirst
  · rw [hout] at hfirst
    exact IsTrans.trans _ _ _ hfirst (hf a s₁)

theorem mapError {f : ε → ε'} {w : Work ε α} (h : w.Moves M) : (w.mapError f).Moves M := h

theorem attempt {w : Work ε α} (h : w.Moves M) :
    (w.attempt : Work ε' (Except ε α)).Moves M := h

theorem readStopwatch [Std.Refl M] : (readStopwatch : Work ε Float).Moves M :=
  fun _ => Std.Refl.refl _

theorem noteAll [Std.Refl M] (records : List Journal.Record) :
    (noteAll records : Work ε Unit).Moves M :=
  fun _ => Std.Refl.refl _

end Moves

end Work

end IntentPlan
