import IntentPlan.Datum.Access
import IntentPlan.Proofs.Shaping

/-!
# Read-only copies

What an intent or a step keeps of a datum is a read-only copy, and what is written for it is a copy
of that.  Copies lose nothing but a key that stands twice: a datum comes back exactly if the keys of
each mapping in it are different (`Datum.thaw_freeze_iff`), and a copy of a copy is the copy
(`Datum.freeze_freeze`).  Whatever the reader makes of a source has different keys, so that its
architecture is written as it was declared (`Intent.exports_of_outcome_ofSource`).
-/

namespace IntentPlan

/-! ## Copies -/

/-- The keys of each mapping in the datum are different, at every depth. -/
inductive Datum.IsProper : Datum → Prop
  | null : IsProper .null
  | bool (b : Bool) : IsProper (.bool b)
  | int (n : Int) : IsProper (.int n)
  | float (x : Float) : IsProper (.float x)
  | str (s : String) : IsProper (.str s)
  | list {items : List Datum} (hitems : ∀ d ∈ items, IsProper d) : IsProper (.list items)
  | map {fields : List (String × Datum)} (hdistinct : (fields.map Prod.fst).Nodup)
      (hvalues : ∀ p ∈ fields, IsProper p.2) : IsProper (.map fields)

namespace Frozen

theorem freezeItems_of_forall {items : List Frozen} (h : ∀ f ∈ items, f.freeze = f) :
    freezeItems items = items := by
  induction items with
  | nil => rfl
  | cons f rest ih =>
      obtain ⟨hf, hrest⟩ := List.forall_mem_cons.1 h
      rw [freezeItems, hf, ih hrest]

theorem freezeFields_of_forall {fields : Assoc Frozen} (h : ∀ p ∈ fields, p.2.freeze = p.2) :
    freezeFields fields = fields := by
  induction fields with
  | nil => rfl
  | cons p rest ih =>
      obtain ⟨hp, hrest⟩ := List.forall_mem_cons.1 h
      rw [freezeFields, hp, ih hrest]

mutual

/-- A key that was written twice stands once in what is written for a copy. -/
theorem isProper_thaw : (f : Frozen) → f.thaw.IsProper
  | .null => .null
  | .bool b => .bool b
  | .int n => .int n
  | .float x => .float x
  | .str s => .str s
  | .tuple items => .list (isProper_thawItems items)
  | .sealed fields => .map (Assoc.nodup_keys_ofList _) fun p hp =>
      isProper_thawFields fields p (Assoc.mem_of_mem_ofList hp)

theorem isProper_thawItems : (items : List Frozen) → ∀ d ∈ thawItems items, d.IsProper
  | [] => by simp [thawItems]
  | f :: rest => by
      rw [thawItems, List.forall_mem_cons]
      exact ⟨isProper_thaw f, isProper_thawItems rest⟩

theorem isProper_thawFields : (fields : List (String × Frozen)) →
    ∀ p ∈ thawFields fields, p.2.IsProper
  | [] => by simp [thawFields]
  | (k, f) :: rest => by
      rw [thawFields, List.forall_mem_cons]
      exact ⟨isProper_thaw f, isProper_thawFields rest⟩

end

end Frozen

namespace Datum

theorem keys_freezeFields (fields : Assoc Datum) :
    Assoc.keys (freezeFields fields) = Assoc.keys fields := by
  induction fields with
  | nil => rfl
  | cons p rest ih => rw [freezeFields, Assoc.keys_cons, Assoc.keys_cons, ih]

theorem thawItems_freezeItems {items : List Datum} (h : ∀ d ∈ items, d.freeze.thaw = d) :
    Frozen.thawItems (freezeItems items) = items := by
  induction items with
  | nil => rfl
  | cons d rest ih =>
      obtain ⟨hd, hrest⟩ := List.forall_mem_cons.1 h
      rw [freezeItems, Frozen.thawItems, hd, ih hrest]

theorem thawFields_freezeFields {fields : Assoc Datum} (h : ∀ p ∈ fields, p.2.freeze.thaw = p.2) :
    Frozen.thawFields (freezeFields fields) = fields := by
  induction fields with
  | nil => rfl
  | cons p rest ih =>
      obtain ⟨hp, hrest⟩ := List.forall_mem_cons.1 h
      rw [freezeFields, Frozen.thawFields, hp, ih hrest]

mutual

theorem freeze_freeze : (d : Datum) → d.freeze.freeze = d.freeze
  | .null | .bool _ | .int _ | .float _ | .str _ => rfl
  | .list items => by
      rw [freeze, Frozen.freeze, Frozen.freezeItems_of_forall (freeze_of_mem_freezeItems items)]
  | .map fields => by
      have hcopy : ∀ p ∈ Assoc.ofList (freezeFields fields), p.2.freeze = p.2 := fun p hp =>
        freeze_of_mem_freezeFields fields p (Assoc.mem_of_mem_ofList hp)
      rw [freeze, Frozen.freeze, Frozen.freezeFields_of_forall hcopy,
        Assoc.ofList_of_nodup (Assoc.nodup_keys_ofList _)]

theorem freeze_of_mem_freezeItems : (items : List Datum) → ∀ f ∈ freezeItems items, f.freeze = f
  | [] => by simp [freezeItems]
  | d :: rest => by
      rw [freezeItems, List.forall_mem_cons]
      exact ⟨freeze_freeze d, freeze_of_mem_freezeItems rest⟩

theorem freeze_of_mem_freezeFields : (fields : List (String × Datum)) →
    ∀ p ∈ freezeFields fields, p.2.freeze = p.2
  | [] => by simp [freezeFields]
  | (k, d) :: rest => by
      rw [freezeFields, List.forall_mem_cons]
      exact ⟨freeze_freeze d, freeze_of_mem_freezeFields rest⟩

end

/-- With different keys nothing is written over, neither in the copy nor in what is written for
it. -/
theorem thaw_freeze {d : Datum} (h : d.IsProper) : d.freeze.thaw = d := by
  induction h with
  | null | bool | int | float | str => rfl
  | list _ ih => rw [freeze, Frozen.thaw, thawItems_freezeItems ih]
  | @map fields hdistinct _ ih =>
      have hkeys : (Assoc.keys (freezeFields fields)).Nodup := by
        rw [keys_freezeFields]
        exact hdistinct
      rw [freeze, Frozen.thaw, Assoc.ofList_of_nodup hkeys, thawFields_freezeFields ih,
        Assoc.ofList_of_nodup hdistinct]

theorem thaw_freeze_iff {d : Datum} : d.freeze.thaw = d ↔ d.IsProper := by
  refine ⟨fun h => ?_, thaw_freeze⟩
  rw [← h]
  exact d.freeze.isProper_thaw

theorem isProper_of_shaped {d : Datum} (h : d.Shaped) : d.IsProper := by
  induction h with
  | text s => exact .str s
  | items texts =>
      refine .list fun d hd => ?_
      obtain ⟨s, -, rfl⟩ := List.mem_map.1 hd
      exact .str s
  | body _ hdistinct _ ih => exact .map hdistinct ih

end Datum

namespace Assoc

theorem thaw_freeze {fields : Assoc Datum} (h : (Datum.map fields).IsProper) :
    fields.freeze.thaw = fields :=
  Datum.map.inj (Datum.thaw_freeze h)

theorem refreeze_freeze (fields : Assoc Datum) : fields.freeze.refreeze = fields.freeze :=
  Frozen.sealed.inj (Datum.freeze_freeze (.map fields))

end Assoc

/-! ## Architectures -/

/-- What is written for the architecture that stands in a declaration: an object as it is, and
anything else but nothing as the value of an object. -/
inductive Declaration.Value.Exported : Option Value → Datum → Prop
  | absent : Exported none .null
  | empty : Exported (some (.text "")) .null
  | text {s : String} (hs : s ≠ "") : Exported (some (.text s)) (.map [("value", .str s)])
  | items (texts : List String) :
      Exported (some (.items texts)) (.map [("value", .list (texts.map .str))])
  | body (fields : List (String × Value)) : Exported (some (.body fields)) (.map (toData fields))

namespace Intent

open Declaration

/-- What is written for an intent has the architecture of the declaration. -/
def Exports (d : Declaration) (i : Intent) : Prop :=
  ∃ datum, i.toDatum.field "architecture" = .ok datum ∧
    Value.Exported (Assoc.get? "architecture" d.body) datum

variable {d : Declaration} {i : Intent} {s s' : Session}

theorem exported_architectureOf (fields : Assoc Value) :
    Value.Exported (Assoc.get? "architecture" fields)
      (.ofOption .map (architectureOf (toData fields))) := by
  rw [architectureOf, get?_toData]
  cases Assoc.get? "architecture" fields with
  | none => exact .absent
  | some value =>
      cases value with
      | text s =>
          by_cases hs : s = ""
          · subst hs
            exact .empty
          · simpa [Value.toDatum, Datum.ofOption, hs] using Value.Exported.text hs
      | items texts => exact .items texts
      | body fields => exact .body fields

theorem isProper_architectureOf (hd : d.IsWellShaped) {fields : Assoc Datum}
    (h : architectureOf (toData d.body) = some fields) : (Datum.map fields).IsProper := by
  have hvalue {datum : Datum} (hget : Assoc.get? "architecture" (toData d.body) = some datum) :
      datum.IsProper :=
    Datum.isProper_of_shaped (shaped_toData _ hd.body_wellShaped _ (Assoc.mem_of_get? hget)).2
  rw [architectureOf] at h
  split at h
  · cases h
  · cases h
  · cases h
  · rename_i hget
    cases h
    exact hvalue hget
  · rename_i datum _ _ _ hget
    cases h
    refine .map (List.nodup_singleton _) fun p hp => ?_
    rw [List.mem_singleton.1 hp]
    exact hvalue hget

theorem architecture_of_outcome_ofNode (h : (ofNode d.toNode).outcome s = (.ok i, s')) :
    i.architecture = (architectureOf (toData d.body)).map Assoc.freeze := by
  obtain ⟨body, s₁, hbody, h⟩ := Work.outcome_bind_eq_ok_iff.1 h
  obtain ⟨capabilities, s₂, -, h⟩ := Work.outcome_bind_eq_ok_iff.1 h
  obtain ⟨constraints, s₃, -, h⟩ := Work.outcome_bind_eq_ok_iff.1 h
  obtain ⟨id, s₄, -, h⟩ := Work.outcome_bind_eq_ok_iff.1 h
  obtain ⟨goal, s₅, -, h⟩ := Work.outcome_bind_eq_ok_iff.1 h
  obtain ⟨criteria, s₆, -, h⟩ := Work.outcome_bind_eq_ok_iff.1 h
  obtain ⟨parsedAt, s₇, -, h⟩ := Work.outcome_bind_eq_ok_iff.1 h
  have hfields : toData d.body = body := by
    cases hbody
    rfl
  cases h
  rw [hfields]

/-- An intent keeps the architecture of a declaration with different keys, and writes it. -/
theorem exports_of_architecture (hd : d.IsWellShaped)
    (h : i.architecture = (architectureOf (toData d.body)).map Assoc.freeze) : i.Exports d := by
  have hwritten : i.toDatum.field "architecture" =
      .ok (.ofOption (fun fields => .map (Assoc.thaw fields)) i.architecture) := rfl
  refine ⟨_, hwritten, ?_⟩
  have hexported := exported_architectureOf d.body
  rw [h]
  cases harchitecture : architectureOf (toData d.body) with
  | none => rwa [harchitecture] at hexported
  | some fields =>
      rw [harchitecture] at hexported
      have hback := Assoc.thaw_freeze (isProper_architectureOf hd harchitecture)
      rw [Option.map_some, Datum.ofOption, hback]
      exact hexported

/-- The architecture of a source is written as it was declared. -/
theorem exports_of_outcome_ofSource {strict : Bool} {source : String}
    (hread : ofTokens (Token.scan source) = .ok d)
    (h : (ofSource strict source).outcome s = (.ok i, s')) : i.Exports d := by
  obtain ⟨tokens, s₁, htokens, h⟩ := Work.outcome_bind_eq_ok_iff.1 h
  obtain ⟨d', s₂, hparse, h⟩ := Work.outcome_bind_eq_ok_iff.1 h
  obtain ⟨j, s₃, hlower, h⟩ := Work.outcome_bind_eq_ok_iff.1 h
  rw [Work.outcome_mapError_eq_ok_iff] at htokens hparse hlower
  cases h
  have hsame := congrArg Prod.fst hparse
  rw [outcome_parse_fst, Token.eq_scan_of_outcome_tokenize htokens, hread] at hsame
  cases hsame
  refine exports_of_architecture (isWellShaped_of_scan hread) ?_
  have hrefreeze : Assoc.refreeze ∘ Assoc.freeze = Assoc.freeze := funext Assoc.refreeze_freeze
  rw [withLines, architecture_of_outcome_ofNode hlower, Option.map_map, hrefreeze]

end Intent

/-! ## Parameters -/

theorem StepKind.exists_ofName? {kind : String} (h : kind ∈ supported.map name) :
    ∃ k, ofName? kind = some k := by
  obtain ⟨k, hk, rfl⟩ := List.mem_map.1 h
  exact Option.isSome_iff_exists.1 (List.find?_isSome.2 ⟨k, hk, by simp⟩)

namespace Step

theorem exists_makeNamed (order : Int) {kind : String}
    (hkind : kind ∈ StepKind.supported.map StepKind.name) (action : String)
    {parameters : Assoc Datum} (hparameters : (Datum.map parameters).IsProper)
    (dependencies : List String) :
    ∃ step, makeNamed order kind action parameters dependencies = .ok step ∧
      step.toDatum.field "parameters" = .ok (.map parameters) := by
  obtain ⟨k, hk⟩ := StepKind.exists_ofName? hkind
  refine ⟨make order k action parameters dependencies, by rw [makeNamed, hk], ?_⟩
  have hwritten : (make order k action parameters dependencies).toDatum.field "parameters" =
      .ok (.map parameters.freeze.thaw) := rfl
  rw [hwritten, Assoc.thaw_freeze hparameters]

end Step

/-- A datum comes back from its copy exactly if the keys of its mappings are different, and a copy
of a copy is the copy.  Hence intents write the architecture that was declared, whether they are
parsed or compiled, and steps the parameters that they were made with. -/
theorem Frozen.copies_lossless :
    (∀ d : Datum, d.freeze.thaw = d ↔ d.IsProper) ∧
    (∀ d : Datum, d.freeze.freeze = d.freeze) ∧
    (∀ (strict : Bool) (source : String) (s s₁ s₂ : Session) (tokens : List Token)
        (d : Declaration),
      (Token.tokenize strict source).outcome s = (.ok tokens, s₁) →
      (Declaration.parse tokens).outcome s₁ = (.ok d, s₂) →
      (∀ (t t' : Session) (i : Intent), (Intent.parse strict source).outcome t = (.ok i, t') →
        i.Exports d) ∧
      ∀ (c : Compiler) (t t' : Session) (r : Compilation) (i : Intent),
        (c.compile source).outcome t = (.ok r, t') → r.intent? = some i → i.Exports d) ∧
    ∀ (order : Int) (kind action : String) (parameters : Assoc Datum) (dependencies : List String),
      (Datum.map parameters).IsProper → kind ∈ StepKind.supported.map StepKind.name →
      ∃ step, Step.makeNamed order kind action parameters dependencies = .ok step ∧
        step.toDatum.field "parameters" = .ok (.map parameters) := by
  refine ⟨fun d => Datum.thaw_freeze_iff, Datum.freeze_freeze, ?_, ?_⟩
  · intro strict source s s₁ s₂ tokens d htokens hparse
    have hread := congrArg Prod.fst hparse
    rw [Declaration.outcome_parse_fst, Token.eq_scan_of_outcome_tokenize htokens] at hread
    refine ⟨?_, ?_⟩
    · intro t t' i h
      obtain ⟨j, t₁, hsource, h⟩ := Work.outcome_bind_eq_ok_iff.1 h
      obtain ⟨_, t₂, -, h⟩ := Work.outcome_bind_eq_ok_iff.1 h
      cases h
      exact Intent.exports_of_outcome_ofSource hread hsource
    · intro c t t' r i h hi
      obtain ⟨t₁, hsource⟩ := (Compiler.course_of_outcome h).outcome_ofSource hi
      exact Intent.exports_of_outcome_ofSource hread hsource
  · intro order kind action parameters dependencies hparameters hkind
    exact Step.exists_makeNamed order hkind action hparameters dependencies

/-- An architecture with an object in it, and parameters with an empty list and a mapping of
mappings. -/
theorem Frozen.copies_lossless_nested :
    let source :=
      "intent web \x7b goal: a architecture: \x7b api: ['b', 'c'] more: \x7b api: '' \x7d \x7d \x7d"
    let parameters : Assoc Datum :=
      [("b", .list []), ("a", .map [("b", .map [("a", .null)]), ("a", .bool true)])]
    let s : Session := ⟨.constant ⟨0⟩, .constant "a", .constant 0.0, [], {}, ""⟩
    (∃ i s' fields, (Intent.parse false source).outcome s = (.ok i, s') ∧
      Assoc.keys fields = ["api", "more"] ∧
      i.toDatum.field "architecture" = .ok (.map (Declaration.toData fields))) ∧
    (Datum.map parameters).freeze.thaw = .map parameters ∧
    ∃ step, Step.makeNamed 4 "deploy" "ship" parameters [] = .ok step ∧
      step.toDatum.field "parameters" = .ok (.map parameters) := by
  intro source parameters s
  obtain ⟨hback, -, harchitecture, hparameters⟩ := copies_lossless
  have hproper : (Datum.map parameters).IsProper := by
    have hinner : (Datum.map [("a", .null)]).IsProper :=
      .map (by decide) (List.forall_mem_singleton.2 .null)
    refine .map (by decide) (List.forall_mem_cons.2 ⟨.list (by simp), ?_⟩)
    refine List.forall_mem_singleton.2 (.map (by decide) (List.forall_mem_cons.2 ⟨hinner, ?_⟩))
    exact List.forall_mem_singleton.2 (.bool true)
  refine ⟨?_, (hback _).2 hproper, hparameters 4 "deploy" "ship" parameters [] hproper (by decide)⟩
  have hkeys : (Declaration.ofTokens (Token.scan source)).toOption.map (fun d =>
      (Assoc.get? "architecture" d.body).map fun value => Assoc.keys value.fields) =
      some (some ["api", "more"]) := by decide +kernel
  have hparsed : ((Intent.parse false source).outcome s).1.toOption.isSome = true := by
    decide +kernel
  rcases houtcome : (Intent.parse false source).outcome s with ⟨e | i, s'⟩
  · rw [houtcome] at hparsed
    cases hparsed
  cases hread : Declaration.ofTokens (Token.scan source) with
  | error e =>
      rw [hread] at hkeys
      cases hkeys
  | ok d =>
      rw [hread] at hkeys
      have hlenient : false = true → Token.notices source = [] := by simp
      have htokens := Token.outcome_tokenize_of_ok hlenient s
      have hparse := Declaration.outcome_parse_of_ok hread
        { s with journal := s.journal ++ Token.records source }
      obtain ⟨datum, hdatum, hexported⟩ :=
        (harchitecture false source _ _ _ _ d htokens hparse).1 s s' i houtcome
      have hfields : (Assoc.get? "architecture" d.body).map (fun value => Assoc.keys value.fields) =
          some ["api", "more"] := Option.some.inj hkeys
      generalize Assoc.get? "architecture" d.body = value at hexported hfields
      cases hexported with
      | body fields => exact ⟨i, s', fields, rfl, Option.some.inj hfields, hdatum⟩
      | absent | empty | text | items => cases hfields

end IntentPlan
