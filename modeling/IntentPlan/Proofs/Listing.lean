import IntentPlan.Proofs.Lowercase
import IntentPlan.Proofs.Lowering
import IntentPlan.Proofs.Selection

/-!
# Rules as they are listed

A condition keeps its terms in lower case and without blank ones, and never is empty; this is its
normal form (`Normal`).  What is built is in normal form (`normal_of_build`), and what is in normal
form is built again from itself (`build_toSpec`), because lower case of lower case changes nothing
and a term that is not blank stays so.  A listing says of each condition what it was built from
(`ofDatum?_toDatum`), so that rules which are listed can be registered again from the listing.
-/

namespace IntentPlan

namespace Condition

/-! ## Terms -/

/-- A term as conditions keep it. -/
def IsNormalTerm (term : String) : Prop := Text.allBlank term = false ∧ Text.lower term = term

instance (term : String) : Decidable (IsNormalTerm term) := inferInstanceAs (Decidable (_ ∧ _))

theorem isNormalTerm_lower {s : String} (h : Text.allBlank s = false) :
    IsNormalTerm (Text.lower s) := by
  obtain ⟨c, hc, hblank⟩ := Intent.allBlank_eq_false_iff.1 h
  refine ⟨Intent.allBlank_eq_false_iff.2 ?_, Text.lower_lower s⟩
  rw [Text.lower, String.toList_ofList]
  exact Text.exists_mem_lowerAfter hc hblank []

theorem isNormalTerm_of_mem_normalTerms {terms : List Datum} {texts : List String}
    (h : normalTerms terms = .ok texts) {term : String} (hterm : term ∈ texts) :
    IsNormalTerm term := by
  rw [normalTerms] at h
  cases htexts : terms.mapM Datum.text with
  | error e =>
      rw [htexts] at h
      cases h
  | ok all =>
      rw [htexts] at h
      cases h
      obtain ⟨s, hs, rfl⟩ := List.mem_map.1 hterm
      apply isNormalTerm_lower
      simpa using (List.mem_filter.1 hs).2

theorem normalTerms_str (terms : List String) :
    normalTerms (terms.map .str) =
      .ok ((terms.filter fun s => !Text.allBlank s).map Text.lower) := by
  rw [normalTerms, Datum.mapM_text_str]
  rfl

theorem normalTerms_of_forall {terms : List String} (h : ∀ term ∈ terms, IsNormalTerm term) :
    normalTerms (terms.map .str) = .ok terms := by
  have hfilter : terms.filter (fun s => !Text.allBlank s) = terms := by
    apply List.filter_eq_self.2
    intro term hterm
    rw [(h term hterm).1]
    rfl
  have hlower : terms.map Text.lower = terms := calc
    terms.map Text.lower
    _ = terms.map id := List.map_congr_left fun term hterm => (h term hterm).2
    _ = terms := List.map_id terms
  rw [normalTerms_str, hfilter, hlower]

/-! ## Normal forms -/

/-- Conditions as they are kept. -/
inductive Normal : Condition → Prop
  | search {test : TermTest} {terms : List String} (hne : terms ≠ [])
      (hterms : ∀ term ∈ terms, IsNormalTerm term) : Normal (.search test terms)
  | anyOf {conditions : List Condition} (hne : conditions ≠ [])
      (hconditions : ∀ c ∈ conditions, Normal c) : Normal (.anyOf conditions)

mutual

theorem normal_of_build : (spec : ConditionSpec) → {c : Condition} → build spec = .ok c → Normal c
  | .search test terms, c, h => by
      rw [build] at h
      cases hterms : normalTerms terms with
      | error e =>
          rw [hterms] at h
          cases h
      | ok texts =>
          rw [hterms] at h
          cases texts with
          | nil => cases h
          | cons text texts =>
              cases h
              exact .search (List.cons_ne_nil _ _) fun term =>
                isNormalTerm_of_mem_normalTerms hterms
  | .anyOf specs, c, h => by
      rw [build] at h
      cases hall : buildAll specs with
      | error e =>
          rw [hall] at h
          cases h
      | ok conditions =>
          rw [hall] at h
          have hconditions := normal_of_buildAll specs hall
          cases conditions with
          | nil => cases h
          | cons condition conditions =>
              cases h
              exact .anyOf (List.cons_ne_nil _ _) hconditions

theorem normal_of_buildAll : (specs : List ConditionSpec) → {conditions : List Condition} →
    buildAll specs = .ok conditions → ∀ c ∈ conditions, Normal c
  | [], conditions, h => by
      rw [buildAll] at h
      cases h
      intro c hc
      cases hc
  | spec :: specs, conditions, h => by
      rw [buildAll] at h
      cases hspec : build spec with
      | error e =>
          rw [hspec] at h
          cases h
      | ok condition =>
          cases hall : buildAll specs with
          | error e =>
              rw [hspec, hall] at h
              cases h
          | ok rest =>
              rw [hspec, hall] at h
              cases h
              exact List.forall_mem_cons.2
                ⟨normal_of_build spec hspec, normal_of_buildAll specs hall⟩

end

theorem buildAll_toSpecs {conditions : List Condition}
    (h : ∀ c ∈ conditions, build c.toSpec = .ok c) :
    buildAll (toSpecs conditions) = .ok conditions := by
  induction conditions with
  | nil => rfl
  | cons condition conditions ih =>
      obtain ⟨hcondition, hconditions⟩ := List.forall_mem_cons.1 h
      rw [toSpecs, buildAll, hcondition, ih hconditions]

/-- A condition in normal form is built again from what it keeps. -/
theorem build_toSpec {c : Condition} (h : Normal c) : build c.toSpec = .ok c := by
  induction h with
  | @search test terms hne hterms =>
      rw [toSpec, build, normalTerms_of_forall hterms]
      cases terms with
      | nil => exact absurd rfl hne
      | cons term terms => rfl
  | @anyOf conditions hne _ ih =>
      rw [toSpec, build, buildAll_toSpecs ih]
      cases conditions with
      | nil => exact absurd rfl hne
      | cons condition conditions => rfl

end Condition

/-! ## Reading a listing -/

def TermTest.ofName? (s : String) : Option TermTest :=
  [goalContainsAny, capabilityContainsAny, capabilitiesCoverAll].find? fun test => test.name == s

namespace ConditionSpec

mutual

/-- The condition that an entry of a listing stands for. -/
def ofDatum? : Datum → Option ConditionSpec
  | .map fields =>
    match Assoc.get? "kind" fields with
    | some (.str kind) =>
      if kind = "any_of" then ((Assoc.get? "conditions" (listsOf fields)).bind id).map .anyOf
      else
        match TermTest.ofName? kind, Assoc.get? "terms" fields with
        | some test, some (.list terms) => some (.search test terms)
        | _, _ => none
    | _ => none
  | _ => none

/-- The conditions under each key, where there are any. -/
def listsOf : List (String × Datum) → Assoc (Option (List ConditionSpec))
  | [] => []
  | (key, d) :: rest => (key, listOf? d) :: listsOf rest

def listOf? : Datum → Option (List ConditionSpec)
  | .list items => ofData? items
  | _ => none

def ofData? : List Datum → Option (List ConditionSpec)
  | [] => some []
  | d :: rest =>
    match ofDatum? d, ofData? rest with
    | some spec, some specs => some (spec :: specs)
    | _, _ => none

end

mutual

/-- A listing says of a condition what it was built from. -/
theorem ofDatum?_toDatum : (c : Condition) → ofDatum? c.toDatum = some c.toSpec
  | .search test terms => by
      rw [Condition.toDatum, Condition.toSpec, ofDatum?]
      cases test <;> rfl
  | .anyOf conditions => by
      -- only the field with the conditions holds a list
      have hlists : listsOf [("kind", .str "any_of"),
          ("conditions", .list (Condition.toData conditions))] =
          [("kind", none), ("conditions", some (Condition.toSpecs conditions))] := by
        rw [← ofData?_toData conditions]
        rfl
      rw [Condition.toDatum, Condition.toSpec, ofDatum?, hlists]
      rfl

theorem ofData?_toData : (conditions : List Condition) →
    ofData? (Condition.toData conditions) = some (Condition.toSpecs conditions)
  | [] => rfl
  | condition :: conditions => by
      rw [Condition.toData, Condition.toSpecs, ofData?, ofDatum?_toDatum condition,
        ofData?_toData conditions]

end

end ConditionSpec

/-! ## Rules and registries -/

/-- The rule that an entry of a listing stands for. -/
def RuleSpec.ofDatum? : Datum → Option RuleSpec
  | .map fields =>
    match Assoc.get? "name" fields, Assoc.get? "condition" fields, Assoc.get? "strategy" fields,
      Assoc.get? "priority" fields with
    | some (.str name), some condition, some (.str strategy), some (.int priority) =>
      (ConditionSpec.ofDatum? condition).map fun condition => ⟨name, condition, strategy, priority⟩
    | _, _, _, _ => none
  | _ => none

/-- A rule as it would be asked for. -/
def Rule.toSpec (rule : Rule) : RuleSpec :=
  ⟨rule.name, rule.condition.toSpec, rule.strategy.name, rule.priority⟩

theorem Strategy.ofName?_name (strategy : Strategy) : ofName? strategy.name = some strategy := by
  cases strategy <;> rfl

theorem Rule.build_toSpec {rule : Rule} (h : rule.condition.Normal) :
    build rule.toSpec = .ok rule := by
  rw [build, toSpec, Condition.build_toSpec h, Strategy.ofName?_name]

theorem RuleSpec.ofDatum?_fields (rule : Rule) (index : Nat) :
    ofDatum? (.map (rule.fields ++ [("registration_index", .int index)])) = some rule.toSpec := by
  show (ConditionSpec.ofDatum? rule.condition.toDatum).map _ = _
  rw [ConditionSpec.ofDatum?_toDatum]
  rfl

namespace Registry

/-- The registry of the rules in a listing, if the entries of the listing stand for rules. -/
def ofListing? (entries : List Datum) : Option (Except RuleError Registry) :=
  (entries.mapM RuleSpec.ofDatum?).map build

theorem mapM_ofDatum?_zipIdx (rules : List Rule) (start : Nat) :
    ((rules.zipIdx start).map fun p =>
      Datum.map (p.1.fields ++ [("registration_index", .int p.2)])).mapM RuleSpec.ofDatum? =
        some (rules.map Rule.toSpec) := by
  induction rules generalizing start with
  | nil => rfl
  | cons rule rules ih =>
      rw [List.zipIdx_cons, List.map_cons, List.mapM_cons, RuleSpec.ofDatum?_fields, ih]
      rfl

theorem mapM_ofDatum?_toData (r : Registry) :
    r.toData.mapM RuleSpec.ofDatum? = some (r.rules.map Rule.toSpec) :=
  mapM_ofDatum?_zipIdx r.rules 0

theorem build_map_toSpec {r : Registry} (h : ∀ rule ∈ r.rules, rule.condition.Normal) :
    build (r.rules.map Rule.toSpec) = .ok r := by
  have hrules : (r.rules.map Rule.toSpec).mapM Rule.build = .ok r.rules := by
    apply Work.mapM_eq_ok_iff.2
    apply List.forall₂_map_left_iff.2
    exact List.forall₂_same.2 fun rule hrule => Rule.build_toSpec (h rule hrule)
  rw [build, hrules]
  exact ofRules_eq_ok_iff.2 rfl

/-- A registry of rules in normal form is registered again from its listing. -/
theorem ofListing?_toData {r : Registry} (h : ∀ rule ∈ r.rules, rule.condition.Normal) :
    ofListing? r.toData = some (.ok r) := by
  rw [ofListing?, mapM_ofDatum?_toData, Option.map_some, build_map_toSpec h]

/-- The rules of the library are in normal form. -/
theorem normal_default : ∀ rule ∈ default.rules, rule.condition.Normal := by
  have hsearch (test : TermTest) {term : String} {terms : List String}
      (h : (term :: terms).all (fun t => decide (Condition.IsNormalTerm t)) = true) :
      (Condition.search test (term :: terms)).Normal :=
    .search (List.cons_ne_nil _ _) fun t ht => of_decide_eq_true (List.all_eq_true.1 h t ht)
  intro rule hrule
  simp only [default, defaultRules, List.mem_cons, List.not_mem_nil, or_false] at hrule
  rcases hrule with rfl | rfl | rfl | rfl
  · apply Condition.Normal.anyOf (List.cons_ne_nil _ _)
    intro c hc
    rcases List.mem_pair.1 hc with rfl | rfl
    · exact hsearch _ (by decide +kernel)
    · exact hsearch _ (by decide +kernel)
  · exact hsearch _ (by decide +kernel)
  · exact hsearch _ (by decide +kernel)
  · exact hsearch _ (by decide +kernel)

/-- Every condition that can be built is in normal form and is built again from what it keeps, which
is what a listing says of it; the condition and its listing are the same as before.  So every
registry of such conditions is registered again from the listing of its rules, and the same rules
apply to each intent, in the same order. -/
theorem listed_rebuilt :
    (∀ (spec : ConditionSpec) (c : Condition), Condition.build spec = .ok c →
      c.Normal ∧ ConditionSpec.ofDatum? c.toDatum = some c.toSpec ∧
      ∃ c', Condition.build c.toSpec = .ok c' ∧ c' = c ∧ c'.toDatum = c.toDatum) ∧
    ∀ r : Registry, (∀ rule ∈ r.rules, ∃ spec, Condition.build spec = .ok rule.condition) →
      ∃ r', ofListing? r.toData = some (.ok r') ∧ r'.toData = r.toData ∧
        ∀ i, r'.applicable i = r.applicable i := by
  constructor
  · intro spec c h
    have hnormal := Condition.normal_of_build spec h
    exact ⟨hnormal, ConditionSpec.ofDatum?_toDatum c, c, Condition.build_toSpec hnormal, rfl, rfl⟩
  · intro r h
    refine ⟨r, ofListing?_toData fun rule hrule => ?_, rfl, fun _ => rfl⟩
    obtain ⟨spec, hspec⟩ := h rule hrule
    exact Condition.normal_of_build spec hspec

/-- A condition with blank terms, a number, a capital sigma and a letter that becomes two is built
again in the same way, and so are the rules of the library. -/
theorem listed_rebuilt_sigma :
    let spec : ConditionSpec := .anyOf [
      .search .goalContainsAny [.str "ΑΣ", .str " ", .int 7],
      .anyOf [.search .capabilitiesCoverAll [.str "İ", .str ""]]]
    (∃ c, Condition.build spec = .ok c ∧ c.Normal ∧ Condition.build c.toSpec = .ok c) ∧
    ∃ r, ofListing? default.toData = some (.ok r) ∧ ∀ i, r.applicable i = default.applicable i := by
  intro spec
  constructor
  · have hbuilds : (Condition.build spec).toOption.isSome = true := by decide +kernel
    cases hbuild : Condition.build spec with
    | error e =>
        rw [hbuild] at hbuilds
        cases hbuilds
    | ok c =>
        obtain ⟨hnormal, -, c', hc', rfl, -⟩ := listed_rebuilt.1 spec c hbuild
        exact ⟨c', rfl, hnormal, hc'⟩
  · have hdefault : ∀ rule ∈ default.rules, ∃ spec, Condition.build spec = .ok rule.condition :=
      fun rule hrule => ⟨_, Condition.build_toSpec (normal_default rule hrule)⟩
    obtain ⟨r, hr, -, happlicable⟩ := listed_rebuilt.2 default hdefault
    exact ⟨r, hr, happlicable⟩

end Registry

end IntentPlan
