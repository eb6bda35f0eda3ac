import IntentPlan.Proofs.Coupling
import IntentPlan.Proofs.Lifecycle

/-!
# Looser configurations

A configuration is looser than another one if it refuses fewer sources and fewer intents.  What is
planned under the tighter one is planned under the looser one in the same way
(`compile_planned_of_looser`).  The two runs make different records, so they are not in the same
session; but they take the same times and ids from the same supplies, and that is what `Work.InStep`
says of two pieces of work.
-/

namespace IntentPlan

/-! ## Runs with the same supplies -/

namespace Work

variable {ε ε' α β : Type}

/-- The same times and the same ids are still to come. -/
def SameSupplies (s t : Session) : Prop := s.clock = t.clock ∧ s.ids = t.ids

/-- From the same clock and the same ids both come to the same value or failure, and leave the same
clock and the same ids behind. -/
def InStep (w v : Work ε α) : Prop := Coupled SameSupplies Eq w v

namespace InStep

theorem pure (a : α) : InStep (pure a : Work ε α) (pure a) := Coupled.pure rfl

theorem throw (e : ε) : InStep (throw e : Work ε α) (throw e) := Coupled.throw e

theorem ofExcept (x : Except ε α) : InStep (ofExcept x) (ofExcept x) :=
  Coupled.ofExcept (.refl (fun _ => rfl) x)

theorem bind {w v : Work ε α} {f g : α → Work ε β} (hwv : InStep w v)
    (hfg : ∀ a, InStep (f a) (g a)) : InStep (w >>= f) (v >>= g) := by
  refine Coupled.bind hwv ?_
  rintro a _ rfl
  exact hfg a

theorem mapError {w v : Work ε α} (f : ε → ε') (h : InStep w v) :
    InStep (w.mapError f) (v.mapError f) := Coupled.mapError f h

theorem noteAll (records records' : List Journal.Record) :
    InStep (noteAll records : Work ε Unit) (noteAll records') :=
  fun _ _ hsupplies => ⟨.ok rfl, hsupplies⟩

theorem freshId : InStep (freshId : Work ε String) freshId := by
  rintro s t ⟨hclock, hids⟩
  rw [outcome_freshId, outcome_freshId, hids]
  exact ⟨.ok rfl, hclock, rfl⟩

theorem readClock : InStep (readClock : Work ε Instant) readClock := by
  rintro s t ⟨hclock, hids⟩
  rw [outcome_readClock, outcome_readClock, hclock]
  exact ⟨.ok rfl, rfl, hids⟩

end InStep

end Work

open Work (InStep)

/-! ## From sources to intents -/

/-- Where neither scan refuses the source, strictness makes no difference. -/
theorem Token.inStep_tokenize {strict strict' : Bool} {source : String}
    (h : strict = true → notices source = []) (h' : strict' = true → notices source = []) :
    InStep (tokenize strict source) (tokenize strict' source) := by
  intro s t hsupplies
  rw [outcome_tokenize_of_ok h, outcome_tokenize_of_ok h']
  exact ⟨.ok rfl, hsupplies⟩

theorem Declaration.inStep_parse (tokens : List Token) : InStep (parse tokens) (parse tokens) := by
  refine (InStep.ofExcept _).bind fun d => ?_
  exact (InStep.noteAll _ _).bind fun _ => .pure d

theorem Intent.inStep_ofNode (node : Node) : InStep (ofNode node) (ofNode node) := by
  rw [ofNode]
  split
  · exact .throw _
  refine (InStep.ofExcept _).bind fun body => ?_
  refine (InStep.ofExcept _).bind fun capabilities => ?_
  refine (InStep.ofExcept _).bind fun constraints => ?_
  refine InStep.freshId.bind fun id => ?_
  refine (InStep.ofExcept _).bind fun name => ?_
  refine (InStep.ofExcept _).bind fun goal => ?_
  refine (InStep.ofExcept _).bind fun criteria => ?_
  refine InStep.readClock.bind fun time => ?_
  exact .pure _

theorem Intent.inStep_ofSource {strict strict' : Bool} {source : String}
    (h : strict = true → Token.notices source = [])
    (h' : strict' = true → Token.notices source = []) :
    InStep (ofSource strict source) (ofSource strict' source) := by
  refine ((Token.inStep_tokenize h h').mapError _).bind fun tokens => ?_
  refine ((Declaration.inStep_parse tokens).mapError _).bind fun d => ?_
  exact ((inStep_ofNode d.toNode).mapError _).bind fun i => .pure _

/-- Nothing is wrong with a source that a strict scan has let pass. -/
theorem Intent.notices_eq_nil_of_outcome_ofSource {strict : Bool} {source : String}
    {s s' : Session} {i : Intent} (h : (ofSource strict source).outcome s = (.ok i, s'))
    (hstrict : strict = true) : Token.notices source = [] := by
  subst hstrict
  obtain ⟨tokens, s₁, hscan, -⟩ := Work.outcome_bind_eq_ok_iff.1 h
  have hvalue := Token.outcome_tokenize_strict source s
  rw [Work.outcome_mapError] at hscan
  cases hstrict : Token.scanStrict source with
  | ok tokens => exact (Token.scanStrict_eq_ok_iff.1 hstrict).1
  | error e =>
      rw [hvalue, hstrict] at hscan
      cases hscan

/-! ## Configurations -/

/-- The first configuration lets pass whatever the second one does. -/
structure Config.Looser (loose tight : Config) : Prop where
  lexing : loose.strictLexing = true → tight.strictLexing = true
  validation : loose.validateBeforePlan = true → tight.validateBeforePlan = true
  complexity : tight.maxComplexity ≤ loose.maxComplexity

/-- A greater limit finds fewer intents too complex. -/
theorem Intent.complaints_eq_nil_of_le {i : Intent} {limit limit' : Int} (hle : limit ≤ limit')
    (h : i.complaints limit = []) : i.complaints limit' = [] := by
  rw [complaints, List.map_eq_nil_iff, problems_eq_nil_iff] at h ⊢
  obtain ⟨hname, hgoal, hcapabilities, hcomplexity⟩ := h
  exact ⟨hname, hgoal, hcapabilities, Int.le_trans hcomplexity hle⟩

theorem Config.Looser.forbids {loose tight : Config} (h : loose.Looser tight) {i : Intent}
    (hforbids : Compiler.Forbids loose i) : Compiler.Forbids tight i := by
  obtain ⟨hvalidate, hcomplaints⟩ := hforbids
  refine ⟨h.validation hvalidate, fun hnone => hcomplaints ?_⟩
  exact Intent.complaints_eq_nil_of_le (Int.ofNat_le.2 h.complexity) hnone

namespace Compiler

/-- What is planned under a configuration is planned under every looser one, with the same history,
intent and plan, if both compilations start with the same clock and the same ids, and the planner
depends on these alone, as every standard planner does. -/
theorem compile_planned_of_looser {tight loose : Config} (hlooser : loose.Looser tight)
    {registry : Registry} {planner : Planner} (hplanner : planner.UsesSuppliesOnly)
    {source : String} {s t s' : Session} (hclock : s.clock = t.clock) (hids : s.ids = t.ids)
    {r : Compilation}
    (h : ((Compiler.mk tight registry planner).compile source).outcome s = (.ok r, s'))
    (hstage : r.stage = .planned) :
    ∃ r' t', ((Compiler.mk loose registry planner).compile source).outcome t = (.ok r', t') ∧
      r'.stage = .planned ∧ r'.history = r.history ∧ r'.intent? = r.intent? ∧
      r'.plan? = r.plan? := by
  obtain ⟨plan, hp⟩ :=
    Option.isSome_iff_exists.1 ((course_of_outcome h).ended.plan?_isSome_iff.2 hstage)
  obtain ⟨i, s₁, s₂, rfl, hsource, hallows, hplan⟩ := (course_of_outcome h).of_plan? hp
  have hscan := Intent.notices_eq_nil_of_outcome_ofSource hsource
  -- the same intent under the looser configuration
  obtain ⟨hintent, hclock₁, hids₁⟩ := Intent.inStep_ofSource hscan
    (fun hstrict => hscan (hlooser.lexing hstrict)) s t ⟨hclock, hids⟩
  rcases hsource' : (Intent.ofSource loose.strictLexing source).outcome t with ⟨parsed, t₁⟩
  rw [hsource, hsource'] at hintent hclock₁ hids₁
  obtain rfl : .ok i = parsed := hintent.eq
  -- and the same plan for it, though the checks may have left different records
  obtain ⟨hsame, -, -⟩ := hplanner i (afterCheck tight i s₁) (afterCheck loose i t₁) hclock₁ hids₁
  rcases hplan' : (planner i).outcome (afterCheck loose i t₁) with ⟨planned, t₂⟩
  rw [hplan, hplan'] at hsame
  obtain rfl : .ok plan = planned := hsame
  have hallows' : ¬Forbids loose i := fun hforbids => hallows (hlooser.forbids hforbids)
  exact ⟨_, t₂, outcome_compile_planned hsource' hallows' hplan', rfl, rfl, rfl, rfl⟩

/-- A source that just passes the tightest configuration, and then one that lets everything pass, in
a session with a record from before. -/
theorem compile_planned_of_looser_relay :
    let tight : Config := ⟨true, 2, true, .warning⟩
    let loose : Config := ⟨false, 50, false, .debug⟩
    let planner : Planner := .standard .default .builtin Estimate.standardPrices
    let source := "intent relay \x7b goal: 'pass it on', capabilities: 'relay' \x7d"
    let s : Session := ⟨.constant ⟨0⟩, .constant "a", .constant 0.0, [], {}, ""⟩
    let t : Session := { s with journal := [⟨.info, "relay", "begun"⟩] }
    loose.Looser tight ∧ ∃ r s' r' t',
      ((Compiler.mk tight .default planner).compile source).outcome s = (.ok r, s') ∧
      r.stage = .planned ∧
      ((Compiler.mk loose .default planner).compile source).outcome t = (.ok r', t') ∧
      r'.history = r.history ∧ r'.intent? = r.intent? ∧ r'.plan? = r.plan? := by
  intro tight loose planner source s t
  have hlooser : loose.Looser tight := ⟨nofun, nofun, by decide⟩
  have hstage : (((Compiler.mk tight .default planner).compile source).outcome s).1.toOption.map
      Compilation.stage = some .planned := by
    decide +kernel
  rcases hresult : ((Compiler.mk tight .default planner).compile source).outcome s with ⟨result, s'⟩
  rw [hresult] at hstage
  cases result with
  | error e => cases hstage
  | ok r =>
      have hplanned : r.stage = .planned := Option.some.inj hstage
      obtain ⟨r', t', hr', -, hsame⟩ := compile_planned_of_looser hlooser
        (Planner.usesSuppliesOnly_standard _ _ _) (s := s) (t := t) rfl rfl hresult hplanned
      exact ⟨hlooser, r, s', r', t', rfl, hplanned, hr', hsame⟩

end Compiler

end IntentPlan
