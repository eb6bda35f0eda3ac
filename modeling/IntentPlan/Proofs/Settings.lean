import IntentPlan.Config
import IntentPlan.Proofs.Assoc
import Mathlib.Data.List.TakeWhile

/-!
# Settings with nothing in them

A setting of the environment that is empty or blank counts as one that is not set.  For the two
flags and the limit this holds without exception (`flag_nonblank`, `complexityText_nonblank`).  The
level is looked at before its blanks are taken away, so that an empty one counts as not set, but one
of blanks is taken for the name of a level and refused (`levelText_of_hasBlankLevel`): then there is
no configuration at all (`build_emptyLevel`).
-/

namespace IntentPlan

theorem Text.trim_of_allBlank {s : String} (h : allBlank s = true) : trim s = "" := by
  have hnone : s.toList.dropWhile isBlank = [] := List.dropWhile_eq_nil_iff.2 (List.all_eq_true.1 h)
  rw [trim, trimChars, hnone]
  rfl

namespace Config

/-- The text of a setting, unless there is nothing but blanks in it. -/
def nonblank (raw : Option String) : Option String := raw.filter fun text => !Text.allBlank text

/-- The environment in which the settings with nothing but blanks in them are not set. -/
def withoutBlanks (env : Assoc String) : Assoc String :=
  env.filter fun p =>
    !(settingNames.contains p.1 && (Assoc.get? p.1 env).all Text.allBlank)

/-- The level is set to blanks, but not to an empty text. -/
def hasBlankLevel (env : Assoc String) : Bool :=
  (Assoc.get? "INTENTC_LOG_LEVEL" env).any fun raw => Text.allBlank raw && !raw.isEmpty

variable {env : Assoc String}

theorem nonblank_of_blank {text : String} (h : Text.allBlank text = true) :
    nonblank (some text) = none := by
  rw [nonblank, Option.filter_some, h]
  rfl

theorem nonblank_of_not_blank {text : String} (h : Text.allBlank text = false) :
    nonblank (some text) = some text := by
  rw [nonblank, Option.filter_some, h]
  rfl

theorem nonblank_of_all {raw : Option String} (h : raw.all Text.allBlank = true) :
    nonblank raw = none := by
  cases raw with
  | none => rfl
  | some text => exact nonblank_of_blank h

theorem get?_withoutBlanks {name : String} (h : settingNames.contains name = true) :
    Assoc.get? name (withoutBlanks env) = nonblank (Assoc.get? name env) := by
  rw [withoutBlanks, Assoc.get?_filter
    (fun name => !(settingNames.contains name && (Assoc.get? name env).all Text.allBlank)), h]
  cases Assoc.get? name env with
  | none => rfl
  | some raw =>
      cases hraw : Text.allBlank raw with
      | true => simp [nonblank_of_blank hraw, hraw]
      | false => simp [nonblank_of_not_blank hraw, hraw]

/-! ## The readings of a setting -/

theorem flag_nonblank (default : Bool) (raw : Option String) :
    flag default (nonblank raw) = flag default raw := by
  cases raw with
  | none => rfl
  | some text =>
      cases htext : Text.allBlank text with
      | true => rw [nonblank_of_blank htext, flag, flag, if_pos htext]
      | false => rw [nonblank_of_not_blank htext]

theorem complexityText_nonblank (raw : Option String) :
    complexityText (nonblank raw) = complexityText raw := by
  cases raw with
  | none => rfl
  | some text =>
      cases htext : Text.allBlank text with
      | true =>
          rw [nonblank_of_blank htext, complexityText, complexityText, Option.getD_some,
            Text.trim_of_allBlank htext]
          rfl
      | false => rw [nonblank_of_not_blank htext]

theorem levelName_warning : levelName "WARNING" = "WARNING" := by decide +kernel

/-- An empty level is none. -/
theorem levelText_nonblank (h : hasBlankLevel env = false) :
    levelText (nonblank (Assoc.get? "INTENTC_LOG_LEVEL" env)) =
      levelText (Assoc.get? "INTENTC_LOG_LEVEL" env) := by
  rw [hasBlankLevel] at h
  cases hget : Assoc.get? "INTENTC_LOG_LEVEL" env with
  | none => rfl
  | some raw =>
      cases hraw : Text.allBlank raw with
      | true =>
          rw [hget, Option.any_some, hraw, Bool.true_and, Bool.not_eq_false'] at h
          rw [nonblank_of_blank hraw, levelText, levelText, if_pos h, levelName_warning]
      | false => rw [nonblank_of_not_blank hraw]

/-- A level of blanks is unset in the environment without blanks, and empty in the other one. -/
theorem levelText_of_hasBlankLevel (h : hasBlankLevel env = true) :
    levelText (nonblank (Assoc.get? "INTENTC_LOG_LEVEL" env)) = "WARNING" ∧
      levelText (Assoc.get? "INTENTC_LOG_LEVEL" env) = "" := by
  rw [hasBlankLevel] at h
  cases hget : Assoc.get? "INTENTC_LOG_LEVEL" env with
  | none =>
      rw [hget] at h
      cases h
  | some raw =>
      rw [hget, Option.any_some, Bool.and_eq_true, Bool.not_eq_true'] at h
      obtain ⟨hraw, hempty⟩ := h
      refine ⟨by rw [nonblank_of_blank hraw, levelText], ?_⟩
      rw [levelText, hempty, if_neg Bool.false_ne_true, levelName, Text.trim_of_allBlank hraw]
      rfl

/-! ## Configurations -/

/-- An empty name of a level is refused where the default one is not. -/
theorem build_emptyLevel (strictLexing validateBeforePlan : Bool) (maxComplexity : Int) :
    build { strictLexing, maxComplexity, validateBeforePlan, logLevel := "" } =
      (build { strictLexing, maxComplexity, validateBeforePlan, logLevel := "WARNING" }).bind
        fun _ => .error (.unsupportedLevel "") := by
  have hempty : Journal.Level.ofName? (levelName "") = none := by decide +kernel
  have hwarning : Journal.Level.ofName? (levelName "WARNING") = some .warning := by decide +kernel
  rw [build, build]
  by_cases h : maxComplexity < 0
  · rw [if_pos h, if_pos h]
    rfl
  · simp only [if_neg h, hempty, hwarning]
    rfl

theorem ofEnvironment_eq (env : Assoc String) :
    ofEnvironment env =
      (complexityText (Assoc.get? "INTENTC_MAX_COMPLEXITY" env)).bind fun maxComplexity => build {
        strictLexing := flag false (Assoc.get? "INTENTC_STRICT_LEXING" env)
        maxComplexity
        validateBeforePlan := flag false (Assoc.get? "INTENTC_VALIDATE_BEFORE_PLAN" env)
        logLevel := levelText (Assoc.get? "INTENTC_LOG_LEVEL" env) } := by
  rw [ofEnvironment, specOfEnvironment]
  cases complexityText (Assoc.get? "INTENTC_MAX_COMPLEXITY" env) <;> rfl

/-- Without its blanks an environment differs at most in its level. -/
theorem ofEnvironment_withoutBlanks_eq (env : Assoc String) :
    ofEnvironment (withoutBlanks env) =
      (complexityText (Assoc.get? "INTENTC_MAX_COMPLEXITY" env)).bind fun maxComplexity => build {
        strictLexing := flag false (Assoc.get? "INTENTC_STRICT_LEXING" env)
        maxComplexity
        validateBeforePlan := flag false (Assoc.get? "INTENTC_VALIDATE_BEFORE_PLAN" env)
        logLevel := levelText (nonblank (Assoc.get? "INTENTC_LOG_LEVEL" env)) } := by
  rw [ofEnvironment_eq, get?_withoutBlanks (by decide), get?_withoutBlanks (by decide),
    get?_withoutBlanks (by decide), get?_withoutBlanks (by decide), complexityText_nonblank,
    flag_nonblank, flag_nonblank]

theorem ofEnvironment_of_hasBlankLevel (h : hasBlankLevel env = true) :
    ofEnvironment env =
      (ofEnvironment (withoutBlanks env)).bind fun _ => .error (.unsupportedLevel "") := by
  obtain ⟨hunset, hempty⟩ := levelText_of_hasBlankLevel h
  rw [ofEnvironment_withoutBlanks_eq, hunset, ofEnvironment_eq, hempty]
  cases complexityText (Assoc.get? "INTENTC_MAX_COMPLEXITY" env) with
  | error e => rfl
  | ok maxComplexity => simpa only [Except.bind] using build_emptyLevel _ _ maxComplexity

/-- An environment without any setting gives the default configuration. -/
theorem ofEnvironment_withoutBlanks_of_all
    (h : ∀ name ∈ settingNames, (Assoc.get? name env).all Text.allBlank = true) :
    ofEnvironment (withoutBlanks env) = build {} := by
  have hunset {name : String} (hname : settingNames.contains name = true) :
      Assoc.get? name (withoutBlanks env) = none := by
    rw [get?_withoutBlanks hname]
    exact nonblank_of_all (h name (List.contains_iff_mem.1 hname))
  rw [ofEnvironment_eq, hunset (by decide), hunset (by decide), hunset (by decide),
    hunset (by decide)]
  rfl

/-- A setting that is empty or blank means the same as one that is not set, but for a level of
blanks: that one is refused, unless another setting is refused before.  With nothing set but blanks
the configuration is the default one, or there is none for the blanks of the level. -/
theorem ofEnvironment_withoutBlanks (env : Assoc String) :
    (hasBlankLevel env = false → ofEnvironment (withoutBlanks env) = ofEnvironment env) ∧
    (hasBlankLevel env = true → ofEnvironment env =
      (ofEnvironment (withoutBlanks env)).bind fun _ => .error (.unsupportedLevel "")) ∧
    ((∀ name ∈ settingNames, (Assoc.get? name env).all Text.allBlank = true) →
      ofEnvironment env =
        if hasBlankLevel env then .error (.unsupportedLevel "") else build {}) := by
  have hlevel (h : hasBlankLevel env = false) :
      ofEnvironment (withoutBlanks env) = ofEnvironment env := by
    rw [ofEnvironment_withoutBlanks_eq, levelText_nonblank h, ofEnvironment_eq]
  refine ⟨hlevel, ofEnvironment_of_hasBlankLevel, fun hblank => ?_⟩
  have hdefault := ofEnvironment_withoutBlanks_of_all hblank
  cases h : hasBlankLevel env with
  | false => rw [← hlevel h, hdefault, if_neg Bool.false_ne_true]
  | true =>
      have hbuild : build {} = .ok {} := by decide +kernel
      rw [ofEnvironment_of_hasBlankLevel h, hdefault, hbuild, if_pos rfl]
      rfl

/-- Blanks and an empty level change nothing in an environment that sets a limit, and give the
default configuration where there is no limit either; a level of blanks is refused in both. -/
theorem ofEnvironment_withoutBlanks_limit :
    let env : Assoc String := [("INTENTC_LOG_LEVEL", ""), ("INTENTC_MAX_COMPLEXITY", " 12\n"),
      ("INTENTC_STRICT_LEXING", "\t \u3000")]
    let blankLevel : Assoc String :=
      [("INTENTC_LOG_LEVEL", "\u2028"), ("INTENTC_MAX_COMPLEXITY", " ")]
    ofEnvironment (withoutBlanks env) = ofEnvironment env ∧
    ofEnvironment (withoutBlanks env) = .ok { maxComplexity := 12 } ∧
    ofEnvironment blankLevel = (ofEnvironment (withoutBlanks blankLevel)).bind (fun _ =>
      .error (.unsupportedLevel "")) ∧
    ofEnvironment blankLevel = .error (.unsupportedLevel "") := by
  intro env blankLevel
  refine ⟨(ofEnvironment_withoutBlanks env).1 (by decide +kernel), by decide +kernel,
    (ofEnvironment_withoutBlanks blankLevel).2.1 (by decide +kernel), ?_⟩
  exact (ofEnvironment_withoutBlanks blankLevel).2.2 (by decide +kernel)

/-- A level of one space is an error, and no default. -/
theorem ofEnvironment_blank_level_refused :
    let env : Assoc String := [("INTENTC_LOG_LEVEL", " ")]
    Text.allBlank " " = true ∧ ofEnvironment env = .error (.unsupportedLevel "") ∧
      withoutBlanks env = [] ∧ ofEnvironment (withoutBlanks env) = .ok {} := by
  decide +kernel

end Config

end IntentPlan
