import IntentPlan.Proofs.Literals
import Mathlib.Data.List.Forall2

/-!
# What a document is made of

Every step of the machine that reads a document takes a front of the text, whatever comes after it
and whatever frames are open besides (`takesStep_stepValue`, `takesStep_stepAfter`), and so does a
whole value (`exists_completes`).  A document is a value with spaces around it
(`readChars_eq_ok_iff`).  From this follows what becomes of documents that are put together into a
list (`readChars_list`), that lose blanks at their ends (`readChars_of_trims`), or that are cut in
two (`readChars_of_cut`).
-/

namespace IntentPlan.Json

/-! ## Spaces and keys -/

theorem exists_spaces (cs : List Char) :
    ∃ spaces, cs = spaces ++ skipSpace cs ∧ ∀ c ∈ spaces, isSpace c = true :=
  ⟨cs.takeWhile isSpace, List.takeWhile_append_dropWhile.symm,
    List.all_eq_true.1 List.all_takeWhile⟩

theorem skipSpace_append {spaces : List Char} (h : ∀ c ∈ spaces, isSpace c = true)
    (cs : List Char) : skipSpace (spaces ++ cs) = skipSpace cs :=
  List.dropWhile_append_of_pos h

theorem skipSpace_of_head? {cs : List Char} (h : ∀ c ∈ cs.head?, isSpace c = false) :
    skipSpace cs = cs := by
  cases cs with
  | nil => rfl
  | cons c cs => exact List.dropWhile_cons_of_neg (by simp [h c rfl])

theorem isSpace_of_mem_head? {cs : List Char} : ∀ c ∈ (skipSpace cs).head?, isSpace c = false := by
  intro c hc
  have hhead := List.head?_dropWhile_not isSpace cs
  rw [skipSpace, Option.mem_def] at hc
  rw [hc] at hhead
  exact hhead

theorem plain_spaces {spaces : List Char} (h : ∀ c ∈ spaces, isSpace c = true) :
    ∀ c ∈ spaces, isPlain c = true :=
  fun c hc => isPlain_of_isSpace (h c hc)

/-- A key is taken with its colon and what stands between the two. -/
theorem exists_of_readKey {cs rest : List Char} {key : String}
    (h : readKey cs = .ok (key, rest)) :
    ∃ used, cs = '"' :: used ++ rest ∧ Solid ('"' :: used) ∧
      ∀ more, readKey ('"' :: used ++ more) = .ok (key, more) := by
  unfold readKey at h
  split at h
  · rename_i tail
    split at h
    · cases h
    · rename_i text after htext
      obtain ⟨used, rfl, hsolid, hread⟩ := takesText_of_readText htext
      obtain ⟨spaces, hafter, hspaces⟩ := exists_spaces after
      split at h
      · rename_i rest' hcolon
        cases h
        rw [hcolon] at hafter
        refine ⟨used ++ (spaces ++ [':']), ?_, ?_, fun more => ?_⟩
        · rw [hafter]
          simp
        · exact .cons rfl (.append hsolid.plain (.append (plain_spaces hspaces)
            (.singleton rfl rfl)))
        · have hskip : skipSpace (spaces ++ ':' :: more) = ':' :: more := by
            rw [skipSpace_append hspaces]
            rfl
          simp only [readKey, List.cons_append, List.append_assoc, List.nil_append, hread, hskip]
      · cases h
  · cases h

/-! ## Steps -/

/-- What may stand in the place of the rest: after a value nothing that goes on with a number, and
where a value is due the same character in front. -/
def Follows (rest more : List Char) : Phase → Prop
  | .done _ => Stops more
  | .value => more.head? = rest.head?

/-- The step takes these characters and opens these frames, whatever other frames are open and
whatever follows. -/
structure Steps (step : List Frame → List Char → Step) (used : List Char) (phase : Phase)
    (opened : List Frame) (rest : List Char) : Prop where
  plain : ∀ c ∈ used, isPlain c = true
  solid : ∀ d, phase = .done d → Solid used
  again : ∀ outer more, Follows rest more phase →
    step outer (used ++ more) = .ok (phase, opened ++ outer, more)

theorem Steps.of_solid {step : List Frame → List Char → Step} {used rest : List Char}
    {phase : Phase} {opened : List Frame} (h : Solid used)
    (hagain : ∀ outer more, Follows rest more phase →
      step outer (used ++ more) = .ok (phase, opened ++ outer, more)) :
    Steps step used phase opened rest :=
  ⟨h.plain, fun _ _ => h, hagain⟩

/-- The step takes a front of the text that starts in this way. -/
def TakesStep (step : List Frame → List Char → Step) (starts : Char → Bool) (frames : List Frame)
    (cs : List Char) (phase : Phase) (frames' : List Frame) (rest : List Char) : Prop :=
  ∃ c used opened, cs = c :: used ++ rest ∧ starts c = true ∧ frames' = opened ++ frames ∧
    Steps step (c :: used) phase opened rest

section

variable {frames frames' : List Frame} {cs rest : List Char} {phase : Phase}

theorem stepValue_text {s : String}
    (h : readText (cs.length + 1) [] cs = .ok (s, rest)) :
    stepValue frames ('"' :: cs) = .ok (.done (.str s), frames, rest) := by
  simp only [stepValue, List.length_cons, h]

theorem stepValue_emptyArray (h : skipSpace cs = ']' :: rest) :
    stepValue frames ('[' :: cs) = .ok (.done (.list []), frames, rest) := by
  simp only [stepValue, h]

theorem stepValue_array (h : (skipSpace cs).head? ≠ some ']') :
    stepValue frames ('[' :: cs) = .ok (.value, .array [] :: frames, skipSpace cs) := by
  rw [stepValue]
  split
  · rename_i hclose
    rw [hclose] at h
    exact absurd rfl h
  · rfl

theorem stepValue_emptyObject (h : skipSpace cs = '\x7d' :: rest) :
    stepValue frames ('\x7b' :: cs) = .ok (.done (.map []), frames, rest) := by
  simp only [stepValue, h]

theorem stepValue_object {key : String} (h : readKey (skipSpace cs) = .ok (key, rest)) :
    stepValue frames ('\x7b' :: cs) = .ok (.value, .object [] key :: frames, rest) := by
  rw [stepValue]
  split
  · rename_i hclose
    rw [hclose] at h
    cases h
  · rw [h]

theorem stepValue_plain {c : Char} (hc : c ≠ '"' ∧ c ≠ '[' ∧ c ≠ '\x7b') {d : Datum}
    (h : readPlain (c :: cs) = .ok (d, rest)) :
    stepValue frames (c :: cs) = .ok (.done d, frames, rest) := by
  unfold stepValue
  split
  · rename_i heq
    exact absurd (List.cons.inj heq).1 hc.1
  · rename_i heq
    exact absurd (List.cons.inj heq).1 hc.2.1
  · rename_i heq
    exact absurd (List.cons.inj heq).1 hc.2.2
  · rw [h]

theorem takesStep_array (h : stepValue frames ('[' :: cs) = .ok (phase, frames', rest)) :
    TakesStep stepValue opens frames ('[' :: cs) phase frames' rest := by
  obtain ⟨spaces, hcs, hspaces⟩ := exists_spaces cs
  by_cases hclose : (skipSpace cs).head? = some ']'
  · obtain ⟨tail, htail⟩ := List.head?_eq_some_iff.1 hclose
    rw [stepValue_emptyArray htail] at h
    cases h
    rw [htail] at hcs
    refine ⟨'[', spaces ++ [']'], [], by simp [hcs], rfl, rfl, .of_solid (.cons rfl (.append
      (plain_spaces hspaces) (.singleton rfl rfl))) fun outer more _ => ?_⟩
    rw [List.cons_append, List.append_assoc]
    exact stepValue_emptyArray (skipSpace_append hspaces _)
  · rw [stepValue_array hclose] at h
    cases h
    refine ⟨'[', spaces, [.array []], by rw [List.cons_append, ← hcs], rfl, rfl, ?_, nofun, ?_⟩
    · exact List.forall_mem_cons.2 ⟨rfl, plain_spaces hspaces⟩
    · intro outer more hmore
      -- the first character of an item is no space and no bracket, so it has to be the same
      have hhead : more.head? = (skipSpace cs).head? := hmore
      have hskip : skipSpace (spaces ++ more) = more := by
        rw [skipSpace_append hspaces]
        exact skipSpace_of_head? fun c hc => isSpace_of_mem_head? c (hhead ▸ hc)
      rw [List.cons_append, stepValue_array (by rwa [hskip, hhead]), hskip]
      rfl

theorem takesStep_object (h : stepValue frames ('\x7b' :: cs) = .ok (phase, frames', rest)) :
    TakesStep stepValue opens frames ('\x7b' :: cs) phase frames' rest := by
  obtain ⟨spaces, hcs, hspaces⟩ := exists_spaces cs
  rw [stepValue] at h
  split at h
  · rename_i tail htail
    cases h
    rw [htail] at hcs
    refine ⟨'\x7b', spaces ++ ['\x7d'], [], by simp [hcs], rfl, rfl, .of_solid (.cons rfl (.append
      (plain_spaces hspaces) (.singleton rfl rfl))) fun outer more _ => ?_⟩
    rw [List.cons_append, List.append_assoc]
    exact stepValue_emptyObject (skipSpace_append hspaces _)
  · split at h
    · cases h
    · rename_i key after hkey
      cases h
      obtain ⟨used, hused, hsolid, hread⟩ := exists_of_readKey hkey
      rw [hused] at hcs
      refine ⟨'\x7b', spaces ++ '"' :: used, [.object [] key], by simp [hcs], rfl, rfl, .of_solid
        (.cons rfl (.append (plain_spaces hspaces) hsolid)) fun outer more _ => ?_⟩
      rw [List.cons_append, List.append_assoc]
      refine stepValue_object ?_
      rw [skipSpace_append hspaces]
      exact hread more

theorem takesStep_stepValue (h : stepValue frames cs = .ok (phase, frames', rest)) :
    TakesStep stepValue opens frames cs phase frames' rest := by
  rw [stepValue.eq_def] at h
  split at h
  · rename_i tail
    split at h
    · cases h
    · rename_i s after htext
      cases h
      obtain ⟨used, rfl, hsolid, hread⟩ := takesText_of_readText htext
      refine ⟨'"', used, [], rfl, rfl, rfl, .of_solid (.cons rfl hsolid) fun outer more _ => ?_⟩
      exact stepValue_text (hread _ more)
  · exact takesStep_array (by rw [stepValue.eq_def]; exact h)
  · exact takesStep_object (by rw [stepValue.eq_def]; exact h)
  · rename_i hquote hbracket hbrace
    split at h
    · cases h
    · rename_i d after hplain
      cases h
      obtain ⟨used, rfl, hsolid, ⟨c, hc, hopens⟩, hread⟩ := exists_of_readPlain hplain
      obtain ⟨used, rfl⟩ := List.head?_eq_some_iff.1 hc
      refine ⟨c, used, [], rfl, hopens, rfl, .of_solid hsolid fun outer more hmore => ?_⟩
      refine stepValue_plain ⟨?_, ?_, ?_⟩ (hread more hmore)
      · rintro rfl
        exact hquote _ rfl
      · rintro rfl
        exact hbracket _ rfl
      · rintro rfl
        exact hbrace _ rfl

/-- The characters that come after a value in an array or an object. -/
def closes (c : Char) : Bool := [']', '\x7d', ','].contains c

theorem takesStep_stepAfter {d : Datum} {frame : Frame}
    (h : stepAfter d frame frames cs = .ok (phase, frames', rest)) :
    TakesStep (stepAfter d frame) closes frames cs phase frames' rest := by
  unfold stepAfter at h
  split at h
  · cases h
    exact ⟨']', [], [], rfl, rfl, rfl, .of_solid (.singleton rfl rfl) fun _ _ _ => rfl⟩
  · rename_i items tail
    cases h
    exact ⟨',', [], [.array (d :: items)], rfl, rfl, rfl,
      .of_solid (.singleton rfl rfl) fun _ _ _ => rfl⟩
  · cases h
    exact ⟨'\x7d', [], [], rfl, rfl, rfl, .of_solid (.singleton rfl rfl) fun _ _ _ => rfl⟩
  · rename_i fields key tail
    split at h
    · cases h
    · rename_i next after hkey
      cases h
      obtain ⟨spaces, htail, hspaces⟩ := exists_spaces tail
      obtain ⟨used, hused, hsolid, hread⟩ := exists_of_readKey hkey
      rw [hused] at htail
      refine ⟨',', spaces ++ '"' :: used, [.object (Assoc.put key d fields) next], by simp [htail],
        rfl, rfl, .of_solid (.cons rfl (.append (plain_spaces hspaces) hsolid))
        fun outer more _ => ?_⟩
      have hnext : readKey (skipSpace (spaces ++ '"' :: used ++ more)) = .ok (next, more) := by
        rw [List.append_assoc, skipSpace_append hspaces]
        exact hread more
      rw [List.cons_append, stepAfter, hnext]
      rfl
  · cases h

end

/-! ## Values -/

theorem isBlank_of_isSpace {c : Char} (h : isSpace c = true) : Text.isBlank c = true := by
  simp only [isSpace, Bool.or_eq_true, decide_eq_true_eq] at h
  obtain ((rfl | rfl) | rfl) | rfl := h
  · rfl
  · rfl
  · rfl
  · rfl

/-- Nothing that starts a value is a blank. -/
theorem isBlank_of_opens {c : Char} (h : opens c = true) : Text.isBlank c = false := by
  rw [opens, Bool.or_eq_true] at h
  rcases h with hdigit | hother
  · exact isBlank_of_isDigit hdigit
  · have hall : (['"', '[', '\x7b', '-', 'n', 't', 'f', 'N', 'I'].all fun c => !Text.isBlank c) =
        true := by decide
    simpa using List.all_eq_true.1 hall c (List.contains_iff_mem.1 hother)

theorem isSpace_of_opens {c : Char} (h : opens c = true) : isSpace c = false := by
  rw [Bool.eq_false_iff]
  intro hspace
  have hblank := isBlank_of_opens h
  rw [isBlank_of_isSpace hspace] at hblank
  cases hblank

theorem run_value {frames frames' : List Frame} {cs rest : List Char} {phase : Phase}
    (h : stepValue frames (skipSpace cs) = .ok (phase, frames', rest)) :
    run .value frames cs = run phase frames' rest := by
  rw [run]
  split
  · rename_i heq
    rw [h] at heq
    cases heq
  · rename_i heq
    rw [h] at heq
    cases heq
    rfl

theorem run_done {d : Datum} {frame : Frame} {frames frames' : List Frame} {cs rest : List Char}
    {phase : Phase} (h : stepAfter d frame frames (skipSpace cs) = .ok (phase, frames', rest)) :
    run (.done d) (frame :: frames) cs = run phase frames' rest := by
  rw [run]
  split
  · rename_i heq
    rw [h] at heq
    cases heq
  · rename_i heq
    rw [h] at heq
    cases heq
    rfl

/-- From this phase on, the characters close these frames and come to this value, whatever other
frames are open and whatever follows. -/
structure Completes (phase : Phase) (frames : List Frame) (used : List Char) (d : Datum) :
    Prop where
  ends : used = [] ∧ phase = .done d ∨ Solid used
  opens : phase = .value → ∃ spaces c tail, used = spaces ++ c :: tail ∧
    (∀ x ∈ spaces, isSpace x = true) ∧ opens c = true
  stops : ∀ x, phase = .done x → Stops used
  run : ∀ outer more, Stops more →
    Json.run phase (frames ++ outer) (used ++ more) = Json.run (.done d) outer more

theorem Completes.follows {phase : Phase} {frames : List Frame} {used more : List Char} {d : Datum}
    (h : Completes phase frames used d) (hmore : Stops more) (rest : List Char) :
    Follows (used ++ rest) (used ++ more) phase := by
  cases phase with
  | value =>
      obtain ⟨spaces, c, tail, rfl, -⟩ := h.opens rfl
      cases spaces with
      | nil => rfl
      | cons space spaces => rfl
  | done x =>
      cases used with
      | nil => exact hmore
      | cons c used => exact fun c' hc' => h.stops x rfl c' hc'

/-- A step and what comes after it, behind some spaces. -/
theorem Completes.solid_of_step {step : List Frame → List Char → Step}
    {spaces front used rest : List Char} {phase : Phase} {opened frames : List Frame} {d : Datum}
    (hspaces : ∀ c ∈ spaces, isSpace c = true) (hstep : Steps step front phase opened rest)
    (h : Completes phase frames used d) : Solid (spaces ++ (front ++ used)) := by
  refine .append (plain_spaces hspaces) ?_
  rcases h.ends with ⟨rfl, hphase⟩ | hsolid
  · rw [List.append_nil]
    exact hstep.solid d hphase
  · exact hsolid.append hstep.plain

theorem closes_cases {c : Char} (h : closes c = true) : c = ']' ∨ c = '\x7d' ∨ c = ',' := by
  simpa using List.contains_iff_mem.1 h

theorem isSpace_of_closes {c : Char} (h : closes c = true) : isSpace c = false := by
  obtain rfl | rfl | rfl := closes_cases h
  · rfl
  · rfl
  · rfl

theorem isSpace_cases {c : Char} (h : isSpace c = true) :
    c = ' ' ∨ c = '\t' ∨ c = '\n' ∨ c = '\r' := by
  simpa [isSpace, or_assoc] using h

/-- A number does not go on with a space. -/
theorem stops_of_space {spaces cs : List Char} (hspaces : ∀ c ∈ spaces, isSpace c = true)
    (hcs : Stops cs) : Stops (spaces ++ cs) := by
  cases spaces with
  | nil => exact hcs
  | cons space spaces =>
      rintro _ ⟨⟩
      obtain rfl | rfl | rfl | rfl := isSpace_cases (hspaces space List.mem_cons_self)
      · decide
      · decide
      · decide
      · decide

theorem stops_of_closes {c : Char} (h : closes c = true) (cs : List Char) : Stops (c :: cs) := by
  rintro _ ⟨⟩
  obtain rfl | rfl | rfl := closes_cases h
  · decide
  · decide
  · decide

theorem skipSpace_behind {spaces front used more : List Char} {c : Char}
    (hspaces : ∀ c ∈ spaces, isSpace c = true) (hc : isSpace c = false) :
    skipSpace (spaces ++ (c :: front ++ used) ++ more) = c :: front ++ (used ++ more) := by
  rw [List.append_assoc, skipSpace_append hspaces, List.append_assoc]
  exact skipSpace_of_head? (by rintro _ ⟨⟩; exact hc)

/-- What a value takes can be put in front of anything that does not go on with it. -/
theorem exists_completes {phase : Phase} {frames : List Frame} {cs rest : List Char} {d : Datum}
    (h : run phase frames cs = .ok (d, rest)) :
    ∃ used, cs = used ++ rest ∧ Completes phase frames used d := by
  fun_induction run phase frames cs with
  | case1 cs d' =>
      cases h
      exact ⟨[], rfl, .inl ⟨rfl, rfl⟩, nofun, fun _ _ => nofun, fun _ _ _ => rfl⟩
  | case2 => cases h
  | case3 cs d' frame frames phase frames' tail hstep _ ih =>
      obtain ⟨spaces, hcs, hspaces⟩ := exists_spaces cs
      obtain ⟨c, front, opened, hfront, hc, rfl, hsteps⟩ := takesStep_stepAfter hstep
      obtain ⟨used, rfl, hcompletes⟩ := ih h
      have hsolid := hcompletes.solid_of_step hspaces hsteps
      refine ⟨spaces ++ (c :: front ++ used), hcs.trans (by simp [hfront]), .inr hsolid, nofun,
        fun _ _ => stops_of_space hspaces (stops_of_closes hc _), fun outer more hmore => ?_⟩
      have hagain := hsteps.again (frames ++ outer) _ (hcompletes.follows hmore rest)
      rw [← skipSpace_behind hspaces (isSpace_of_closes hc)] at hagain
      rw [List.cons_append, run_done hagain, ← List.append_assoc]
      exact hcompletes.run outer more hmore
  | case4 => cases h
  | case5 cs frames phase frames' tail hstep _ ih =>
      obtain ⟨spaces, hcs, hspaces⟩ := exists_spaces cs
      obtain ⟨c, front, opened, hfront, hc, rfl, hsteps⟩ := takesStep_stepValue hstep
      obtain ⟨used, rfl, hcompletes⟩ := ih h
      have hsolid := hcompletes.solid_of_step hspaces hsteps
      refine ⟨spaces ++ (c :: front ++ used), hcs.trans (by simp [hfront]), .inr hsolid,
        fun _ => ⟨spaces, c, front ++ used, rfl, hspaces, hc⟩, nofun, fun outer more hmore => ?_⟩
      have hagain := hsteps.again (frames ++ outer) _ (hcompletes.follows hmore rest)
      rw [← skipSpace_behind hspaces (isSpace_of_opens hc)] at hagain
      rw [run_value hagain, ← List.append_assoc]
      exact hcompletes.run outer more hmore

/-! ## Documents -/

theorem run_value_congr {frames : List Frame} {cs cs' : List Char}
    (h : skipSpace cs = skipSpace cs') : run .value frames cs = run .value frames cs' := by
  rcases hstep : stepValue frames (skipSpace cs) with e | ⟨phase, frames', rest⟩
  · have herror : ∀ cs, stepValue frames (skipSpace cs) = .error e →
        run .value frames cs = .error e := by
      intro cs hcs
      rw [run]
      split
      · rename_i heq
        rw [hcs] at heq
        cases heq
        rfl
      · rename_i heq
        rw [hcs] at heq
        cases heq
    rw [herror cs hstep, herror cs' (h ▸ hstep)]
  · rw [run_value hstep, run_value (h ▸ hstep)]

theorem skipSpace_eq_nil_iff {cs : List Char} :
    skipSpace cs = [] ↔ ∀ c ∈ cs, isSpace c = true := by
  constructor
  · intro h
    obtain ⟨spaces, hcs, hspaces⟩ := exists_spaces cs
    rw [h, List.append_nil] at hcs
    rwa [hcs]
  · intro h
    rw [← List.append_nil cs, skipSpace_append h]
    rfl

theorem stops_spaces {spaces : List Char} (h : ∀ c ∈ spaces, isSpace c = true) : Stops spaces := by
  rw [← List.append_nil spaces]
  exact stops_of_space h fun c hc => by cases hc

theorem Completes.run_nil {used more : List Char} {d : Datum} (h : Completes .value [] used d)
    (hmore : Stops more) : Json.run .value [] (used ++ more) = .ok (d, more) := by
  have hrun := h.run [] more hmore
  rw [Json.run] at hrun
  exact hrun

/-- A document is a value and spaces after it; spaces in front of it are part of the value. -/
theorem readChars_eq_ok_iff {cs : List Char} {d : Datum} :
    readChars cs = .ok d ↔ ∃ used spaces, cs = used ++ spaces ∧
      (∀ c ∈ spaces, isSpace c = true) ∧ Completes .value [] used d := by
  constructor
  · intro h
    rw [readChars] at h
    split at h
    · cases h
    · rcases hrun : run .value [] cs with e | ⟨d', rest⟩
      · rw [hrun] at h
        cases h
      · obtain ⟨used, rfl, hcompletes⟩ := exists_completes hrun
        rw [hrun] at h
        dsimp only at h
        split at h
        · rename_i hnil
          cases h
          exact ⟨used, rest, rfl, skipSpace_eq_nil_iff.1 hnil, hcompletes⟩
        · cases h
  · rintro ⟨used, spaces, rfl, hspaces, hcompletes⟩
    have hmark : (used ++ spaces).head? ≠ some '\ufeff' := by
      obtain ⟨front, c, tail, rfl, hfront, hc⟩ := hcompletes.opens rfl
      cases front with
      | nil =>
          rintro ⟨⟩
          exact absurd hc (by decide)
      | cons space front =>
          rintro ⟨⟩
          exact absurd (hfront '\ufeff' List.mem_cons_self) (by decide)
    rw [readChars, if_neg hmark, hcompletes.run_nil (stops_spaces hspaces)]
    dsimp only
    rw [skipSpace_eq_nil_iff.2 hspaces]

theorem readChars_list_nil : readChars ['[', ']'] = .ok (.list []) := by
  have hrun : run .value [] ['[', ']'] = .ok (.list [], []) := by
    rw [run_value (stepValue_emptyArray rfl), run]
  rw [readChars, hrun]
  rfl

theorem exists_opens_of_readChars {cs : List Char} {d : Datum} (h : readChars cs = .ok d) :
    ∃ spaces c tail, cs = spaces ++ c :: tail ∧ (∀ x ∈ spaces, isSpace x = true) ∧
      opens c = true := by
  obtain ⟨used, after, rfl, -, hcompletes⟩ := readChars_eq_ok_iff.1 h
  obtain ⟨spaces, c, tail, rfl, hspaces, hc⟩ := hcompletes.opens rfl
  exact ⟨spaces, c, tail ++ after, by simp, hspaces, hc⟩

/-- A document in front of what comes after an item is read as an item. -/
theorem exists_spaces_of_readChars {cs : List Char} {d : Datum} (h : readChars cs = .ok d) :
    ∃ spaces, (∀ c ∈ spaces, isSpace c = true) ∧ ∀ frames more, Stops more →
      run .value frames (cs ++ more) = run (.done d) frames (spaces ++ more) := by
  obtain ⟨used, spaces, rfl, hspaces, hcompletes⟩ := readChars_eq_ok_iff.1 h
  refine ⟨spaces, hspaces, fun frames more hmore => ?_⟩
  rw [List.append_assoc]
  exact hcompletes.run frames (spaces ++ more) (stops_of_space hspaces hmore)

/-- Documents with commas between them are read as the rest of an array. -/
theorem run_items {docs : List (List Char)} {values : List Datum} (hne : docs ≠ [])
    (h : List.Forall₂ (fun cs d => readChars cs = .ok d) docs values) (items : List Datum)
    (more : List Char) :
    run .value [.array items] (List.intercalate [','] docs ++ ']' :: more) =
      .ok (.list (items.reverse ++ values), more) := by
  have hclose : ∀ c more, closes c = true → ∀ spaces : List Char,
      (∀ x ∈ spaces, isSpace x = true) → skipSpace (spaces ++ c :: more) = c :: more := by
    intro c more hc spaces hspaces
    rw [skipSpace_append hspaces]
    exact skipSpace_of_head? (by rintro _ ⟨⟩; exact isSpace_of_closes hc)
  induction h generalizing items with
  | nil => exact absurd rfl hne
  | @cons cs d docs values hcs hrest ih =>
      obtain ⟨spaces, hspaces, hrun⟩ := exists_spaces_of_readChars hcs
      cases docs with
      | nil =>
          cases hrest
          have hstep : stepAfter d (.array items) [] (skipSpace (spaces ++ ']' :: more)) =
              .ok (.done (.list (items.reverse ++ [d])), [], more) := by
            rw [hclose ']' more rfl spaces hspaces, stepAfter, List.reverse_cons]
          rw [List.intercalate_singleton, hrun _ _ (stops_of_closes rfl _), run_done hstep, run]
      | cons next docs =>
          have hstep : ∀ tail, stepAfter d (.array items) [] (skipSpace (spaces ++ ',' :: tail)) =
              .ok (.value, [.array (d :: items)], tail) := by
            intro tail
            rw [hclose ',' tail rfl spaces hspaces, stepAfter]
          have hjoin : List.intercalate [','] (cs :: next :: docs) ++ ']' :: more =
              cs ++ ',' :: (List.intercalate [','] (next :: docs) ++ ']' :: more) := by
            simp [List.intercalate_cons_cons]
          rw [hjoin, hrun _ _ (stops_of_closes rfl _), run_done (hstep _),
            ih (List.cons_ne_nil _ _) (d :: items)]
          simp

/-- A list of documents is a document. -/
theorem readChars_list {docs : List (List Char)} {values : List Datum}
    (h : List.Forall₂ (fun cs d => readChars cs = .ok d) docs values) :
    readChars ('[' :: (List.intercalate [','] docs ++ [']'])) = .ok (.list values) := by
  cases h with
  | nil => exact readChars_list_nil
  | @cons cs d docs values hcs hrest =>
      have hitems := run_items (List.cons_ne_nil _ _) (.cons hcs hrest) [] []
      -- the first item does not close the array
      have hopen : (skipSpace (List.intercalate [','] (cs :: docs) ++ [']'])).head? ≠ some ']' := by
        obtain ⟨spaces, c, tail, rfl, hspaces, hc⟩ := exists_opens_of_readChars hcs
        obtain ⟨more, hmore⟩ : ∃ more, List.intercalate [','] ((spaces ++ c :: tail) :: docs) =
            spaces ++ c :: more := by
          cases docs with
          | nil => exact ⟨tail, List.intercalate_singleton⟩
          | cons next docs =>
              refine ⟨tail ++ ',' :: List.intercalate [','] (next :: docs), ?_⟩
              simp [List.intercalate_cons_cons]
        rw [hmore, List.append_assoc, skipSpace_append hspaces,
          skipSpace_of_head? (by rintro _ ⟨⟩; exact isSpace_of_opens hc)]
        rintro ⟨⟩
        exact absurd hc (by decide)
      have hrun : run .value [] ('[' :: (List.intercalate [','] (cs :: docs) ++ [']'])) =
          .ok (.list (d :: values), []) := by
        rw [run_value (stepValue_array hopen),
          run_value_congr (skipSpace_of_head? isSpace_of_mem_head?)]
        exact hitems
      rw [readChars, hrun]
      rfl

/-! ## Documents that lose a part -/

/-- The line is the text without some blanks at its ends. -/
def Trims (line cs : List Char) : Prop :=
  ∃ front back, cs = front ++ line ++ back ∧ (∀ c ∈ front, Text.isBlank c = true) ∧
    ∀ c ∈ back, Text.isBlank c = true

theorem Trims.refl (line : List Char) : Trims line line :=
  ⟨[], [], by simp, nofun, nofun⟩

theorem Trims.trans {line cs ds : List Char} (h : Trims line cs) (h' : Trims cs ds) :
    Trims line ds := by
  obtain ⟨front, back, rfl, hfront, hback⟩ := h
  obtain ⟨front', back', rfl, hfront', hback'⟩ := h'
  refine ⟨front' ++ front, back ++ back', by simp, fun c hc => ?_, fun c hc => ?_⟩
  · exact (List.mem_append.1 hc).elim (hfront' c) (hfront c)
  · exact (List.mem_append.1 hc).elim (hback c) (hback' c)

theorem exists_of_append_eq_append_cons {P : Char → Prop} {front line spaces tail : List Char}
    {c : Char} (hfront : ∀ x ∈ front, P x) (hc : ¬P c)
    (h : front ++ line = spaces ++ c :: tail) :
    ∃ between, spaces = front ++ between ∧ line = between ++ c :: tail := by
  rcases List.append_eq_append_iff.1 h with ⟨between, hspaces, hline⟩ | ⟨between, rfl, htail⟩
  · exact ⟨between, hspaces, hline⟩
  · cases between with
    | nil => exact ⟨[], by simp, by simpa using htail.symm⟩
    | cons x between =>
        obtain ⟨rfl, -⟩ := List.cons.inj htail
        exact absurd (hfront c (by simp)) hc

theorem exists_of_append_eq_concat_append {P : Char → Prop} {line back front spaces : List Char}
    {c : Char} (hback : ∀ x ∈ back, P x) (hc : ¬P c)
    (h : line ++ back = (front ++ [c]) ++ spaces) :
    ∃ between, line = (front ++ [c]) ++ between ∧ spaces = between ++ back := by
  have hreverse := congrArg List.reverse h
  simp only [List.reverse_append, List.reverse_cons, List.reverse_nil, List.nil_append] at hreverse
  obtain ⟨between, hspaces, hline⟩ := exists_of_append_eq_append_cons
    (fun x hx => hback x (List.mem_reverse.1 hx)) hc hreverse
  refine ⟨between.reverse, ?_, ?_⟩
  · have := congrArg List.reverse hline
    simpa using this
  · have := congrArg List.reverse hspaces
    simpa using this

theorem Solid.of_append {front used : List Char} (h : Solid (front ++ used)) (hne : used ≠ []) :
    Solid used where
  plain c hc := h.plain c (List.mem_append_right _ hc)
  last := by
    obtain ⟨more, c, heq, hc⟩ := h.last
    refine ⟨used.dropLast, used.getLast hne, (List.dropLast_concat_getLast hne).symm, ?_⟩
    have hlast : used.getLast? = some c := by
      rw [← List.getLast?_append_of_ne_nil front hne, heq, List.getLast?_concat]
    rw [List.getLast?_eq_some_getLast hne] at hlast
    rwa [Option.some.inj hlast]

/-- Blanks in front of a document are spaces and can be left out. -/
theorem readChars_of_blank_append {front line : List Char} {d : Datum}
    (hfront : ∀ c ∈ front, Text.isBlank c = true) (h : readChars (front ++ line) = .ok d) :
    (∀ c ∈ front, isSpace c = true) ∧ readChars line = .ok d := by
  obtain ⟨used, after, heq, hafter, hcompletes⟩ := readChars_eq_ok_iff.1 h
  obtain ⟨spaces, c, tail, rfl, hspaces, hc⟩ := hcompletes.opens rfl
  rw [List.append_assoc] at heq
  obtain ⟨between, rfl, rfl⟩ := exists_of_append_eq_append_cons hfront
    (by simp [isBlank_of_opens hc]) heq
  have hfront' : ∀ c ∈ front, isSpace c = true :=
    fun c hc => hspaces c (List.mem_append_left _ hc)
  have hbetween : ∀ c ∈ between, isSpace c = true :=
    fun c hc => hspaces c (List.mem_append_right _ hc)
  refine ⟨hfront', readChars_eq_ok_iff.2 ⟨between ++ c :: tail, after, by simp, hafter, ?_, ?_,
    nofun, fun outer more hmore => ?_⟩⟩
  · rcases hcompletes.ends with ⟨hnil, -⟩ | hsolid
    · simp at hnil
    · rw [List.append_assoc] at hsolid
      exact .inr (hsolid.of_append (by simp))
  · exact fun _ => ⟨between, c, tail, rfl, hbetween, hc⟩
  · rw [← hcompletes.run outer more hmore]
    refine run_value_congr ?_
    rw [List.append_assoc front, List.append_assoc front, skipSpace_append hfront']

/-- Blanks at the ends of a document can be left out. -/
theorem readChars_of_trims {line cs : List Char} {d : Datum} (h : readChars cs = .ok d)
    (htrims : Trims line cs) : readChars line = .ok d := by
  obtain ⟨front, back, rfl, hfront, hback⟩ := htrims
  rw [List.append_assoc] at h
  obtain ⟨-, h⟩ := readChars_of_blank_append hfront h
  obtain ⟨used, after, heq, hafter, hcompletes⟩ := readChars_eq_ok_iff.1 h
  rcases hcompletes.ends with ⟨-, hphase⟩ | hsolid
  · cases hphase
  obtain ⟨more, c, rfl, hc⟩ := hsolid.last
  obtain ⟨between, rfl, rfl⟩ := exists_of_append_eq_concat_append hback (by simp [hc]) heq
  exact readChars_eq_ok_iff.2 ⟨more ++ [c], between, rfl,
    fun x hx => hafter x (List.mem_append_left _ hx), hcompletes⟩

theorem stops_of_blank {cs : List Char} (h : ∀ c ∈ cs.head?, Text.isBlank c = true) :
    Stops cs := by
  intro c hc
  have hblank := h c hc
  refine ⟨?_, ?_, ?_, ?_⟩
  · rw [Bool.eq_false_iff]
    intro hdigit
    rw [isBlank_of_isDigit hdigit] at hblank
    cases hblank
  · rintro rfl
    exact absurd hblank (by decide)
  · rintro rfl
    exact absurd hblank (by decide)
  · rintro rfl
    exact absurd hblank (by decide)

theorem isSpace_of_run {cs rest : List Char} {d d' : Datum} (h : readChars cs = .ok d)
    (hrun : run .value [] cs = .ok (d', rest)) : ∀ c ∈ rest, isSpace c = true := by
  rw [readChars] at h
  split at h
  · cases h
  · rw [hrun] at h
    dsimp only at h
    split at h
    · exact skipSpace_eq_nil_iff.1 ‹_›
    · cases h

section

variable {line cs more : List Char} {c : Char} {d : Datum}
variable (hblank : Text.isBlank c = true) (hspace : isSpace c = false)

include hblank hspace

/-- A document is not cut before it starts. -/
theorem exists_of_cut (h : readChars (cs ++ c :: more) = .ok d) :
    ∃ x ∈ cs, Text.isBlank x = false := by
  by_contra hall
  have hfront : ∀ x ∈ cs ++ [c], Text.isBlank x = true := by
    intro x hx
    rcases List.mem_append.1 hx with hx | hx
    · by_contra hne
      exact hall ⟨x, hx, Bool.eq_false_iff.2 hne⟩
    · rw [List.mem_singleton.1 hx]
      exact hblank
  rw [List.append_cons] at h
  have hc := (readChars_of_blank_append hfront h).1 c (by simp)
  rw [hspace] at hc
  cases hc

/-- The part of a document before a blank that is no space is no document. -/
theorem readChars_of_cut (h : readChars (cs ++ c :: more) = .ok d) (htrims : Trims line cs)
    (d' : Datum) : readChars line ≠ .ok d' := by
  intro hline
  obtain ⟨front, back, rfl, hfront, hback⟩ := htrims
  rw [List.append_assoc, List.append_assoc] at h
  obtain ⟨-, h⟩ := readChars_of_blank_append hfront h
  obtain ⟨spaces, hspaces, hrun⟩ := exists_spaces_of_readChars hline
  have hstops : Stops (back ++ c :: more) := by
    refine stops_of_blank ?_
    cases back with
    | nil =>
        rintro _ ⟨⟩
        exact hblank
    | cons x back =>
        rintro _ ⟨⟩
        exact hback x List.mem_cons_self
  -- what is left after the value would have to be spaces
  have hrest := isSpace_of_run h ((hrun [] _ hstops).trans (by rw [run])) c (by simp)
  rw [hspace] at hrest
  cases hrest

end

theorem isPlain_of_readChars {cs : List Char} {d : Datum} (h : readChars cs = .ok d) :
    ∀ c ∈ cs, isPlain c = true := by
  obtain ⟨used, spaces, rfl, hspaces, hcompletes⟩ := readChars_eq_ok_iff.1 h
  intro c hc
  rcases List.mem_append.1 hc with hused | hspace
  · rcases hcompletes.ends with ⟨-, hphase⟩ | hsolid
    · cases hphase
    · exact hsolid.plain c hused
  · exact isPlain_of_isSpace (hspaces c hspace)

end IntentPlan.Json
