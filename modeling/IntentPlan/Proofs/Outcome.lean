import IntentPlan.Session
import Mathlib.Data.List.Forall2

/-!
# Outcomes of work

One equation for every way in which work is put together.  After these nothing has to look at how
work keeps its session.
-/

namespace IntentPlan.Work

variable {ε ε' α β : Type}

@[simp] theorem outcome_pure (a : α) (s : Session) :
    (pure a : Work ε α).outcome s = (.ok a, s) := rfl

@[simp] theorem outcome_throw (e : ε) (s : Session) :
    (throw e : Work ε α).outcome s = (.error e, s) := rfl

@[simp] theorem outcome_ofExcept (x : Except ε α) (s : Session) :
    (ofExcept x).outcome s = (x, s) := rfl

/-- What comes after a failure is left out, but the session is the one that the failure left. -/
theorem outcome_bind (w : Work ε α) (f : α → Work ε β) (s : Session) :
    (w >>= f).outcome s = match w.outcome s with
      | (.ok a, s') => (f a).outcome s'
      | (.error e, s') => (.error e, s') := by
  change StateT.run (ExceptT.run w >>= ExceptT.bindCont f) s = _
  rw [StateT.run_bind]
  change (match w.outcome s with | (x, s') => StateT.run (ExceptT.bindCont f x) s') = _
  obtain ⟨x, s'⟩ := w.outcome s
  cases x with
  | ok a => rfl
  | error e => rfl

/-- Work that succeeds has done so in both of its parts. -/
theorem outcome_bind_eq_ok_iff {w : Work ε α} {f : α → Work ε β} {s s' : Session} {b : β} :
    (w >>= f).outcome s = (.ok b, s') ↔
      ∃ a s₁, w.outcome s = (.ok a, s₁) ∧ (f a).outcome s₁ = (.ok b, s') := by
  rw [outcome_bind]
  rcases w.outcome s with ⟨x, s₁⟩
  cases x with
  | ok a =>
      constructor
      · exact fun h => ⟨a, s₁, rfl, h⟩
      · rintro ⟨a', s₁', heq, h⟩
        cases heq
        exact h
  | error e =>
      constructor
      · rintro ⟨⟩
      · rintro ⟨a, s₁', heq, -⟩
        cases heq

/-- Work that fails has done so in one of its parts, the first of them that could. -/
theorem outcome_bind_eq_error_iff {w : Work ε α} {f : α → Work ε β} {s s' : Session} {e : ε} :
    (w >>= f).outcome s = (.error e, s') ↔ w.outcome s = (.error e, s') ∨
      ∃ a s₁, w.outcome s = (.ok a, s₁) ∧ (f a).outcome s₁ = (.error e, s') := by
  rw [outcome_bind]
  rcases w.outcome s with ⟨x, s₁⟩
  cases x with
  | ok a =>
      constructor
      · exact fun h => .inr ⟨a, s₁, rfl, h⟩
      · rintro (heq | ⟨a', s₁', heq, h⟩)
        · cases heq
        · cases heq
          exact h
  | error e' =>
      constructor
      · intro h
        cases h
        exact .inl rfl
      · rintro (heq | ⟨a, s₁', heq, -⟩)
        · cases heq
          rfl
        · cases heq

@[simp] theorem outcome_attempt (w : Work ε α) (s : Session) :
    (w.attempt : Work ε' (Except ε α)).outcome s = (.ok (w.outcome s).1, (w.outcome s).2) := rfl

/-- After an attempt the work goes on, whatever the outcome was. -/
theorem outcome_attempt_bind (w : Work ε α) (f : Except ε α → Work ε' β) (s : Session) :
    (w.attempt >>= f).outcome s = (f (w.outcome s).1).outcome (w.outcome s).2 := by
  rw [outcome_bind, outcome_attempt]

@[simp] theorem outcome_mapError (f : ε → ε') (w : Work ε α) (s : Session) :
    (w.mapError f).outcome s = ((w.outcome s).1.mapError f, (w.outcome s).2) := rfl

/-- Success is the same under all names of failures. -/
theorem outcome_mapError_eq_ok_iff {f : ε → ε'} {w : Work ε α} {s s' : Session} {a : α} :
    (w.mapError f).outcome s = (.ok a, s') ↔ w.outcome s = (.ok a, s') := by
  rw [outcome_mapError]
  rcases w.outcome s with ⟨x, s₁⟩
  cases x with
  | ok b =>
      constructor
      · rintro ⟨⟩
        rfl
      · rintro ⟨⟩
        rfl
  | error e =>
      constructor
      · rintro ⟨⟩
      · rintro ⟨⟩

theorem mapError_eq_ok_iff {f : ε → ε'} {x : Except ε α} {a : α} :
    x.mapError f = .ok a ↔ x = .ok a := by
  cases x with
  | ok b => rw [Except.mapError, Except.ok.injEq, Except.ok.injEq]
  | error e => exact iff_of_false nofun nofun

/-- A failure under another name was a failure before. -/
theorem exists_of_outcome_mapError {f : ε → ε'} {w : Work ε α} {s s' : Session} {e : ε'}
    (h : (w.mapError f).outcome s = (.error e, s')) :
    ∃ e₀, w.outcome s = (.error e₀, s') ∧ f e₀ = e := by
  rcases hw : w.outcome s with ⟨x, s₁⟩
  rw [outcome_mapError, hw] at h
  cases x with
  | ok a => cases h
  | error e₀ =>
      cases h
      exact ⟨e₀, rfl, rfl⟩

@[simp] theorem outcome_lift (f : Session → α × Session) (s : Session) :
    (lift f : Work ε α).outcome s = (.ok (f s).1, (f s).2) := rfl

@[simp] theorem outcome_readClock (s : Session) :
    (readClock : Work ε Instant).outcome s = (.ok s.clock.next, { s with clock := s.clock.rest }) :=
  rfl

@[simp] theorem outcome_freshId (s : Session) :
    (freshId : Work ε String).outcome s = (.ok s.ids.next, { s with ids := s.ids.rest }) := rfl

@[simp] theorem outcome_readStopwatch (s : Session) :
    (readStopwatch : Work ε Float).outcome s =
      (.ok s.stopwatch.next, { s with stopwatch := s.stopwatch.rest }) := rfl

@[simp] theorem outcome_noteAll (records : List Journal.Record) (s : Session) :
    (noteAll records : Work ε Unit).outcome s =
      (.ok (), { s with journal := s.journal ++ records }) := rfl

@[simp] theorem outcome_print (line : String) (s : Session) :
    (print line : Work ε Unit).outcome s =
      (.ok (), { s with printed := s.printed ++ line ++ "\n" }) := rfl

/-- Results are collected exactly if each of them is there. -/
theorem mapM_eq_ok_iff {f : α → Except ε β} {xs : List α} {ys : List β} :
    xs.mapM f = .ok ys ↔ List.Forall₂ (fun x y => f x = .ok y) xs ys := by
  induction xs generalizing ys with
  | nil =>
      rw [List.mapM_nil, List.forall₂_nil_left_iff]
      exact ⟨fun h => (Except.ok.inj h).symm, fun h => h ▸ rfl⟩
  | cons x xs ih =>
      rw [List.mapM_cons, List.forall₂_cons_left_iff]
      cases hx : f x with
      | error e => exact ⟨nofun, fun ⟨_, _, hfirst, _⟩ => nomatch hfirst⟩
      | ok y =>
          cases hxs : xs.mapM f with
          | error e =>
              refine ⟨nofun, fun ⟨_, _, _, hrest, _⟩ => ?_⟩
              rw [ih.2 hrest] at hxs
              cases hxs
          | ok zs =>
              constructor
              · rintro ⟨⟩
                exact ⟨y, zs, rfl, ih.1 hxs, rfl⟩
              · rintro ⟨y', zs', hfirst, hrest, rfl⟩
                rw [ih.2 hrest] at hxs
                cases hfirst
                cases hxs
                rfl

end IntentPlan.Work
