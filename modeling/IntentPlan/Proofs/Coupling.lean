import IntentPlan.Proofs.Outcome

/-!
# Two runs side by side

`Work.Coupled S r` relates two pieces of work by what they make of their sessions: started in
sessions that `S` relates, they fail in the same way or give values that `r` relates, and the
sessions are still related afterwards.  The relation goes through every way in which work is put
together, so that a law about two runs follows the text of the work.  `Work.Rel R r` is the case
where only the files are compared: the times, the ids and the records of the two sessions have
nothing to do with each other.
-/

namespace IntentPlan.Work

variable {ε ε' α α' β β' : Type}

/-- The same failure, or values that are related. -/
inductive Alike (r : α → β → Prop) : Except ε α → Except ε β → Prop
  | ok {a : α} {b : β} (h : r a b) : Alike r (.ok a) (.ok b)
  | error (e : ε) : Alike r (.error e) (.error e)

namespace Alike

theorem refl {r : α → α → Prop} (h : ∀ a, r a a) (x : Except ε α) : Alike r x x := by
  cases x with
  | ok a => exact .ok (h a)
  | error e => exact .error e

theorem mapError {r : α → β → Prop} {x : Except ε α} {y : Except ε β} (f : ε → ε')
    (h : Alike r x y) : Alike r (x.mapError f) (y.mapError f) := by
  cases h with
  | ok h => exact .ok h
  | error e => exact .error (f e)

/-- Values with the same image under a function are the same after it. -/
theorem map_eq {γ : Type} {f : α → γ} {g : β → γ} {x : Except ε α} {y : Except ε β}
    (h : Alike (fun a b => f a = g b) x y) : x.map f = y.map g := by
  cases h with
  | ok h => exact congrArg Except.ok h
  | error e => rfl

theorem eq {x y : Except ε α} (h : Alike Eq x y) : x = y := by
  cases h with
  | ok h => exact congrArg Except.ok h
  | error e => rfl

end Alike

/-- From related sessions both pieces of work come to outcomes that are alike and to related
sessions. -/
def Coupled (S : Session → Session → Prop) (r : α → β → Prop) (w : Work ε α) (v : Work ε β) :
    Prop :=
  ∀ s t, S s t → Alike r (w.outcome s).1 (v.outcome t).1 ∧ S (w.outcome s).2 (v.outcome t).2

namespace Coupled

variable {S : Session → Session → Prop} {r : α → β → Prop}

theorem pure {a : α} {b : β} (h : r a b) : Coupled S r (pure a : Work ε α) (pure b) :=
  fun _ _ hsessions => ⟨.ok h, hsessions⟩

theorem throw (e : ε) : Coupled S r (throw e : Work ε α) (throw e : Work ε β) :=
  fun _ _ hsessions => ⟨.error e, hsessions⟩

theorem ofExcept {x : Except ε α} {y : Except ε β} (h : Alike r x y) :
    Coupled S r (ofExcept x) (ofExcept y) :=
  fun _ _ hsessions => ⟨h, hsessions⟩

theorem bind {q : α' → β' → Prop} {w : Work ε α} {v : Work ε β} {f : α → Work ε α'}
    {g : β → Work ε β'} (hwv : Coupled S r w v) (hfg : ∀ a b, r a b → Coupled S q (f a) (g b)) :
    Coupled S q (w >>= f) (v >>= g) := by
  intro s t hsessions
  obtain ⟨halike, hsessions'⟩ := hwv s t hsessions
  rw [outcome_bind, outcome_bind]
  rcases hw : w.outcome s with ⟨x, s'⟩
  rcases hv : v.outcome t with ⟨y, t'⟩
  rw [hw, hv] at halike hsessions'
  cases halike with
  | ok h => exact hfg _ _ h s' t' hsessions'
  | error e => exact ⟨.error e, hsessions'⟩

theorem mapError {w : Work ε α} {v : Work ε β} (f : ε → ε') (h : Coupled S r w v) :
    Coupled S r (w.mapError f) (v.mapError f) := by
  intro s t hsessions
  obtain ⟨halike, hsessions'⟩ := h s t hsessions
  exact ⟨halike.mapError f, hsessions'⟩

end Coupled

/-- Both pieces of work come to outcomes that are alike. -/
def Rel (R : Files → Files → Prop) (r : α → β → Prop) (w : Work ε α) (v : Work ε β) : Prop :=
  ∀ s t, R s.files t.files →
    Alike r (w.outcome s).1 (v.outcome t).1 ∧ R (w.outcome s).2.files (v.outcome t).2.files

namespace Rel

variable {R : Files → Files → Prop} {r : α → β → Prop}

theorem pure {a : α} {b : β} (h : r a b) : Rel R r (pure a : Work ε α) (pure b) :=
  Coupled.pure (S := fun s t => R s.files t.files) h

theorem throw (e : ε) : Rel R r (throw e : Work ε α) (throw e : Work ε β) :=
  Coupled.throw (S := fun s t => R s.files t.files) e

theorem ofExcept {x : Except ε α} {y : Except ε β} (h : Alike r x y) :
    Rel R r (ofExcept x) (ofExcept y) :=
  Coupled.ofExcept (S := fun s t => R s.files t.files) h

theorem ofExcept_refl (x : Except ε α) : Rel R Eq (Work.ofExcept x) (Work.ofExcept x) :=
  ofExcept (.refl (fun _ => rfl) x)

theorem bind {q : α' → β' → Prop} {w : Work ε α} {v : Work ε β} {f : α → Work ε α'}
    {g : β → Work ε β'} (hwv : Rel R r w v) (hfg : ∀ a b, r a b → Rel R q (f a) (g b)) :
    Rel R q (w >>= f) (v >>= g) :=
  Coupled.bind (S := fun s t => R s.files t.files) hwv hfg

theorem mapError {w : Work ε α} {v : Work ε β} (f : ε → ε') (h : Rel R r w v) :
    Rel R r (w.mapError f) (v.mapError f) :=
  Coupled.mapError (S := fun s t => R s.files t.files) f h

theorem attempt {w : Work ε α} {v : Work ε β} (h : Rel R r w v) :
    Rel R (Alike r) (w.attempt : Work ε' (Except ε α)) v.attempt := by
  intro s t hfiles
  obtain ⟨halike, hfiles'⟩ := h s t hfiles
  exact ⟨.ok halike, hfiles'⟩

/-! What is taken from a session or recorded in it is not compared. -/

theorem readClock : Rel R (fun _ _ => True) (readClock : Work ε Instant) readClock :=
  fun _ _ hfiles => ⟨.ok trivial, hfiles⟩

theorem freshId : Rel R (fun _ _ => True) (freshId : Work ε String) freshId :=
  fun _ _ hfiles => ⟨.ok trivial, hfiles⟩

theorem readStopwatch : Rel R (fun _ _ => True) (readStopwatch : Work ε Float) readStopwatch :=
  fun _ _ hfiles => ⟨.ok trivial, hfiles⟩

theorem noteAll (records records' : List Journal.Record) :
    Rel R (fun _ _ => True) (noteAll records : Work ε Unit) (noteAll records') :=
  fun _ _ hfiles => ⟨.ok trivial, hfiles⟩

/-- Files that are the same read the same. -/
theorem readFile (hR : ∀ f g, R f g → f = g) (path : Path) :
    Rel R Eq (readFile path) (readFile path) := by
  intro s t hfiles
  refine ⟨?_, hfiles⟩
  show Alike Eq (s.files.readText path) (t.files.readText path)
  rw [hR _ _ hfiles]
  exact .refl (fun _ => rfl) _

end Rel

end IntentPlan.Work
