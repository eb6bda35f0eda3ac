import IntentPlan.Sorting
import Mathlib.Data.List.Chain
import Mathlib.Order.Lattice

/-!
# Sorting keeps all items and puts them in order

Where no comparison of two of its items fails, a list is sorted without a failure, and it makes no
difference what else the items carry (`sort_map`).  The result has the same items (`sorted_perm`).
Where items are compared by their keys, it stands in the order of the keys, and items with the same
key stand as they did (`pairwise_sorted`).
-/

namespace IntentPlan.Sorting

variable {α β : Type}

/-! ## Comparisons that do not fail -/

section Total

variable (r : α → α → Bool)

/-- An item put into a list. -/
def inserted (x : α) (xs : List α) : List α := Id.run (insert (fun a b => pure (r a b)) x xs)

/-- The run at the front of a list, and the rest. -/
def runAndRest (falling : Bool) (last : α) (xs : List α) : List α × List α :=
  Id.run (splitRun (fun a b => pure (r a b)) falling last xs)

/-- A list sorted by a comparison. -/
def sorted (xs : List α) : List α := Id.run (sort (fun a b => pure (r a b)) xs)

end Total

section Equations

variable {m : Type → Type} [Monad m]

theorem insert_nil (before : α → α → m Bool) (x : α) : insert before x [] = pure [x] := by
  rw [insert]
  split
  · rfl
  · rename_i hdrop
    simp at hdrop

theorem insert_of_drop (before : α → α → m Bool) (x : α) {xs : List α} {middle : α}
    {above : List α} (h : xs.drop (xs.length / 2) = middle :: above) :
    insert before x xs = do
      if ← before x middle then
        return (← insert before x (xs.take (xs.length / 2))) ++ middle :: above
      else return xs.take (xs.length / 2) ++ middle :: (← insert before x above) := by
  rw [insert]
  split
  · rename_i hdrop
    rw [h] at hdrop
    cases hdrop
  · rename_i hdrop
    rw [h] at hdrop
    cases hdrop
    rfl

theorem eq_nil_of_drop_half {xs : List α} (h : xs.drop (xs.length / 2) = []) : xs = [] := by
  rw [List.drop_eq_nil_iff] at h
  exact List.eq_nil_of_length_eq_zero (by omega)

end Equations

section Total

variable {r : α → α → Bool}

theorem inserted_nil (x : α) : inserted r x [] = [x] := by
  rw [inserted, insert_nil]
  rfl

theorem inserted_of_drop (x : α) {xs : List α} {middle : α} {above : List α}
    (h : xs.drop (xs.length / 2) = middle :: above) :
    inserted r x xs =
      if r x middle then inserted r x (xs.take (xs.length / 2)) ++ middle :: above
      else xs.take (xs.length / 2) ++ middle :: inserted r x above := by
  rw [inserted, insert_of_drop _ x h]
  cases r x middle with
  | true => rfl
  | false => rfl

/-- What holds of an item alone, and of a list if it holds of the part into which the item goes,
holds of all insertions. -/
theorem inserted_induction {x : α} {motive : List α → List α → Prop} (nil : motive [] [x])
    (low : ∀ below middle above, r x middle = true → motive below (inserted r x below) →
      motive (below ++ middle :: above) (inserted r x below ++ middle :: above))
    (high : ∀ below middle above, r x middle = false → motive above (inserted r x above) →
      motive (below ++ middle :: above) (below ++ middle :: inserted r x above))
    (xs : List α) : motive xs (inserted r x xs) := by
  induction xs using insert.induct with
  | case1 xs hdrop =>
      rw [eq_nil_of_drop_half hdrop, inserted_nil]
      exact nil
  | case2 xs middle above hdrop ihlow ihhigh =>
      have hsplit : xs.take (xs.length / 2) ++ middle :: above = xs := by
        rw [← hdrop, List.take_append_drop]
      rw [inserted_of_drop x hdrop]
      cases hr : r x middle with
      | true =>
          have := low _ middle above hr ihlow
          rwa [hsplit] at this
      | false =>
          have := high (xs.take (xs.length / 2)) middle above hr ihhigh
          rwa [hsplit] at this

theorem runAndRest_cons (falling : Bool) (last x : α) (xs : List α) :
    runAndRest r falling last (x :: xs) =
      if r x last = falling then
        (x :: (runAndRest r falling x xs).1, (runAndRest r falling x xs).2)
      else ([], x :: xs) := by
  rw [runAndRest, splitRun]
  cases r x last with
  | true =>
      cases falling with
      | true => rfl
      | false => rfl
  | false =>
      cases falling with
      | true => rfl
      | false => rfl

theorem insertAll_pure (start xs : List α) :
    Id.run (insertAll (fun a b => pure (r a b)) start xs) =
      xs.foldl (fun ys x => inserted r x ys) start := by
  induction xs generalizing start with
  | nil => rfl
  | cons x xs ih => exact ih (inserted r x start)

theorem sorted_cons_cons (a b : α) (xs : List α) :
    sorted r (a :: b :: xs) =
      (runAndRest r (r b a) b xs).2.foldl (fun ys x => inserted r x ys)
        (if r b a then (a :: b :: (runAndRest r (r b a) b xs).1).reverse
          else a :: b :: (runAndRest r (r b a) b xs).1) := by
  rw [← insertAll_pure]
  rfl

end Total

/-! ## Items that carry more -/

section Map

variable {m : Type → Type} [Monad m] [LawfulMonad m] {f : α → β} {before : β → β → m Bool}
  {r : α → α → Bool}

theorem insert_map (h : ∀ a b, before (f a) (f b) = pure (r a b)) (x : α) (xs : List α) :
    insert before (f x) (xs.map f) = pure ((inserted r x xs).map f) := by
  induction xs using insert.induct with
  | case1 xs hdrop => rw [eq_nil_of_drop_half hdrop, List.map_nil, insert_nil, inserted_nil]; rfl
  | case2 xs middle above hdrop ihlow ihhigh =>
      have hdrop' : (xs.map f).drop ((xs.map f).length / 2) = f middle :: above.map f := by
        rw [List.length_map, ← List.map_drop, hdrop, List.map_cons]
      rw [insert_of_drop before (f x) hdrop', inserted_of_drop x hdrop, h, List.length_map,
        ← List.map_take, ihlow, ihhigh]
      cases r x middle with
      | true => simp
      | false => simp

theorem splitRun_map (h : ∀ a b, before (f a) (f b) = pure (r a b)) (falling : Bool) (last : α)
    (xs : List α) :
    splitRun before falling (f last) (xs.map f) =
      pure ((runAndRest r falling last xs).1.map f, (runAndRest r falling last xs).2.map f) := by
  induction xs generalizing last with
  | nil => rfl
  | cons x xs ih =>
      rw [List.map_cons, splitRun, h, runAndRest_cons, ih]
      by_cases hr : r x last = falling
      · simp [hr]
      · simp [hr]

theorem insertAll_map (h : ∀ a b, before (f a) (f b) = pure (r a b)) (start xs : List α) :
    insertAll before (start.map f) (xs.map f) =
      pure ((xs.foldl (fun ys x => inserted r x ys) start).map f) := by
  induction xs generalizing start with
  | nil => rfl
  | cons x xs ih => rw [List.map_cons, insertAll, insert_map h, pure_bind, ih, List.foldl_cons]

/-- Where no comparison fails, sorting does not fail, and nothing but the comparisons counts. -/
theorem sort_map (h : ∀ a b, before (f a) (f b) = pure (r a b)) (xs : List α) :
    sort before (xs.map f) = pure ((sorted r xs).map f) := by
  match xs with
  | [] => rfl
  | [x] => rfl
  | a :: b :: xs =>
      rw [List.map_cons, List.map_cons, sort, h, pure_bind, splitRun_map h, pure_bind,
        sorted_cons_cons, ← insertAll_map h]
      cases r b a with
      | true => simp
      | false => simp

end Map

/-! ## The items of the result -/

section Perm

variable {r : α → α → Bool}

theorem inserted_perm (x : α) (xs : List α) : (inserted r x xs).Perm (x :: xs) := by
  induction xs using inserted_induction (r := r) (x := x) with
  | nil => exact .refl [x]
  | low below middle above _ ih => exact ih.append_right (middle :: above)
  | high below middle above _ ih =>
      have hswap := (List.Perm.swap x middle above).append_left below
      exact (((ih.cons middle).append_left below).trans hswap).trans List.perm_middle

theorem foldl_inserted_perm (start xs : List α) :
    (xs.foldl (fun ys x => inserted r x ys) start).Perm (start ++ xs) := by
  induction xs generalizing start with
  | nil => rw [List.append_nil]; exact .refl start
  | cons x xs ih =>
      have hfirst := (inserted_perm (r := r) x start).append_right xs
      exact ((ih _).trans hfirst).trans List.perm_middle.symm

theorem runAndRest_append (falling : Bool) (last : α) (xs : List α) :
    (runAndRest r falling last xs).1 ++ (runAndRest r falling last xs).2 = xs := by
  induction xs generalizing last with
  | nil => rfl
  | cons x xs ih =>
      rw [runAndRest_cons]
      split
      · rw [List.cons_append, ih]
      · rfl

theorem turned_perm (falling : Bool) (xs : List α) :
    (if falling then xs.reverse else xs).Perm xs := by
  split
  · exact List.reverse_perm xs
  · exact .refl xs

/-- Sorting loses and invents nothing. -/
theorem sorted_perm (xs : List α) : (sorted r xs).Perm xs := by
  match xs with
  | [] => exact .refl []
  | [x] => exact .refl [x]
  | a :: b :: xs =>
      have happend := runAndRest_append (r := r) (r b a) b xs
      rw [sorted_cons_cons]
      generalize runAndRest r (r b a) b xs = split at happend
      subst happend
      exact (foldl_inserted_perm _ split.2).trans ((turned_perm (r b a) _).append_right split.2)

end Perm

/-! ## The order of the result -/

section Order

variable {κ : Type} [LinearOrder κ] {key : α → κ} {Q : α → α → Prop}

/-- The first item has the smaller key, or both have the same one and are related. -/
def KeyedBefore (key : α → κ) (Q : α → α → Prop) (x y : α) : Prop :=
  key x < key y ∨ key x = key y ∧ Q x y

theorem KeyedBefore.le {x y : α} (h : KeyedBefore key Q x y) : key x ≤ key y := by
  rcases h with hlt | ⟨heq, -⟩
  · exact hlt.le
  · exact heq.le

theorem KeyedBefore.of_le {x y : α} (h : key x ≤ key y) (hQ : Q x y) : KeyedBefore key Q x y := by
  rcases h.lt_or_eq with hlt | heq
  · exact .inl hlt
  · exact .inr ⟨heq, hQ⟩

/-- Items are compared by their keys. -/
def byKey (key : α → κ) (x y : α) : Bool := decide (key x < key y)

/-- An item that all of a list are related to is put behind those with the same key. -/
theorem pairwise_inserted {x : α} {xs : List α} (hxs : xs.Pairwise (KeyedBefore key Q))
    (hQ : ∀ y ∈ xs, Q y x) : (inserted (byKey key) x xs).Pairwise (KeyedBefore key Q) := by
  induction xs using inserted_induction (r := byKey key) (x := x) with
  | nil => exact List.pairwise_singleton _ _
  | low below middle above hr ih =>
      obtain ⟨hbelow, hmiddle, hacross⟩ := List.pairwise_append.1 hxs
      have hlt : key x < key middle := of_decide_eq_true hr
      refine List.pairwise_append.2 ⟨ih hbelow fun y hy => hQ y (by simp [hy]), hmiddle, ?_⟩
      intro y hy z hz
      rcases List.mem_cons.1 ((inserted_perm x below).mem_iff.1 hy) with rfl | hy
      · rcases List.mem_cons.1 hz with rfl | hz
        · exact .inl hlt
        · exact .inl (hlt.trans_le ((List.pairwise_cons.1 hmiddle).1 z hz).le)
      · exact hacross y hy z hz
  | high below middle above hr ih =>
      obtain ⟨hbelow, hmiddle, hacross⟩ := List.pairwise_append.1 hxs
      obtain ⟨hfront, habove⟩ := List.pairwise_cons.1 hmiddle
      have hle : key middle ≤ key x := not_lt.1 (of_decide_eq_false hr)
      have hmem {z : α} (hz : z ∈ inserted (byKey key) x above) : z = x ∨ z ∈ above :=
        List.mem_cons.1 ((inserted_perm x above).mem_iff.1 hz)
      have hrest := ih habove fun y hy => hQ y (by simp [hy])
      refine List.pairwise_append.2 ⟨hbelow, List.pairwise_cons.2 ⟨fun z hz => ?_, hrest⟩, ?_⟩
      · rcases hmem hz with rfl | hz
        · exact .of_le hle (hQ middle (by simp))
        · exact hfront z hz
      · intro y hy z hz
        have hbefore := hacross y hy middle (by simp)
        rcases List.mem_cons.1 hz with rfl | hz
        · exact hbefore
        · rcases hmem hz with rfl | hz
          · exact .of_le (hbefore.le.trans hle) (hQ y (by simp [hy]))
          · exact hacross y hy z (by simp [hz])

theorem pairwise_foldl_inserted {start xs : List α} (hstart : start.Pairwise (KeyedBefore key Q))
    (hxs : xs.Pairwise Q) (hQ : ∀ y ∈ start, ∀ x ∈ xs, Q y x) :
    (xs.foldl (fun ys x => inserted (byKey key) x ys) start).Pairwise (KeyedBefore key Q) := by
  induction xs generalizing start with
  | nil => exact hstart
  | cons x xs ih =>
      obtain ⟨hx, hxs⟩ := List.pairwise_cons.1 hxs
      refine ih (pairwise_inserted hstart fun y hy => hQ y hy x List.mem_cons_self) hxs ?_
      intro y hy z hz
      rcases List.mem_cons.1 ((inserted_perm x start).mem_iff.1 hy) with rfl | hy
      · exact hx z hz
      · exact hQ y hy z (List.mem_cons_of_mem x hz)

/-- From each item of a run to the next the key falls, or from none. -/
theorem isChain_run (key : α → κ) (falling : Bool) (last : α) (xs : List α) :
    (last :: (runAndRest (byKey key) falling last xs).1).IsChain
      fun x y => byKey key y x = falling := by
  induction xs generalizing last with
  | nil => exact .singleton last
  | cons x xs ih =>
      rw [runAndRest_cons]
      split
      · rename_i hr
        exact .cons_cons hr (ih x)
      · exact .singleton last

/-- A run that falls is sorted from its end, and any other one from its front. -/
theorem pairwise_turned {falling : Bool} {run : List α} (hQ : run.Pairwise Q)
    (h : run.IsChain fun x y => byKey key y x = falling) :
    (if falling then run.reverse else run).Pairwise (KeyedBefore key Q) := by
  cases falling with
  | true =>
      have hfalls : run.IsChain fun x y => key y < key x := h.imp fun _ _ => of_decide_eq_true
      have : IsTrans α fun x y => key y < key x := ⟨fun _ _ _ hxy hyz => hyz.trans hxy⟩
      rw [if_pos rfl, List.pairwise_reverse]
      exact hfalls.pairwise.imp .inl
  | false =>
      have hrises : run.IsChain fun x y => key x ≤ key y :=
        h.imp fun _ _ hxy => not_lt.1 (of_decide_eq_false hxy)
      have : IsTrans α fun x y => key x ≤ key y := ⟨fun _ _ _ hxy hyz => hxy.trans hyz⟩
      exact (hrises.pairwise.and hQ).imp fun hxy => .of_le hxy.1 hxy.2

/-- The result is in the order of the keys, and items with one key keep the order they have. -/
theorem pairwise_sorted {xs : List α} (hQ : xs.Pairwise Q) :
    (sorted (byKey key) xs).Pairwise (KeyedBefore key Q) := by
  match xs with
  | [] => exact .nil
  | [x] => exact List.pairwise_singleton _ _
  | a :: b :: xs =>
      have happend := runAndRest_append (r := byKey key) (byKey key b a) b xs
      have hchain := isChain_run key (byKey key b a) b xs
      rw [sorted_cons_cons]
      generalize runAndRest (byKey key) (byKey key b a) b xs = split at happend hchain
      subst happend
      obtain ⟨hrun, hrest, hacross⟩ := List.pairwise_append.1
        (show (a :: b :: split.1 ++ split.2).Pairwise Q from hQ)
      refine pairwise_foldl_inserted (pairwise_turned hrun (.cons_cons rfl hchain)) hrest ?_
      exact fun y hy => hacross y ((turned_perm _ _).mem_iff.1 hy)

end Order

end IntentPlan.Sorting
