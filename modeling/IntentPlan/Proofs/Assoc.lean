import IntentPlan.Assoc
import Mathlib.Data.List.Induction
import Mathlib.Data.List.Perm.Subperm

/-!
# Laws of ordered mappings

What writing does to the keys and to the values of a mapping.  Pairs that are written one after the
other leave every key at the place where it was written first, with the value that was written
last (`keys_ofList`, `get?_ofList`).
-/

namespace IntentPlan.Assoc

universe u

variable {α : Type u}

@[simp] theorem keys_nil : keys ([] : Assoc α) = [] := rfl

@[simp] theorem keys_cons (p : String × α) (m : Assoc α) : keys (p :: m) = p.1 :: keys m := rfl

@[simp] theorem keys_append (m m' : Assoc α) : keys (m ++ m') = keys m ++ keys m' :=
  List.map_append

/-! ## One pair -/

theorem get?_put (key k : String) (v : α) (m : Assoc α) :
    get? k (put key v m) = if k = key then some v else get? k m := by
  induction m with
  | nil => simp [put, get?, eq_comm]
  | cons p rest ih =>
      obtain ⟨k', v'⟩ := p
      by_cases hk : k' = key
      · subst hk
        by_cases h : k = k'
        · simp [put, get?, h]
        · simp [put, get?, h, Ne.symm h]
      · simp only [put, if_neg hk, get?, ih]
        by_cases h : k' = k
        · rw [if_pos h, if_pos h, if_neg (h ▸ hk)]
        · rw [if_neg h, if_neg h]

theorem keys_put (key : String) (v : α) (m : Assoc α) :
    keys (put key v m) = if key ∈ keys m then keys m else keys m ++ [key] := by
  induction m with
  | nil => simp [put]
  | cons p rest ih =>
      obtain ⟨k, w⟩ := p
      by_cases hk : k = key
      · simp [put, hk]
      · have hk' : key ≠ k := Ne.symm hk
        simp only [put, if_neg hk, keys_cons, ih, List.mem_cons, hk', false_or]
        by_cases h : key ∈ keys rest
        · rw [if_pos h, if_pos h]
        · rw [if_neg h, if_neg h, List.cons_append]

theorem put_of_notMem {key : String} {m : Assoc α} (h : key ∉ keys m) (v : α) :
    put key v m = m ++ [(key, v)] := by
  induction m with
  | nil => rfl
  | cons p rest ih =>
      obtain ⟨k, w⟩ := p
      simp only [keys_cons, List.mem_cons, not_or] at h
      rw [put, if_neg (Ne.symm h.1), ih h.2]
      rfl

theorem mem_of_get? {key : String} {v : α} {m : Assoc α} (h : get? key m = some v) :
    (key, v) ∈ m := by
  induction m with
  | nil => simp [get?] at h
  | cons p rest ih =>
      obtain ⟨k, w⟩ := p
      by_cases hk : k = key
      · subst hk
        simp_all [get?]
      · rw [get?, if_neg hk] at h
        exact List.mem_cons_of_mem _ (ih h)

/-- Where keys are different, looking up is membership. -/
theorem get?_eq_some_iff {key : String} {v : α} {m : Assoc α} (hm : (keys m).Nodup) :
    get? key m = some v ↔ (key, v) ∈ m := by
  refine ⟨mem_of_get?, fun h => ?_⟩
  induction m with
  | nil => cases h
  | cons p rest ih =>
      obtain ⟨k, w⟩ := p
      obtain ⟨hk, hrest⟩ := List.nodup_cons.1 hm
      rcases List.mem_cons.1 h with h | h
      · cases h
        rw [get?, if_pos rfl]
      · have hne : k ≠ key := by
          rintro rfl
          exact hk (List.mem_map.2 ⟨_, h, rfl⟩)
        rw [get?, if_neg hne, ih hrest h]

/-- A mapping is what is found under its keys. -/
theorem filterMap_get?_keys {m : Assoc α} (hm : (keys m).Nodup) :
    (keys m).filterMap (fun k => (get? k m).map (Prod.mk k)) = m := by
  induction m with
  | nil => rfl
  | cons p rest ih =>
      obtain ⟨k, v⟩ := p
      obtain ⟨hk, hrest⟩ := List.nodup_cons.1 hm
      have hothers : (keys rest).filterMap (fun k' => (get? k' ((k, v) :: rest)).map (Prod.mk k')) =
          (keys rest).filterMap (fun k' => (get? k' rest).map (Prod.mk k')) := by
        refine List.filterMap_congr fun k' hk' => ?_
        rw [get?, if_neg (ne_of_mem_of_not_mem hk' hk).symm]
      have hfirst : (get? k ((k, v) :: rest)).map (Prod.mk k) = some (k, v) := by
        rw [get?, if_pos rfl]
        rfl
      simp only [keys_cons, List.filterMap_cons, hfirst, hothers, ih hrest]

theorem get?_filter (keep : String → Bool) (key : String) (m : Assoc α) :
    get? key (m.filter fun p => keep p.1) = if keep key then get? key m else none := by
  induction m with
  | nil => simp [get?]
  | cons p rest ih =>
      obtain ⟨k, v⟩ := p
      by_cases hk : k = key
      · subst hk
        cases hkeep : keep k with
        | true => simp [hkeep, get?]
        | false => simp [hkeep, ih]
      · cases hkeep : keep k with
        | true => simp [hkeep, get?, hk, ih]
        | false => simp [hkeep, get?, hk, ih]

/-! ## Many pairs -/

@[simp] theorem putAll_nil (m : Assoc α) : putAll m [] = m := rfl

@[simp] theorem putAll_cons (m : Assoc α) (p : String × α) (pairs : List (String × α)) :
    putAll m (p :: pairs) = putAll (put p.1 p.2 m) pairs := rfl

theorem ofList_concat (pairs : List (String × α)) (p : String × α) :
    ofList (pairs ++ [p]) = put p.1 p.2 (ofList pairs) := by
  simp [ofList, putAll]

/-- Every key stands once, at the place where it was written first. -/
theorem keys_ofList (pairs : List (String × α)) :
    keys (ofList pairs) = (keys pairs).eraseDups := by
  induction pairs using List.reverseRecOn with
  | nil => rfl
  | append_singleton pairs p ih =>
      rw [ofList_concat, keys_put, ih, keys_append, List.eraseDups_append]
      by_cases h : p.1 ∈ keys pairs
      · simp [h, List.removeAll]
      · simp [h, List.removeAll, List.eraseDups_cons]

/-- Of the values that were written under a key the last one stays. -/
theorem get?_ofList (key : String) (pairs : List (String × α)) :
    get? key (ofList pairs) = get? key pairs.reverse := by
  induction pairs using List.reverseRecOn with
  | nil => rfl
  | append_singleton pairs p ih =>
      rw [ofList_concat, get?_put, ih, List.reverse_append]
      by_cases h : key = p.1
      · simp [get?, h]
      · simp [get?, h, Ne.symm h]

theorem nodup_keys_ofList (pairs : List (String × α)) : (keys (ofList pairs)).Nodup := by
  induction pairs using List.reverseRecOn with
  | nil => exact List.nodup_nil
  | append_singleton pairs p ih =>
      rw [ofList_concat, keys_put]
      split
      · exact ih
      · rename_i h
        rw [List.nodup_append]
        refine ⟨ih, by simp, ?_⟩
        rintro k hk k' hk' rfl
        exact h (List.mem_singleton.1 hk' ▸ hk)

/-- Nothing stands in a mapping that was not written. -/
theorem mem_of_mem_ofList {p : String × α} {pairs : List (String × α)} (h : p ∈ ofList pairs) :
    p ∈ pairs := by
  have hget := (get?_eq_some_iff (nodup_keys_ofList pairs)).2 h
  rw [get?_ofList] at hget
  exact List.mem_reverse.1 (mem_of_get? hget)

/-- Pairs with different keys are their own mapping. -/
theorem ofList_of_nodup {pairs : List (String × α)} (h : (keys pairs).Nodup) :
    ofList pairs = pairs := by
  induction pairs using List.reverseRecOn with
  | nil => rfl
  | append_singleton pairs p ih =>
      rw [keys_append] at h
      obtain ⟨hpairs, -, hp⟩ := List.nodup_append.1 h
      rw [ofList_concat, ih hpairs]
      exact put_of_notMem (fun hmem => hp p.1 hmem p.1 (by simp) rfl) p.2

/-- Writing keeps the number of pairs only where all keys are different. -/
theorem length_ofList_eq_iff {pairs : List (String × α)} :
    (ofList pairs).length = pairs.length ↔ (keys pairs).Nodup := by
  refine ⟨fun h => ?_, fun h => by rw [ofList_of_nodup h]⟩
  have hsub : keys (ofList pairs) ⊆ keys pairs := by
    intro key hkey
    rw [keys_ofList] at hkey
    exact List.mem_eraseDups.1 hkey
  have hlen : (keys pairs).length ≤ (keys (ofList pairs)).length := by simp [keys, h]
  have hperm := (List.subperm_of_subset (nodup_keys_ofList pairs) hsub).perm_of_length_le hlen
  exact hperm.nodup (nodup_keys_ofList pairs)

end IntentPlan.Assoc
