import Atoms.Library.Checked
import Atoms.Library.Keyed

open checked keyed

/-! Dictionaries that keep the order in which their keys were first put in. -/

namespace dict

variable {κ α : Type} [DecidableEq κ]

abbrev Dict (κ α : Type) := List (κ × α)

def Dict.keys (d : Dict κ α) : List κ := d.map Prod.fst

/-- `d.get(key)` -/
def Dict.get (d : Dict κ α) (key : κ) : Option α := (find_key Prod.fst d key).map Prod.snd

/-- `d.setdefault(key, value)` -/
def Dict.setdefault (d : Dict κ α) (key : κ) (value : α) : Dict κ α :=
  if (d.get key).isSome then d else d ++ [(key, value)]

/-- `d[key] = value` -/
def Dict.put (d : Dict κ α) (key : κ) (value : α) : Dict κ α :=
  if (d.get key).isSome then d.map fun item => if item.1 = key then (key, value) else item else d ++ [(key, value)]

namespace Dict

variable (d : Dict κ α) (key : κ) (value : α)

@[simp] theorem get_nil : get ([] : Dict κ α) key = none := rfl

theorem get_isSome_iff : (d.get key).isSome = true ↔ key ∈ d.keys := by
  rw [get, Option.isSome_map, find_key_isSome_iff, keys, List.mem_map]

theorem get_eq_none_iff : d.get key = none ↔ key ∉ d.keys := by
  rw [← get_isSome_iff, Option.not_isSome_iff_eq_none]

theorem mem_of_get {d : Dict κ α} {key : κ} {value : α} (h : d.get key = some value) : (key, value) ∈ d := by
  obtain ⟨item, hitem, rfl⟩ := Option.map_eq_some_iff.mp h
  obtain ⟨hmem, rfl⟩ := find_key_some hitem
  exact hmem

theorem get_of_mem {d : Dict κ α} {item : κ × α} (hnodup : d.keys.Nodup) (h : item ∈ d) : d.get item.1 = some item.2 := by
  rw [get, find_key_of_mem hnodup h, Option.map_some]

theorem get_append_singleton (k : κ) : get (d ++ [(key, value)]) k = if k = key then some value else d.get k := by
  unfold get
  rw [find_key_append]
  by_cases hk : k = key
  · subst hk
    simp [find_key]
  · simp [find_key, hk, Ne.symm hk]

theorem get_setdefault (k : κ) :
    (d.setdefault key value).get k = if k = key then some ((d.get key).getD value) else d.get k := by
  unfold setdefault
  cases hget : d.get key with
  | some old =>
    by_cases hk : k = key
    · subst hk
      simp [hget]
    · simp [hk]
  | none => simp [get_append_singleton]

theorem get_put (k : κ) : (d.put key value).get k = if k = key then some value else d.get k := by
  unfold put
  cases hget : d.get key with
  | none => simp [get_append_singleton]
  | some old =>
    obtain ⟨item, hitem, -⟩ := Option.map_eq_some_iff.mp hget
    have hkey : ∀ item : κ × α, (if item.1 = key then (key, value) else item).1 = item.1 := by
      intro item
      split
      · rename_i heq
        exact heq.symm
      · rfl
    simp only [Option.isSome_some, if_true]
    rw [get, find_key_map hkey]
    by_cases hk : k = key
    · subst hk
      rw [hitem, Option.map_some, Option.map_some, if_pos (find_key_some hitem).2, if_pos rfl]
    · rw [if_neg hk, Option.map_map]
      unfold get
      cases hfind : find_key Prod.fst d k with
      | none => rfl
      | some other =>
        have hother : other.1 ≠ key := fun heq => hk ((find_key_some hfind).2.symm.trans heq)
        simp [hother]

theorem keys_setdefault (k : κ) : k ∈ (d.setdefault key value).keys ↔ k = key ∨ k ∈ d.keys := by
  rw [← get_isSome_iff, get_setdefault, ← get_isSome_iff]
  by_cases hk : k = key <;> simp [hk]

theorem keys_put (k : κ) : k ∈ (d.put key value).keys ↔ k = key ∨ k ∈ d.keys := by
  rw [← get_isSome_iff, get_put, ← get_isSome_iff]
  by_cases hk : k = key <;> simp [hk]

theorem nodup_append_of_get (hnodup : d.keys.Nodup) (h : d.get key = none) : keys (d ++ [(key, value)]) |>.Nodup := by
  rw [keys, List.map_append, List.map_singleton]
  refine List.nodup_append.mpr ⟨hnodup, List.nodup_singleton _, fun k hk k' hk' heq => ?_⟩
  obtain rfl := List.mem_singleton.mp hk'
  exact (get_eq_none_iff d _).mp h (heq ▸ hk)

theorem nodup_setdefault (hnodup : d.keys.Nodup) : (d.setdefault key value).keys.Nodup := by
  unfold setdefault
  cases hget : d.get key with
  | some old => exact hnodup
  | none => exact nodup_append_of_get d key value hnodup hget

theorem nodup_put (hnodup : d.keys.Nodup) : (d.put key value).keys.Nodup := by
  unfold put
  cases hget : d.get key with
  | none => exact nodup_append_of_get d key value hnodup hget
  | some old =>
    have hkeys : keys (d.map fun item => if item.1 = key then (key, value) else item) = d.keys := by
      rw [keys, List.map_map]
      refine List.map_congr_left fun item _ => ?_
      by_cases heq : item.1 = key <;> simp [heq]
    simp only [Option.isSome_some, if_true, hkeys]
    exact hnodup

/-! Dictionaries that a loop fills. -/

/-- What `d` holds, `d'` holds too. -/
def Extends (d d' : Dict κ α) : Prop := ∀ k value, d.get k = some value → d'.get k = some value

theorem Extends.refl : Extends d d := fun _ _ h => h

theorem Extends.trans {d d' d'' : Dict κ α} (h : Extends d d') (h' : Extends d' d'') : Extends d d'' :=
  fun k value hget => h' k value (h k value hget)

theorem extends_put {d : Dict κ α} {key : κ} (h : d.get key = none) : Extends d (d.put key value) := by
  intro k found hget
  rw [get_put, if_neg]
  · exact hget
  · rintro rfl
    rw [h] at hget
    cases hget

/-- A loop that puts in new keys only, each with a value that it computes from what is there by then. -/
theorem foldlM_put {ε : Type} {f : Dict κ α → κ → Except ε α} {order : List κ} {d filled : Dict κ α}
    (h : order.foldlM (fun d k => do let value ← f d k; pure (d.put k value)) d = .ok filled) (hnodup : order.Nodup)
    (hfresh : ∀ k ∈ order, d.get k = none) :
    Extends d filled ∧ (∀ k, k ∈ filled.keys ↔ k ∈ d.keys ∨ k ∈ order) ∧
      ∀ k ∈ order, ∃ before value, Extends before filled ∧ f before k = .ok value ∧ filled.get k = some value := by
  induction order generalizing d with
  | nil =>
    rw [List.foldlM_nil, pure_eq_ok_iff] at h
    subst h
    exact ⟨.refl d, fun k => by simp, fun k hk => absurd hk (by simp)⟩
  | cons head rest ih =>
    rw [foldlM_cons_eq_ok_iff] at h
    obtain ⟨d', hd', hrest⟩ := h
    obtain ⟨value, hvalue, hput⟩ := bind_eq_ok_iff.mp hd'
    rw [pure_eq_ok_iff] at hput
    subst hput
    obtain ⟨hhead, hnodup⟩ := List.nodup_cons.mp hnodup
    have hnone := hfresh head List.mem_cons_self
    obtain ⟨hextends, hkeys, hall⟩ := ih hrest hnodup fun k hk => by
      have hne : k ≠ head := fun heq => hhead (heq ▸ hk)
      rw [get_put, if_neg hne]
      exact hfresh k (List.mem_cons_of_mem _ hk)
    refine ⟨(extends_put value hnone).trans hextends, fun k => ?_, fun k hk => ?_⟩
    · rw [hkeys, keys_put, List.mem_cons]
      tauto
    · obtain rfl | hk := List.mem_cons.mp hk
      · exact ⟨d, value, (extends_put value hnone).trans hextends, hvalue, hextends _ _ (by rw [get_put, if_pos rfl])⟩
      · exact hall k hk

section

variable {β : Type} (key_of : β → κ) (value_of : β → α)

/-- Putting in keys that are new and distinct appends them. -/
theorem foldl_put_of_nodup {items : List β} {d : Dict κ α} (hnodup : (items.map key_of).Nodup)
    (hfresh : ∀ item ∈ items, d.get (key_of item) = none) :
    items.foldl (fun d item => d.put (key_of item) (value_of item)) d =
      d ++ items.map fun item => (key_of item, value_of item) := by
  induction items generalizing d with
  | nil => simp
  | cons item rest ih =>
    obtain ⟨hhead, hrest⟩ := List.nodup_cons.mp hnodup
    have hput : d.put (key_of item) (value_of item) = d ++ [(key_of item, value_of item)] := by
      unfold put
      simp [hfresh item List.mem_cons_self]
    rw [List.foldl_cons, ih hrest, hput, List.map_cons, List.append_assoc]
    · rfl
    · intro other hother
      have hne : key_of other ≠ key_of item := fun heq => hhead (heq ▸ List.mem_map_of_mem hother)
      rw [get_put, if_neg hne]
      exact hfresh other (List.mem_cons_of_mem _ hother)

/-- What is found after a loop of `setdefault` was there before, or is one of the items. -/
theorem of_get_foldl_setdefault {items : List β} {d : Dict κ α} {k : κ} {value : α}
    (h : (items.foldl (fun d item => d.setdefault (key_of item) (value_of item)) d).get k = some value) :
    d.get k = some value ∨ ∃ item ∈ items, key_of item = k ∧ value_of item = value := by
  induction items generalizing d with
  | nil => exact .inl h
  | cons item rest ih =>
    rw [List.foldl_cons] at h
    obtain hold | ⟨other, hother, hkey, hvalue⟩ := ih h
    · rw [get_setdefault] at hold
      split at hold
      · rename_i hk
        cases hget : d.get (key_of item) with
        | some found =>
          rw [hget] at hold
          exact .inl (by rw [hk, hget]; exact hold)
        | none =>
          rw [hget] at hold
          exact .inr ⟨item, List.mem_cons_self, hk.symm, by simpa using hold⟩
      · exact .inl hold
    · exact .inr ⟨other, List.mem_cons_of_mem _ hother, hkey, hvalue⟩

theorem keys_foldl_setdefault (items : List β) (d : Dict κ α) (k : κ) :
    k ∈ (items.foldl (fun d item => d.setdefault (key_of item) (value_of item)) d).keys ↔
      k ∈ d.keys ∨ ∃ item ∈ items, key_of item = k := by
  induction items generalizing d with
  | nil => simp
  | cons item rest ih =>
    rw [List.foldl_cons, ih, keys_setdefault]
    simp only [List.mem_cons, exists_eq_or_imp]
    rw [eq_comm (a := k)]
    tauto

theorem keys_foldl_put (items : List β) (d : Dict κ α) (k : κ) :
    k ∈ (items.foldl (fun d item => d.put (key_of item) (value_of item)) d).keys ↔
      k ∈ d.keys ∨ ∃ item ∈ items, key_of item = k := by
  induction items generalizing d with
  | nil => simp
  | cons item rest ih =>
    rw [List.foldl_cons, ih, keys_put]
    simp only [List.mem_cons, exists_eq_or_imp]
    rw [eq_comm (a := k)]
    tauto

theorem nodup_foldl_setdefault (items : List β) {d : Dict κ α} (h : d.keys.Nodup) :
    (items.foldl (fun d item => d.setdefault (key_of item) (value_of item)) d).keys.Nodup := by
  induction items generalizing d with
  | nil => exact h
  | cons item rest ih =>
    rw [List.foldl_cons]
    exact ih (nodup_setdefault d _ _ h)

theorem extends_foldl_setdefault (items : List β) (d : Dict κ α) :
    Extends d (items.foldl (fun d item => d.setdefault (key_of item) (value_of item)) d) := by
  induction items generalizing d with
  | nil => exact .refl d
  | cons item rest ih =>
    refine Extends.trans (fun k value hget => ?_) (ih _)
    rw [get_setdefault]
    split
    · rename_i hk
      subst hk
      rw [hget, Option.getD_some]
    · exact hget

/-- A loop of `setdefault` over items of growing value finds the least value of each key. -/
theorem foldl_setdefault_le {value_of : β → Nat} {items : List β} {d : Dict κ Nat} {k : κ} {value : Nat}
    (hsorted : items.Pairwise fun left right => value_of left ≤ value_of right)
    (hstart : ∀ k value, d.get k = some value → ∀ item ∈ items, value ≤ value_of item)
    (h : (items.foldl (fun d item => d.setdefault (key_of item) (value_of item)) d).get k = some value) :
    ∀ item ∈ items, key_of item = k → value ≤ value_of item := by
  induction items generalizing d with
  | nil => exact fun _ hitem => absurd hitem List.not_mem_nil
  | cons head rest ih =>
    obtain ⟨hhead, hrest⟩ := List.pairwise_cons.mp hsorted
    rw [List.foldl_cons] at h
    intro item hitem hkey
    obtain rfl | hitem := List.mem_cons.mp hitem
    · subst hkey
      have hset := get_setdefault d (key_of item) (value_of item) (key_of item)
      rw [if_pos rfl] at hset
      have hfinal := extends_foldl_setdefault key_of value_of rest _ _ _ hset
      rw [h, Option.some.injEq] at hfinal
      rw [hfinal]
      cases hget : d.get (key_of item) with
      | none => simp
      | some old => simpa using hstart _ old hget item List.mem_cons_self
    · refine ih hrest (fun k' value' hget => ?_) h item hitem hkey
      intro other hother
      rw [get_setdefault] at hget
      split at hget
      · rename_i hk
        cases hold : d.get (key_of head) with
        | none =>
          rw [hold, Option.getD_none, Option.some.injEq] at hget
          exact hget ▸ hhead other hother
        | some old =>
          rw [hold, Option.getD_some, Option.some.injEq] at hget
          exact hget ▸ hstart _ old hold other (List.mem_cons_of_mem _ hother)
      · exact hstart k' value' hget other (List.mem_cons_of_mem _ hother)

/-- Where equal keys come with equal values, a loop of `setdefault` collects every item. -/
theorem mem_foldl_setdefault_iff {items : List β}
    (hfunctional : ∀ item ∈ items, ∀ other ∈ items, key_of item = key_of other → value_of item = value_of other)
    (k : κ) (value : α) :
    (k, value) ∈ items.foldl (fun (d : Dict κ α) item => d.setdefault (key_of item) (value_of item)) [] ↔
      ∃ item ∈ items, key_of item = k ∧ value_of item = value := by
  have hnodup := nodup_foldl_setdefault key_of value_of items (d := ([] : Dict κ α)) List.nodup_nil
  constructor
  · intro hmem
    obtain hnone | hitem := of_get_foldl_setdefault key_of value_of (get_of_mem hnodup hmem)
    · cases hnone
    · exact hitem
  · rintro ⟨item, hitem, rfl, rfl⟩
    have hkey := (keys_foldl_setdefault key_of value_of items [] (key_of item)).mpr (.inr ⟨item, hitem, rfl⟩)
    obtain ⟨found, hfound⟩ := Option.isSome_iff_exists.mp ((get_isSome_iff _ _).mpr hkey)
    obtain hnone | ⟨other, hother, hsame, rfl⟩ := of_get_foldl_setdefault key_of value_of hfound
    · cases hnone
    · rw [← hfunctional other hother item hitem hsame]
      exact mem_of_get hfound

end

end Dict

end dict
