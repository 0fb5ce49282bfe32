import Mathlib.Data.List.Basic
import Mathlib.Data.List.Nodup
import Mathlib.Data.List.Perm.Subperm

namespace keyed

variable {α κ : Type} [DecidableEq κ]

/-- The item a dictionary built from `items` in order holds at `k`: the last one with that key. -/
def find_key (key : α → κ) : List α → κ → Option α
  | [], _ => none
  | x :: xs, k => (find_key key xs k).or (if key x = k then some x else none)

theorem find_key_some {key : α → κ} {xs : List α} {k : κ} {x : α} (h : find_key key xs k = some x) :
    x ∈ xs ∧ key x = k := by
  induction xs with
  | nil => simp [find_key] at h
  | cons y ys ih =>
    rw [find_key, Option.or_eq_some_iff] at h
    rcases h with h | ⟨_, h⟩
    · exact ⟨List.mem_cons_of_mem _ (ih h).1, (ih h).2⟩
    · split at h
      · rename_i hy
        cases h
        exact ⟨List.mem_cons_self, hy⟩
      · cases h

theorem find_key_eq_none_iff {key : α → κ} {xs : List α} {k : κ} :
    find_key key xs k = none ↔ ∀ x ∈ xs, key x ≠ k := by
  induction xs with
  | nil => simp [find_key]
  | cons y ys ih => simp [find_key, Option.or_eq_none_iff, ih, and_comm]

theorem find_key_isSome_iff {key : α → κ} {xs : List α} {k : κ} :
    (find_key key xs k).isSome ↔ ∃ x ∈ xs, key x = k := by
  rw [Option.isSome_iff_ne_none, Ne, find_key_eq_none_iff]
  simp

/-- A later item takes the place of an earlier one. -/
theorem find_key_append (key : α → κ) (xs ys : List α) (k : κ) :
    find_key key (xs ++ ys) k = (find_key key ys k).or (find_key key xs k) := by
  induction xs with
  | nil => rw [List.nil_append, find_key, Option.or_none]
  | cons x xs ih => rw [List.cons_append, find_key, find_key, ih, Option.or_assoc]

/-- Where keys are distinct, the dictionary holds every item at its own key. -/
theorem find_key_of_mem {key : α → κ} {xs : List α} {x : α} (hnodup : (xs.map key).Nodup)
    (hx : x ∈ xs) : find_key key xs (key x) = some x := by
  induction xs with
  | nil => cases hx
  | cons y ys ih =>
    rw [List.map_cons, List.nodup_cons] at hnodup
    rw [find_key]
    rcases List.mem_cons.mp hx with rfl | hmem
    · have hnone : find_key key ys (key x) = none := by
        rw [find_key_eq_none_iff]
        intro z hz hkey
        exact hnodup.1 (hkey ▸ List.mem_map_of_mem hz)
      simp [hnone]
    · simp [ih hnodup.2 hmem]

theorem find_key_eq_some_iff {key : α → κ} {xs : List α} {k : κ} {x : α} (hnodup : (xs.map key).Nodup) :
    find_key key xs k = some x ↔ x ∈ xs ∧ key x = k := by
  refine ⟨find_key_some, ?_⟩
  rintro ⟨hx, rfl⟩
  exact find_key_of_mem hnodup hx

/-- Where keys are distinct, the order of the items does not matter. -/
theorem find_key_perm {key : α → κ} {xs ys : List α} (h : xs.Perm ys) (hnodup : (xs.map key).Nodup) (k : κ) :
    find_key key xs k = find_key key ys k := by
  have hnodup' : (ys.map key).Nodup := (h.map key).nodup_iff.mp hnodup
  ext x
  rw [find_key_eq_some_iff hnodup, find_key_eq_some_iff hnodup', h.mem_iff]

omit [DecidableEq κ] in
/-- Where keys are distinct, the items and the order of their keys determine a list. -/
theorem eq_of_perm_of_keys {key : α → κ} {xs ys : List α} (h : xs.Perm ys) (hkeys : xs.map key = ys.map key)
    (hnodup : (xs.map key).Nodup) : xs = ys := by
  induction xs generalizing ys with
  | nil => exact h.nil_eq
  | cons x xs ih =>
    cases ys with
    | nil => cases hkeys
    | cons y ys =>
      rw [List.map_cons, List.map_cons, List.cons.injEq] at hkeys
      have hmem : y ∈ x :: xs := h.mem_iff.mpr List.mem_cons_self
      obtain rfl : y = x := List.inj_on_of_nodup_map hnodup hmem List.mem_cons_self hkeys.1.symm
      rw [ih h.cons_inv hkeys.2 (List.nodup_cons.mp hnodup).2]

/-- Where keys are distinct, an item is the only one with its key. -/
theorem filter_key_of_mem {key : α → κ} {xs : List α} {x : α} (hnodup : (xs.map key).Nodup) (hx : x ∈ xs) :
    xs.filter (fun y => key y = key x) = [x] := by
  induction xs with
  | nil => cases hx
  | cons y ys ih =>
    rw [List.map_cons, List.nodup_cons] at hnodup
    rcases List.mem_cons.mp hx with rfl | hmem
    · have hnone : ys.filter (fun y => key y = key x) = [] := by
        rw [List.filter_eq_nil_iff]
        intro z hz hkey
        have hkey : key z = key x := by simpa using hkey
        exact hnodup.1 (hkey ▸ List.mem_map_of_mem hz)
      rw [List.filter_cons_of_pos (by simp), hnone]
    · have hne : key y ≠ key x := by
        intro hkey
        exact hnodup.1 (hkey ▸ List.mem_map_of_mem hmem)
      rw [List.filter_cons_of_neg (by simpa using hne), ih hnodup.2 hmem]

/-- Rewriting items without changing their keys rewrites what the dictionary holds. -/
theorem find_key_map {key : α → κ} {f : α → α} (hkey : ∀ x, key (f x) = key x) (xs : List α) (k : κ) :
    find_key key (xs.map f) k = (find_key key xs k).map f := by
  induction xs with
  | nil => rfl
  | cons x xs ih =>
    rw [List.map_cons, find_key, find_key, ih, hkey]
    cases find_key key xs k with
    | some y => rfl
    | none => split <;> rfl

/-- The items of `base`, each replaced by the item of `updates` with its key, if there is one. -/
def merge (key : α → κ) (updates base : List α) : List α :=
  base.map fun item => (find_key key updates (key item)).getD item

@[simp] theorem merge_nil (key : α → κ) (base : List α) : merge key [] base = base := by simp [merge, find_key]

theorem key_merge_item (key : α → κ) (updates : List α) (item : α) :
    key ((find_key key updates (key item)).getD item) = key item := by
  cases h : find_key key updates (key item) with
  | none => rfl
  | some x => exact (find_key_some h).2

@[simp] theorem keys_merge (key : α → κ) (updates base : List α) :
    (merge key updates base).map key = base.map key := by
  simp [merge, List.map_map, Function.comp_def, key_merge_item]

/-- Every item of a merge comes from one of its two parts. -/
theorem mem_merge {key : α → κ} {updates base : List α} {item : α} (h : item ∈ merge key updates base) :
    item ∈ updates ∨ item ∈ base := by
  obtain ⟨old, hold, rfl⟩ := List.mem_map.mp h
  cases hfind : find_key key updates (key old) with
  | none => exact .inr hold
  | some new => exact .inl (find_key_some hfind).1

/-- After a merge, a key of the updates holds the update and every other key what it held. -/
theorem find_key_merge (key : α → κ) (updates base : List α) (k : κ) :
    find_key key (merge key updates base) k =
      (find_key key base k).map fun item => (find_key key updates k).getD item := by
  rw [merge, find_key_map (f := fun item => (find_key key updates (key item)).getD item)
    (key_merge_item key updates)]
  cases h : find_key key base k with
  | none => rfl
  | some x => simp [(find_key_some h).2]

/-- Where keys are distinct, a list of pairs holds each of its values at its key. -/
theorem lookup_eq_some_iff_mem {items : List (κ × α)} (hkeys : (items.map Prod.fst).Nodup) {key : κ} {value : α} :
    items.lookup key = some value ↔ (key, value) ∈ items := by
  induction items with
  | nil => simp
  | cons head rest ih =>
    obtain ⟨name, first⟩ := head
    rw [List.map_cons, List.nodup_cons] at hkeys
    rw [List.lookup_cons, List.mem_cons]
    by_cases heq : key = name
    · subst heq
      have hnot : (key, value) ∉ rest := fun hmem => hkeys.1 (List.mem_map.mpr ⟨_, hmem, rfl⟩)
      simp [hnot, eq_comm]
    · have hne : (key == name) = false := beq_eq_false_iff_ne.mpr heq
      simp [hne, heq, ih hkeys.2]

/-- Two lists have the same members. -/
def set_eq {α : Type} (xs ys : List α) : Prop := (∀ x ∈ xs, x ∈ ys) ∧ ∀ y ∈ ys, y ∈ xs

instance {α : Type} [DecidableEq α] (xs ys : List α) : Decidable (set_eq xs ys) :=
  inferInstanceAs (Decidable (_ ∧ _))

theorem set_eq_iff {α : Type} {xs ys : List α} : set_eq xs ys ↔ ∀ x, x ∈ xs ↔ x ∈ ys :=
  ⟨fun h x => ⟨h.1 x, h.2 x⟩, fun h => ⟨fun x => (h x).mp, fun x => (h x).mpr⟩⟩

/-- A list as long as a duplicate-free one with the same members is duplicate-free. -/
theorem nodup_of_set_eq {α : Type} {xs ys : List α} (hlength : xs.length = ys.length)
    (hmembers : set_eq xs ys) (hnodup : ys.Nodup) : xs.Nodup := by
  classical
  have hperm : ys.Subperm xs := List.subperm_of_subset hnodup hmembers.2
  exact (hperm.perm_of_length_le (Nat.le_of_eq hlength)).nodup_iff.mp hnodup

end keyed
