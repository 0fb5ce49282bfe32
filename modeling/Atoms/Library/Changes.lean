import Mathlib.Data.List.Basic
import Mathlib.Logic.Function.Basic

namespace changes

variable {κ σ : Type} [DecidableEq κ] [DecidableEq σ]

/-- One entry of a map goes from one value to another. -/
structure Change (κ σ : Type) where
  key : κ
  pre : σ
  post : σ

/-- The map after a change that finds the value it starts from. -/
def Change.apply (m : κ → σ) (change : Change κ σ) : Option (κ → σ) :=
  if m change.key = change.pre then some (Function.update m change.key change.post) else none

/-- The map after one change after another. -/
def run (m : κ → σ) (journal : List (Change κ σ)) : Option (κ → σ) := journal.foldlM Change.apply m

/-- Changes of one entry, the first from `start`, each from where the one before it ends, the last to `final`. -/
def Meet (start : σ) : List (Change κ σ) → σ → Prop
  | [], final => start = final
  | change :: rest, final => start = change.pre ∧ Meet change.post rest final

omit [DecidableEq κ] [DecidableEq σ] in
theorem meet_iff_of_ne_nil {start final : σ} {journal : List (Change κ σ)} (hne : journal ≠ []) :
    Meet start journal final ↔ start = (journal.head hne).pre ∧
      journal.IsChain (fun earlier later => earlier.post = later.pre) ∧ (journal.getLast hne).post = final := by
  induction journal generalizing start with
  | nil => exact absurd rfl hne
  | cons change rest ih =>
    cases rest with
    | nil => simp [Meet]
    | cons next rest =>
      rw [Meet, ih (List.cons_ne_nil _ _), List.isChain_cons_cons, List.getLast_cons (List.cons_ne_nil _ _), and_assoc]
      rfl

omit [DecidableEq κ] [DecidableEq σ] in
/-- Whether changes meet depends on where each starts and ends. -/
theorem meet_congr {start final : σ} {left right : List (Change κ σ)}
    (h : left.map (fun change => (change.pre, change.post)) = right.map fun change => (change.pre, change.post)) :
    Meet start left final ↔ Meet start right final := by
  induction left generalizing start right with
  | nil =>
    obtain rfl := List.map_eq_nil_iff.mp h.symm
    rfl
  | cons change rest ih =>
    cases right with
    | nil => cases h
    | cons other others =>
      rw [List.map_cons, List.map_cons, List.cons.injEq, Prod.mk.injEq] at h
      obtain ⟨⟨hpre, hpost⟩, hrest⟩ := h
      rw [Meet, Meet, hpre, hpost, ih hrest]

omit [DecidableEq σ] in
/-- The changes of a journal at one key. -/
theorem filter_cons_update {m : κ → σ} {change : Change κ σ} {rest : List (Change κ σ)} {m' : κ → σ} :
    (∀ key, Meet (m key) ((change :: rest).filter fun other => other.key = key) (m' key)) ↔ m change.key = change.pre ∧
      ∀ key, Meet (Function.update m change.key change.post key) (rest.filter fun other => other.key = key) (m' key) := by
  constructor
  · intro h
    have hhere := h change.key
    rw [List.filter_cons_of_pos (by simp)] at hhere
    refine ⟨hhere.1, fun key => ?_⟩
    by_cases hkey : key = change.key
    · subst hkey
      rw [Function.update_self]
      exact hhere.2
    · have hother := h key
      rw [List.filter_cons_of_neg (by simpa using Ne.symm hkey)] at hother
      rw [Function.update_of_ne hkey]
      exact hother
  · rintro ⟨hpre, h⟩ key
    have hrest := h key
    by_cases hkey : key = change.key
    · subst hkey
      rw [Function.update_self] at hrest
      rw [List.filter_cons_of_pos (by simp)]
      exact ⟨hpre, hrest⟩
    · rw [Function.update_of_ne hkey] at hrest
      rw [List.filter_cons_of_neg (by simpa using Ne.symm hkey)]
      exact hrest

/-- A journal runs from one map to another exactly when, at every key, its changes meet. -/
theorem run_eq_some_iff {m m' : κ → σ} {journal : List (Change κ σ)} :
    run m journal = some m' ↔ ∀ key, Meet (m key) (journal.filter fun change => change.key = key) (m' key) := by
  induction journal generalizing m with
  | nil => simp [run, Meet, funext_iff]
  | cons change rest ih =>
    rw [filter_cons_update, ← ih, run, List.foldlM_cons, Change.apply]
    split <;> simp_all [run]

theorem run_append (m : κ → σ) (left right : List (Change κ σ)) : run m (left ++ right) = (run m left).bind (run · right) := by
  rw [run, List.foldlM_append]
  rfl

end changes
