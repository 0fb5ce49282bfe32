import Mathlib.Data.List.Basic
import Mathlib.Logic.Function.Iterate

namespace closure

variable {ε α : Type} [DecidableEq α] {node parent : ε → α} {edges : List ε}

/-- One pass over the edges: the nodes whose parents have been found by then are found too. -/
def pass (node parent : ε → α) (edges : List ε) (found : List α) : List α :=
  edges.foldl (fun found edge => if parent edge ∈ found ∧ node edge ∉ found then found ++ [node edge] else found) found

/-- The nodes at or below some others, along the edges. -/
inductive Below (node parent : ε → α) (edges : List ε) (start : List α) : α → Prop
  | start {x : α} (h : x ∈ start) : Below node parent edges start x
  | step {edge : ε} (hedge : edge ∈ edges) (h : Below node parent edges start (parent edge)) :
    Below node parent edges start (node edge)

/-- No edge leads out of what has been found. -/
def Closed (node parent : ε → α) (edges : List ε) (found : List α) : Prop :=
  ∀ edge ∈ edges, parent edge ∈ found → node edge ∈ found

theorem subset_pass (found : List α) : ∀ x ∈ found, x ∈ pass node parent edges found := by
  induction edges generalizing found with
  | nil => exact fun _ hx => hx
  | cons edge rest ih =>
    intro x hx
    rw [pass, List.foldl_cons]
    refine ih _ x ?_
    split
    · exact List.mem_append_left _ hx
    · exact hx

/-- What a pass finds is below what had been found. -/
theorem below_of_mem_pass {all : List ε} {start found : List α} (hedges : ∀ edge ∈ edges, edge ∈ all)
    (hfound : ∀ x ∈ found, Below node parent all start x) {x : α} (hx : x ∈ pass node parent edges found) :
    Below node parent all start x := by
  induction edges generalizing found with
  | nil => exact hfound x hx
  | cons edge rest ih =>
    rw [pass, List.foldl_cons] at hx
    refine ih (fun other hother => hedges other (List.mem_cons_of_mem _ hother)) ?_ hx
    intro y hy
    split at hy
    · rename_i hnew
      obtain hy | hy := List.mem_append.mp hy
      · exact hfound y hy
      · rw [List.mem_singleton.mp hy]
        exact .step (hedges edge List.mem_cons_self) (hfound _ hnew.1)
    · exact hfound y hy

/-- A pass finds the node of every edge whose parent had been found. -/
theorem mem_pass_of_edge {found : List α} {edge : ε} (hedge : edge ∈ edges) (hparent : parent edge ∈ found) :
    node edge ∈ pass node parent edges found := by
  induction edges generalizing found with
  | nil => cases hedge
  | cons head rest ih =>
    rw [pass, List.foldl_cons]
    obtain rfl | hrest := List.mem_cons.mp hedge
    · refine subset_pass _ _ ?_
      split
      · exact List.mem_append_right _ (List.mem_singleton_self _)
      · rename_i hnot
        exact not_not.mp fun hmem => hnot ⟨hparent, hmem⟩
    · refine ih hrest ?_
      split
      · exact List.mem_append_left _ hparent
      · exact hparent

/-- The edges whose nodes have not been found. -/
def missing (node : ε → α) (edges : List ε) (found : List α) : List ε := edges.filter fun edge => node edge ∉ found

theorem missing_pass_sublist (found : List α) :
    (missing node edges (pass node parent edges found)).Sublist (missing node edges found) := by
  refine List.monotone_filter_right _ fun edge hedge => ?_
  rw [decide_eq_true_eq] at hedge ⊢
  exact fun hmem => hedge (subset_pass found _ hmem)

/-- While an edge leads out of what has been found, a pass finds something. -/
theorem missing_pass_lt {found : List α} (h : ¬ Closed node parent edges found) :
    (missing node edges (pass node parent edges found)).length < (missing node edges found).length := by
  unfold Closed at h
  push Not at h
  obtain ⟨edge, hedge, hparent, hnode⟩ := h
  refine Nat.lt_of_le_of_ne (missing_pass_sublist found).length_le fun heq => ?_
  have hsame := (missing_pass_sublist found).eq_of_length heq
  have hmem : edge ∈ missing node edges found := List.mem_filter.mpr ⟨hedge, decide_eq_true hnode⟩
  rw [← hsame, missing, List.mem_filter, decide_eq_true_eq] at hmem
  exact hmem.2 (mem_pass_of_edge hedge hparent)

/-- A pass leaves alone what is closed. -/
theorem pass_of_closed {found : List α} (h : Closed node parent edges found) : pass node parent edges found = found := by
  induction edges with
  | nil => rfl
  | cons edge rest ih =>
    have hedge := h edge List.mem_cons_self
    have hhead : (if parent edge ∈ found ∧ node edge ∉ found then found ++ [node edge] else found) = found :=
      if_neg fun hnew => hnew.2 (hedge hnew.1)
    rw [pass, List.foldl_cons, hhead]
    exact ih fun other hother => h other (List.mem_cons_of_mem _ hother)

/-- As many passes as there are edges close what they find. -/
theorem closed_iterate (found : List α) {n : Nat} (hn : (missing node edges found).length ≤ n) :
    Closed node parent edges ((pass node parent edges)^[n] found) := by
  induction n generalizing found with
  | zero =>
    intro edge hedge _
    by_contra hnode
    have hmem : edge ∈ missing node edges found := List.mem_filter.mpr ⟨hedge, decide_eq_true hnode⟩
    have hpos := List.length_pos_of_mem hmem
    omega
  | succ n ih =>
    rw [Function.iterate_succ_apply]
    by_cases hclosed : Closed node parent edges found
    · rw [pass_of_closed hclosed]
      rw [Function.iterate_fixed (pass_of_closed hclosed)]
      exact hclosed
    · have hlt := missing_pass_lt hclosed
      exact ih _ (by omega)

/-- The passes find exactly what is at or below the start. -/
theorem mem_iterate_iff (start : List α) {n : Nat} (hn : edges.length ≤ n) (x : α) :
    x ∈ (pass node parent edges)^[n] start ↔ Below node parent edges start x := by
  constructor
  · intro hx
    have hsound : ∀ k, ∀ y ∈ (pass node parent edges)^[k] start, Below node parent edges start y := by
      intro k
      induction k with
      | zero => exact fun y hy => .start hy
      | succ k ih =>
        rw [Function.iterate_succ_apply']
        exact fun y hy => below_of_mem_pass (fun _ hedge => hedge) ih hy
    exact hsound n x hx
  · intro hx
    have hgrows : ∀ k, ∀ y ∈ start, y ∈ (pass node parent edges)^[k] start := by
      intro k
      induction k with
      | zero => exact fun y hy => hy
      | succ k ih =>
        rw [Function.iterate_succ_apply']
        exact fun y hy => subset_pass _ y (ih y hy)
    induction hx with
    | start hmem => exact hgrows n _ hmem
    | step hedge _ ih => exact closed_iterate start (Nat.le_trans (List.length_filter_le _ _) hn) _ hedge ih

omit [DecidableEq α] in
theorem Below.mono {start start' : List α} (h : ∀ x ∈ start, Below node parent edges start' x) {x : α}
    (hx : Below node parent edges start x) : Below node parent edges start' x := by
  induction hx with
  | start hmem => exact h _ hmem
  | step hedge _ ih => exact .step hedge ih

end closure
