import Atoms.Chain.Linear
import Mathlib.Logic.Relation

open atoms.spec keyed checked

namespace atoms.chain

/-- A row of the scan has the second digest and names the first as its predecessor. -/
def Follows (found : List Row) (previous digest : String) : Prop :=
  ∃ row ∈ found, row.previous = some previous ∧ row.digest = digest

/-- The loop of `_linearize`, as long as it runs, ends with `result`. -/
inductive Walks (ascending : List Row) : (visited : List String) → (current : String) →
    Except ChainDefect (List String) → Prop
  | revisits {visited : List String} {current : String} (hseen : current ∈ visited) :
    Walks ascending visited current (.error
      { kind := .CYCLE, subject := some current
        detail := "the chain revisits entry " ++ current ++ ", so it contains a cycle" })
  | ends {visited : List String} {current : String} (hnew : current ∉ visited)
      (hnext : successors ascending current = []) : Walks ascending visited current (.ok (visited ++ [current]))
  | follows {visited : List String} {current following : String} {others : List String}
      {result : Except ChainDefect (List String)} (hnew : current ∉ visited)
      (hnext : successors ascending current = following :: others)
      (hrest : Walks ascending (visited ++ [current]) following result) : Walks ascending visited current result

/-- What a defect says of the rows. -/
inductive HasDefect (found : List Row) : ChainDefect → Prop
  | genesis_count (hcount : (found.filter fun row => row.previous.isNone).length ≠ 1) : HasDefect found genesis_count
  | missing_predecessor {row : Row} {previous : String} (hrow : row ∈ found) (hprevious : row.previous = some previous)
      (hmissing : ∀ other ∈ found, other.digest ≠ previous) : HasDefect found (missing_predecessor row)
  | sibling_branch {previous : String} {left right : Row} (hleft : left ∈ found) (hright : right ∈ found)
      (hne : left.digest ≠ right.digest) (hprevious : left.previous = some previous)
      (hprevious' : right.previous = some previous) : HasDefect found (sibling_branch previous)
  | cycle {digest : String} (hcycle : Relation.TransGen (Follows found) digest digest) : HasDefect found
      { kind := .CYCLE, subject := some digest
        detail := "the chain revisits entry " ++ digest ++ ", so it contains a cycle" }
  | orphan_history {row : Row} (hrow : row ∈ found) (horphan : ∀ genesis ∈ found, genesis.previous = none →
      ¬ Relation.ReflTransGen (Follows found) genesis.digest row.digest) : HasDefect found (orphan_history row.digest)

section

variable {found : List Row}

theorem mem_successors {previous digest : String} :
    digest ∈ successors (sorted_by Row.digest found) previous ↔ Follows found previous digest := by
  simp only [successors, List.mem_map, List.mem_filter, decide_eq_true_eq, mem_sorted_by, and_assoc]
  rfl

theorem mem_digests_of_follows {previous digest : String} (h : Follows found previous digest) :
    digest ∈ found.map Row.digest := by
  obtain ⟨row, hrow, _, rfl⟩ := h
  exact List.mem_map_of_mem hrow

/-- There are as many turns to take as there are digests left to visit, and one to stop. -/
theorem walk_walks {fuel : Nat} {visited : List String} {current : String} (hnodup : visited.Nodup)
    (hvisited : visited ⊆ found.map Row.digest) (hcurrent : current ∈ found.map Row.digest)
    (hfuel : found.length < fuel + visited.length) :
    Walks (sorted_by Row.digest found) visited current (walk (sorted_by Row.digest found) fuel visited current) := by
  induction fuel generalizing visited current with
  | zero =>
    have hlength := (List.subperm_of_subset hnodup hvisited).length_le
    rw [List.length_map] at hlength
    omega
  | succ fuel ih =>
    rw [walk]
    split
    · rename_i hseen
      exact .revisits hseen
    · rename_i hnew
      split
      · rename_i hnext
        exact .ends hnew hnext
      · rename_i following others hnext
        have hfollowing : Follows found current following := by
          rw [← mem_successors, hnext]
          exact List.mem_cons_self
        refine .follows hnew hnext (ih ?_ ?_ (mem_digests_of_follows hfollowing) ?_)
        · rw [← List.concat_eq_append]
          exact hnodup.concat hnew
        · exact List.append_subset.mpr ⟨hvisited, List.cons_subset.mpr ⟨hcurrent, List.nil_subset _⟩⟩
        · rw [List.length_append, List.length_singleton]
          omega

/-- The walk revisits an entry only where the entry leads back to itself. -/
theorem Walks.cycle {visited : List String} {current : String} {result : Except ChainDefect (List String)}
    (h : Walks (sorted_by Row.digest found) visited current result)
    (hvisited : ∀ digest ∈ visited, Relation.TransGen (Follows found) digest current) {defect : ChainDefect}
    (hresult : result = .error defect) : HasDefect found defect := by
  induction h with
  | revisits hseen =>
    cases hresult
    exact .cycle (hvisited _ hseen)
  | ends => cases hresult
  | @follows visited current following others result _ hnext _ ih =>
    have hfollowing : Follows found current following := by
      rw [← mem_successors, hnext]
      exact List.mem_cons_self
    refine ih (fun digest hdigest => ?_) hresult
    rcases List.mem_append.mp hdigest with hdigest | hdigest
    · exact (hvisited digest hdigest).tail hfollowing
    · rw [List.mem_singleton.mp hdigest]
      exact .single hfollowing

/-- Where no entry has two successors, the walk visits every entry that follows a visited one. -/
theorem Walks.closed {visited : List String} {current : String} {result : Except ChainDefect (List String)}
    (h : Walks (sorted_by Row.digest found) visited current result)
    (hsingle : ∀ previous, (successors (sorted_by Row.digest found) previous).length ≤ 1)
    (hvisited : ∀ previous ∈ visited, ∀ digest, Follows found previous digest → digest ∈ visited ∨ digest = current)
    {reached : List String} (hresult : result = .ok reached) : current ∈ reached ∧ visited ⊆ reached ∧
      ∀ previous ∈ reached, ∀ digest, Follows found previous digest → digest ∈ reached := by
  induction h with
  | revisits => cases hresult
  | @ends visited current hnew hnext =>
    cases hresult
    refine ⟨by simp, List.subset_append_left _ _, fun previous hprevious digest hfollows => ?_⟩
    rcases List.mem_append.mp hprevious with hprevious | hprevious
    · simpa using hvisited previous hprevious digest hfollows
    · rw [List.mem_singleton.mp hprevious, ← mem_successors, hnext] at hfollows
      exact absurd hfollows List.not_mem_nil
  | @follows visited current following others result hnew hnext _ ih =>
    have hone := hsingle current
    rw [hnext, List.length_cons] at hone
    obtain rfl : others = [] := List.length_eq_zero_iff.mp (by omega)
    obtain ⟨_, hsub, hclosed⟩ := ih (by
      intro previous hprevious digest hfollows
      rcases List.mem_append.mp hprevious with hprevious | hprevious
      · rcases hvisited previous hprevious digest hfollows with hmem | rfl
        · exact .inl (List.mem_append_left _ hmem)
        · exact .inl (List.mem_append_right _ List.mem_cons_self)
      · rw [List.mem_singleton.mp hprevious, ← mem_successors, hnext] at hfollows
        exact .inr (List.mem_singleton.mp hfollows)) hresult
    exact ⟨hsub (by simp), fun digest hdigest => hsub (List.mem_append_left _ hdigest), hclosed⟩

theorem reached_of_closed {reached : List String}
    (hclosed : ∀ previous ∈ reached, ∀ digest, Follows found previous digest → digest ∈ reached)
    {first digest : String} (hfirst : first ∈ reached) (h : Relation.ReflTransGen (Follows found) first digest) :
    digest ∈ reached := by
  induction h with
  | refl => exact hfirst
  | tail _ hfollows ih => exact hclosed _ ih _ hfollows

theorem refuse_some_eq_error_iff {α : Type} {defect : α → ChainDefect} {item : Option α} {e : ChainDefect} :
    refuse_some defect item = .error e ↔ ∃ value, item = some value ∧ defect value = e := by
  cases item with
  | none => simp [refuse_some]
  | some value => simp [refuse_some]

theorem sibling_of_successors (hnodup : (found.map Row.digest).Nodup) {previous : String}
    (h : 1 < (successors (sorted_by Row.digest found) previous).length) : HasDefect found (sibling_branch previous) := by
  rw [successors, List.length_map] at h
  cases hrows : (sorted_by Row.digest found).filter fun row => row.previous = some previous with
  | nil => simp [hrows] at h
  | cons left tail =>
    obtain ⟨right, rest, rfl⟩ := List.exists_cons_of_ne_nil (l := tail) (by
      rintro rfl
      simp [hrows] at h)
    have hmem : ∀ row ∈ left :: right :: rest, row ∈ found ∧ row.previous = some previous := by
      intro row hrow
      rw [← hrows, List.mem_filter, mem_sorted_by, decide_eq_true_eq] at hrow
      exact hrow
    have hdistinct : ((left :: right :: rest).map Row.digest).Nodup := by
      rw [← hrows]
      have hsorted := ((sorted_by_perm Row.digest found).map Row.digest).nodup_iff.mpr hnodup
      exact hsorted.sublist (List.filter_sublist.map _)
    obtain ⟨hleft, hprevious⟩ := hmem left (by simp)
    obtain ⟨hright, hprevious'⟩ := hmem right (by simp)
    refine .sibling_branch hleft hright (fun heq => ?_) hprevious hprevious'
    rw [List.map_cons, List.map_cons, heq] at hdistinct
    exact (List.nodup_cons.mp hdistinct).1 List.mem_cons_self

/-- A defect that `_linearize` reports is one of the rows. -/
theorem has_defect_of_linearize (hnodup : (found.map Row.digest).Nodup) {defect : ChainDefect}
    (h : linearize found = .error defect) : HasDefect found defect := by
  rw [linearize] at h
  cases hgenesis : (found.filter fun row => row.previous.isNone).map Row.digest with
  | nil =>
    rw [hgenesis] at h
    cases h
    rw [List.map_eq_nil_iff] at hgenesis
    exact .genesis_count (by rw [hgenesis]; decide)
  | cons first others =>
    cases others with
    | cons second others =>
      rw [hgenesis] at h
      cases h
      have hlength := congrArg List.length hgenesis
      rw [List.length_map, List.length_cons, List.length_cons] at hlength
      exact .genesis_count (by omega)
    | nil =>
      rw [hgenesis] at h
      obtain ⟨genesis, hfilter, rfl⟩ := List.mem_map.mp (hgenesis ▸ List.mem_cons_self)
      obtain ⟨hmem, hnone⟩ := List.mem_filter.mp hfilter
      have hwalks : Walks (sorted_by Row.digest found) [] genesis.digest
          (walk (sorted_by Row.digest found) (found.length + 1) [] genesis.digest) :=
        walk_walks List.nodup_nil (by simp) (List.mem_map_of_mem hmem) (by simp)
      dsimp only at h
      cases hmissing : (sorted_by Row.digest found).find? fun row =>
          ∃ previous ∈ row.previous, previous ∉ found.map Row.digest with
      | some row =>
        rw [hmissing] at h
        cases h
        have hsome := List.find?_some hmissing
        obtain ⟨previous, hprevious, hnot⟩ := of_decide_eq_true hsome
        have hrow := (mem_sorted_by _ _ _).mp (List.mem_of_find?_eq_some hmissing)
        exact .missing_predecessor hrow hprevious fun other hother heq => hnot (heq ▸ List.mem_map_of_mem hother)
      | none =>
        rw [hmissing, refuse_some, ok_bind] at h
        cases hsibling : (sorted_by id ((sorted_by Row.digest found).filterMap Row.previous)).find? fun previous =>
            1 < (successors (sorted_by Row.digest found) previous).length with
        | some previous =>
          rw [hsibling] at h
          cases h
          have hmany := List.find?_some hsibling
          exact sibling_of_successors hnodup (of_decide_eq_true hmany)
        | none =>
          rw [hsibling, refuse_some, ok_bind] at h
          have hsingle : ∀ previous, (successors (sorted_by Row.digest found) previous).length ≤ 1 := by
            intro previous
            by_contra hmany
            obtain ⟨digest, hdigest⟩ := List.exists_mem_of_length_pos (l := successors (sorted_by Row.digest found) previous)
              (by omega)
            obtain ⟨row, hrow, hprevious, _⟩ := mem_successors.mp hdigest
            have hin : previous ∈ sorted_by id ((sorted_by Row.digest found).filterMap Row.previous) :=
              (mem_sorted_by _ _ _).mpr (List.mem_filterMap.mpr ⟨row, (mem_sorted_by _ _ _).mpr hrow, hprevious⟩)
            exact List.find?_eq_none.mp hsibling previous hin (decide_eq_true (by omega))
          cases hwalk : walk (sorted_by Row.digest found) (found.length + 1) [] genesis.digest with
          | error e =>
            rw [hwalk] at h hwalks
            cases h
            exact hwalks.cycle (by simp) rfl
          | ok visited =>
            rw [hwalk, ok_bind] at h
            rw [hwalk] at hwalks
            obtain ⟨hfirst, _, hclosed⟩ := hwalks.closed hsingle (by simp) rfl
            cases horphan : (sorted_by Row.digest found).find? fun row => row.digest ∉ visited with
            | none =>
              rw [horphan] at h
              cases h
            | some row =>
              rw [horphan] at h
              cases h
              have hrow := (mem_sorted_by _ _ _).mp (List.mem_of_find?_eq_some horphan)
              have hnot := List.find?_some horphan
              rw [decide_eq_true_eq] at hnot
              refine .orphan_history hrow fun other hother hprevious hreach => hnot ?_
              -- The genesis that an orphan might hang from is the one that the walk started at.
              have hsame : other.digest = genesis.digest := by
                have hin : other.digest ∈ (found.filter fun row => row.previous.isNone).map Row.digest :=
                  List.mem_map_of_mem (List.mem_filter.mpr ⟨hother, by rw [hprevious]; rfl⟩)
                rw [hgenesis] at hin
                exact List.mem_singleton.mp hin
              exact reached_of_closed hclosed hfirst (hsame ▸ hreach)

/-- The order of the rows does not show in what `_linearize` returns. -/
theorem linearize_congr {found' : List Row} (h : found'.Perm found) (hnodup : (found.map Row.digest).Nodup) :
    linearize found' = linearize found := by
  have hnodup' : (found'.map Row.digest).Nodup := (h.map _).nodup_iff.mpr hnodup
  have hsorted : sorted_by Row.digest found' = sorted_by Row.digest found := sorted_by_congr h hnodup'
  have hmem : ∀ digest, digest ∈ found'.map Row.digest ↔ digest ∈ found.map Row.digest := fun _ => (h.map _).mem_iff
  have hgenesis := (h.filter fun row => row.previous.isNone).map Row.digest
  have hfind := find_key_perm h hnodup'
  rw [linearize, linearize]
  simp only [hsorted, hmem, h.length_eq, hfind]
  cases hrows : (found.filter fun row => row.previous.isNone).map Row.digest with
  | nil =>
    rw [hrows] at hgenesis
    rw [hgenesis.eq_nil]
  | cons first others =>
    cases others with
    | nil =>
      rw [hrows] at hgenesis
      rw [List.perm_singleton.mp hgenesis]
    | cons second others =>
      rw [hrows] at hgenesis
      have hlength := hgenesis.length_eq
      obtain ⟨left, tail, hleft⟩ := List.exists_cons_of_ne_nil
        (l := (found'.filter fun row => row.previous.isNone).map Row.digest) (by rintro hnil; simp [hnil] at hlength)
      obtain ⟨right, rest, rfl⟩ := List.exists_cons_of_ne_nil (l := tail) (by
        rintro rfl
        simp [hleft] at hlength)
      rw [hleft]

end

/-- Whatever the rows of a scan, `_linearize` returns their one path from the genesis row, in whatever
order they come, or a defect that they have; its loop ends. -/
theorem linearize_exact {found : List Row} (hnodup : (found.map Row.digest).Nodup) :
    (∀ entries tip, linearize found = .ok (entries, tip) ↔ ∃ rows, rows.Perm found ∧ Linked none rows ∧
      entries = rows.map Row.link ∧ last_digest none rows = some tip) ∧
    (∀ found', found'.Perm found → linearize found' = linearize found) ∧
    (∀ genesis ∈ found, Walks (sorted_by Row.digest found) [] genesis.digest
      (walk (sorted_by Row.digest found) (found.length + 1) [] genesis.digest)) ∧
    ∀ defect, linearize found = .error defect → HasDefect found defect := by
  refine ⟨fun entries tip => ⟨linked_of_linearize hnodup, ?_⟩, fun found' hperm => linearize_congr hperm hnodup,
    fun genesis hgenesis => ?_, fun defect => has_defect_of_linearize hnodup⟩
  · rintro ⟨rows, hperm, hlinked, rfl, htip⟩
    exact linearize_of_linked hperm ((hperm.map _).nodup_iff.mpr hnodup) hlinked htip
  · exact walk_walks List.nodup_nil (List.nil_subset _) (List.mem_map_of_mem hgenesis) (by simp)

def first_row : Row := ⟨"a", none, .GenesisEntry { payload := [], baseline := [] }, []⟩

def second_row : Row := ⟨"b", some "a", .IntentEntry { payload := [] }, []⟩

/-- Two rows, the later one first. -/
theorem second_row_linearizes :
    linearize [second_row, first_row] = .ok ([first_row.link, second_row.link], second_row.digest) := by
  have hnodup : ([second_row, first_row].map Row.digest).Nodup := by decide
  exact ((linearize_exact hnodup).1 _ _).mpr ⟨[first_row, second_row], .swap _ _ _, ⟨rfl, rfl, trivial⟩, rfl, rfl⟩

end atoms.chain
