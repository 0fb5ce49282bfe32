import Atoms.Chain.Inspect

open atoms.spec keyed

namespace atoms.chain

/-- Rows in the order of the chain: each names the one before it, and the first names `previous`. -/
def Linked : Option String → List Row → Prop
  | _, [] => True
  | previous, row :: rest => row.previous = previous ∧ Linked (some row.digest) rest

/-- The digest that a row after these would name. -/
def last_digest : Option String → List Row → Option String
  | previous, [] => previous
  | _, row :: rest => last_digest (some row.digest) rest

/-- The row after the one with a digest, if there is one. -/
def next_of : List Row → String → List Row
  | [], _ => []
  | row :: rest, digest => if row.digest = digest then rest.take 1 else next_of rest digest

/-- A row as the entry that it is in the chain. -/
def Row.link (row : Row) : String × Entry := (row.digest, row.entry)

theorem linked_append {previous : Option String} {left right : List Row} :
    Linked previous (left ++ right) ↔ Linked previous left ∧ Linked (last_digest previous left) right := by
  induction left generalizing previous with
  | nil => simp [Linked, last_digest]
  | cons row rest ih => simp [Linked, last_digest, ih, and_assoc]

theorem last_digest_append (previous : Option String) (left right : List Row) :
    last_digest previous (left ++ right) = last_digest (last_digest previous left) right := by
  induction left generalizing previous with
  | nil => rfl
  | cons row rest ih => exact ih _

theorem last_digest_eq_getLast? (previous : Option String) (rows : List Row) :
    last_digest previous rows = (rows.getLast?.map Row.digest).or previous := by
  induction rows generalizing previous with
  | nil => rfl
  | cons row rest ih =>
    rw [last_digest, ih]
    cases rest with
    | nil => rfl
    | cons next rest =>
      rw [List.getLast?_cons_cons]
      cases hlast : (next :: rest).getLast? with
      | none => exact absurd hlast (by simp)
      | some last => rfl

/-- Every row but the first names another row of the chain. -/
theorem Linked.previous {previous : Option String} {rows : List Row} (h : Linked previous rows) :
    ∀ row ∈ rows, row.previous = previous ∨ ∃ other ∈ rows, row.previous = some other.digest := by
  induction rows generalizing previous with
  | nil => simp
  | cons first rest ih =>
    intro row hrow
    rcases List.mem_cons.mp hrow with rfl | hrow
    · exact .inl h.1
    · rcases ih h.2 row hrow with hfirst | ⟨other, hother, hprevious⟩
      · exact .inr ⟨first, List.mem_cons_self, hfirst⟩
      · exact .inr ⟨other, List.mem_cons_of_mem _ hother, hprevious⟩

/-- No row names the last one as its predecessor. -/
theorem Linked.previous_ne_last {rows : List Row} (h : Linked none rows) (hnodup : (rows.map Row.digest).Nodup) :
    ∀ row ∈ rows, row.previous ≠ last_digest none rows := by
  intro row hrow heq
  obtain ⟨before, after, rfl⟩ := List.append_of_mem hrow
  have hprevious : row.previous = last_digest none before := (linked_append.mp h).2.1
  rw [last_digest_append, last_digest, hprevious] at heq
  rw [last_digest_eq_getLast?, last_digest_eq_getLast?, Option.or_none] at heq
  cases hlast : before.getLast? with
  | none => cases hafter : after.getLast? <;> simp [hlast, hafter] at heq
  | some last =>
    rw [List.map_append, List.map_cons] at hnodup
    have hbefore := List.mem_map_of_mem (f := Row.digest) (List.mem_of_getLast? hlast)
    refine List.disjoint_of_nodup_append hnodup hbefore ?_
    cases hafter : after.getLast? with
    | none =>
      simp [hlast, hafter] at heq
      simp [heq]
    | some tip =>
      have htip := List.mem_map_of_mem (f := Row.digest) (List.mem_of_getLast? hafter)
      simp [hlast, hafter] at heq
      rw [heq]
      exact List.mem_cons_of_mem _ htip

theorem next_of_eq_nil {rows : List Row} {digest : String} (h : digest ∉ rows.map Row.digest) :
    next_of rows digest = [] := by
  induction rows with
  | nil => rfl
  | cons row rest ih =>
    rw [List.map_cons, List.mem_cons, not_or] at h
    rw [next_of, if_neg (Ne.symm h.1), ih h.2]

theorem length_next_of_le (rows : List Row) (digest : String) : (next_of rows digest).length ≤ 1 := by
  induction rows with
  | nil => simp [next_of]
  | cons row rest ih =>
    rw [next_of]
    split
    · exact (List.length_take_le 1 rest)
    · exact ih

theorem next_of_append {front rest : List Row} {row : Row} (h : ((front ++ row :: rest).map Row.digest).Nodup) :
    next_of (front ++ row :: rest) row.digest = rest.take 1 := by
  induction front with
  | nil => rw [List.nil_append, next_of, if_pos rfl]
  | cons first front ih =>
    rw [List.cons_append, List.map_cons, List.nodup_cons] at h
    have hne : first.digest ≠ row.digest := fun heq => h.1 (List.mem_map.mpr ⟨row, by simp, heq.symm⟩)
    rw [List.cons_append, next_of, if_neg hne, ih h.2]

/-- In a chain the rows that name a digest are those right after it. -/
theorem Linked.filter_previous {previous : Option String} {rows : List Row} (h : Linked previous rows)
    (hnodup : (rows.map Row.digest).Nodup) (hprevious : ∀ digest ∈ previous, digest ∉ rows.map Row.digest)
    (digest : String) : (rows.filter fun row => row.previous = some digest) =
      if previous = some digest then rows.take 1 else next_of rows digest := by
  induction rows generalizing previous with
  | nil => simp [next_of]
  | cons row rest ih =>
    rw [List.map_cons, List.nodup_cons] at hnodup
    have hrest := ih h.2 hnodup.2 (by
      intro other hother
      rw [← Option.mem_some_iff.mp hother]
      exact hnodup.1)
    rw [List.filter_cons, hrest, h.1]
    by_cases hpre : previous = some digest
    · have hnot := hprevious digest hpre
      rw [List.map_cons, List.mem_cons, not_or] at hnot
      have hne : ¬ some row.digest = some digest := fun heq => hnot.1 (Option.some.inj heq).symm
      simp [hpre, hne, next_of_eq_nil hnot.2]
    · by_cases hdigest : row.digest = digest
      · simp [hpre, hdigest, next_of]
      · simp [hpre, hdigest, next_of]

section

variable {found rows : List Row} (hperm : rows.Perm found) (hnodup : (rows.map Row.digest).Nodup)
  (hlinked : Linked none rows)

include hperm hnodup hlinked

/-- The successors that `_linearize` reads off a scan of a chain. -/
theorem successors_eq (digest : String) :
    successors (sorted_by Row.digest found) digest = (next_of rows digest).map Row.digest := by
  have hsorted : (sorted_by Row.digest found).Perm rows := (sorted_by_perm _ _).trans hperm.symm
  have hfilter := hsorted.filter fun row => row.previous = some digest
  rw [hlinked.filter_previous hnodup (by simp) digest, if_neg (by simp)] at hfilter
  rw [successors]
  congr 1
  cases hnext : next_of rows digest with
  | nil => exact (hnext ▸ hfilter).eq_nil
  | cons row rest =>
    have hlength := length_next_of_le rows digest
    rw [hnext, List.length_cons] at hlength
    have hrest : rest = [] := List.length_eq_zero_iff.mp (by omega)
    rw [hnext, hrest] at hfilter
    rw [hrest]
    exact List.perm_singleton.mp hfilter

theorem walk_eq {front rest : List Row} {row : Row} (hrows : rows = front ++ row :: rest) {fuel : Nat}
    (hfuel : rest.length < fuel) :
    walk (sorted_by Row.digest found) fuel (front.map Row.digest) row.digest = .ok (rows.map Row.digest) := by
  induction rest generalizing front row fuel with
  | nil =>
    cases fuel with
    | zero => omega
    | succ fuel =>
      have hnew : row.digest ∉ front.map Row.digest := by
        rw [hrows, List.map_append, List.map_cons] at hnodup
        exact fun hmem => (List.nodup_append.mp hnodup).2.2 _ hmem _ List.mem_cons_self rfl
      have hnext : next_of rows row.digest = [] := by
        rw [hrows] at hnodup ⊢
        exact next_of_append hnodup
      rw [walk, if_neg hnew, successors_eq hperm hnodup hlinked, hnext, hrows]
      simp
  | cons next rest ih =>
    cases fuel with
    | zero => omega
    | succ fuel =>
      have hnew : row.digest ∉ front.map Row.digest := by
        rw [hrows, List.map_append, List.map_cons] at hnodup
        exact fun hmem => (List.nodup_append.mp hnodup).2.2 _ hmem _ List.mem_cons_self rfl
      have hnext : next_of rows row.digest = [next] := by
        rw [hrows] at hnodup ⊢
        exact next_of_append hnodup
      have hwalk := ih (show rows = (front ++ [row]) ++ next :: rest by rw [hrows, List.append_assoc]; rfl)
        (Nat.lt_of_succ_lt_succ hfuel)
      rw [List.map_append] at hwalk
      rw [walk, if_neg hnew, successors_eq hperm hnodup hlinked, hnext]
      exact hwalk

theorem linearize_of_linked {tip : String} (htip : last_digest none rows = some tip) :
    linearize found = .ok (rows.map Row.link, tip) := by
  obtain ⟨first, rest, hrows⟩ : ∃ first rest, rows = first :: rest := by
    cases hrows : rows with
    | nil =>
      rw [hrows] at htip
      cases htip
    | cons first rest => exact ⟨first, rest, rfl⟩
  have hfound : (found.map Row.digest).Nodup := (hperm.map _).nodup_iff.mp hnodup
  have hgenesis : (found.filter fun row => row.previous.isNone).map Row.digest = [first.digest] := by
    have hlinked' := hlinked
    rw [hrows] at hlinked'
    have hrest : (rest.filter fun row => row.previous.isNone) = [] := by
      rw [List.filter_eq_nil_iff]
      intro row hrow
      rcases hlinked'.2.previous row hrow with hprevious | ⟨_, _, hprevious⟩ <;> simp [hprevious]
    have hfilter := hperm.filter fun row => row.previous.isNone
    have hnone : first.previous.isNone = true := by rw [hlinked'.1]; rfl
    rw [hrows, List.filter_cons, if_pos hnone, hrest] at hfilter
    rw [List.singleton_perm.mp hfilter |>.symm]
    rfl
  have hsorted : (sorted_by Row.digest found).Perm rows := (sorted_by_perm _ _).trans hperm.symm
  have hmissing : ((sorted_by Row.digest found).find? fun row =>
      ∃ previous ∈ row.previous, previous ∉ found.map Row.digest) = none := by
    rw [List.find?_eq_none]
    intro row hrow
    rw [decide_eq_true_eq]
    rintro ⟨previous, hprevious, hnot⟩
    rcases hlinked.previous row (hsorted.mem_iff.mp hrow) with heq | ⟨other, hother, heq⟩
    · rw [heq] at hprevious
      cases hprevious
    · rw [heq, Option.mem_some_iff] at hprevious
      exact hnot (hprevious ▸ List.mem_map_of_mem (hperm.mem_iff.mp hother))
  have hsibling : ((sorted_by id ((sorted_by Row.digest found).filterMap Row.previous)).find? fun previous =>
      1 < (successors (sorted_by Row.digest found) previous).length) = none := by
    rw [List.find?_eq_none]
    intro previous _
    rw [decide_eq_true_eq, successors_eq hperm hnodup hlinked, List.length_map]
    exact Nat.not_lt.mpr (length_next_of_le rows previous)
  have hwalk : walk (sorted_by Row.digest found) (found.length + 1) [] first.digest = .ok (rows.map Row.digest) := by
    refine walk_eq hperm hnodup hlinked (show rows = [] ++ first :: rest from hrows) ?_
    rw [← hperm.length_eq, hrows, List.length_cons]
    omega
  have horphan : ((sorted_by Row.digest found).find? fun row => row.digest ∉ rows.map Row.digest) = none := by
    rw [List.find?_eq_none]
    intro row hrow
    rw [decide_eq_true_eq, not_not]
    exact List.mem_map_of_mem (hsorted.mem_iff.mp hrow)
  have hordered : ((rows.map Row.digest).filterMap fun digest =>
      (find_key Row.digest found digest).map fun row => (digest, row.entry)) = rows.map Row.link := by
    rw [List.filterMap_map]
    rw [← List.filterMap_eq_map]
    refine List.filterMap_congr fun row hrow => ?_
    rw [Function.comp_apply, find_key_of_mem hfound (hperm.mem_iff.mp hrow)]
    rfl
  have hlast : (rows.map Row.digest).getLast?.getD first.digest = tip := by
    rw [last_digest_eq_getLast?, Option.or_none] at htip
    rw [List.getLast?_map, htip]
    rfl
  rw [linearize, hgenesis]
  simp only [hmissing, hsibling, hwalk, horphan, hordered, hlast, refuse_some, checked.ok_bind]
  rfl

end

/-- The walk visits rows of the scan that are linked, each once. -/
theorem walk_linked {found front : List Row} {current : Row} {fuel : Nat} {visited : List String}
    (h : walk (sorted_by Row.digest found) fuel (front.map Row.digest) current.digest = .ok visited)
    (hmem : ∀ row ∈ front ++ [current], row ∈ found) (hlinked : Linked none (front ++ [current]))
    (hnodup : (front.map Row.digest).Nodup) :
    ∃ rows, visited = rows.map Row.digest ∧ (∀ row ∈ rows, row ∈ found) ∧ Linked none rows ∧
      (rows.map Row.digest).Nodup := by
  induction fuel generalizing front current with
  | zero =>
    rw [walk, Except.ok.injEq] at h
    exact ⟨front, h.symm, fun row hrow => hmem row (List.mem_append_left _ hrow), (linked_append.mp hlinked).1, hnodup⟩
  | succ fuel ih =>
    rw [walk] at h
    by_cases hseen : current.digest ∈ front.map Row.digest
    · rw [if_pos hseen] at h
      cases h
    · rw [if_neg hseen] at h
      have hnodup' : ((front ++ [current]).map Row.digest).Nodup := by
        rw [List.map_append, List.map_singleton, ← List.concat_eq_append]
        exact hnodup.concat hseen
      cases hnext : successors (sorted_by Row.digest found) current.digest with
      | nil =>
        rw [hnext] at h
        refine ⟨front ++ [current], ?_, hmem, hlinked, hnodup'⟩
        rw [List.map_append]
        exact (Except.ok.inj h).symm
      | cons following others =>
        rw [hnext] at h
        have hfollowing : following ∈ successors (sorted_by Row.digest found) current.digest := by
          rw [hnext]
          exact List.mem_cons_self
        obtain ⟨next, hmem_next, rfl⟩ := List.mem_map.mp hfollowing
        obtain ⟨hmem_next, hprevious⟩ := List.mem_filter.mp hmem_next
        rw [decide_eq_true_eq] at hprevious
        have hwalk : walk (sorted_by Row.digest found) fuel ((front ++ [current]).map Row.digest) next.digest =
            .ok visited := by
          rw [List.map_append]
          exact h
        refine ih hwalk ?_ ?_ hnodup'
        · intro row hrow
          rcases List.mem_append.mp hrow with hrow | hrow
          · exact hmem row hrow
          · rw [List.mem_singleton.mp hrow]
            exact (mem_sorted_by _ _ _).mp hmem_next
        · rw [linked_append]
          refine ⟨hlinked, ?_, trivial⟩
          rw [last_digest_append]
          exact hprevious

/-- What `_linearize` returns is the scan, in the order of the chain. -/
theorem linked_of_linearize {found : List Row} {entries : List (String × Entry)} {tip : String}
    (hnodup : (found.map Row.digest).Nodup) (h : linearize found = .ok (entries, tip)) :
    ∃ rows, rows.Perm found ∧ Linked none rows ∧ entries = rows.map Row.link ∧ last_digest none rows = some tip := by
  have hlinearize := h
  rw [linearize] at h
  cases hgenesis : (found.filter fun row => row.previous.isNone).map Row.digest with
  | nil =>
    rw [hgenesis] at h
    cases h
  | cons first others =>
    cases others with
    | cons second others =>
      rw [hgenesis] at h
      cases h
    | nil =>
      rw [hgenesis] at h
      simp only [checked.bind_eq_ok_iff, checked.pure_eq_ok_iff] at h
      obtain ⟨_, _, _, _, visited, hwalk, _, horphan, _⟩ := h
      have hfirst : first ∈ (found.filter fun row => row.previous.isNone).map Row.digest := by
        rw [hgenesis]
        exact List.mem_cons_self
      obtain ⟨genesis, hmem, rfl⟩ := List.mem_map.mp hfirst
      obtain ⟨hmem, hnone⟩ := List.mem_filter.mp hmem
      have hlinked : Linked none ([] ++ [genesis]) := ⟨Option.isNone_iff_eq_none.mp hnone, trivial⟩
      have hin : ∀ row ∈ [] ++ [genesis], row ∈ found := by
        intro row hrow
        rw [List.mem_singleton.mp hrow]
        exact hmem
      obtain ⟨rows, rfl, hrows, hlinked, hnodup'⟩ := walk_linked hwalk hin hlinked List.nodup_nil
      have hall : ∀ row ∈ found, row.digest ∈ rows.map Row.digest := by
        intro row hrow
        by_contra hnot
        cases hfind : (sorted_by Row.digest found).find? fun row => row.digest ∉ rows.map Row.digest with
        | none =>
          rw [List.find?_eq_none] at hfind
          exact hfind row ((mem_sorted_by _ _ _).mpr hrow) (decide_eq_true hnot)
        | some other =>
          rw [hfind] at horphan
          cases horphan
      have hsame : ∀ row, row ∈ rows ↔ row ∈ found := by
        refine fun row => ⟨hrows row, fun hrow => ?_⟩
        obtain ⟨other, hother, hdigest⟩ := List.mem_map.mp (hall row hrow)
        rwa [← List.inj_on_of_nodup_map hnodup (hrows other hother) hrow hdigest]
      have hperm : rows.Perm found := (List.perm_ext_iff_of_nodup hnodup'.of_map hnodup.of_map).mpr hsame
      have hne : rows ≠ [] := by
        rintro rfl
        exact absurd ((hsame genesis).mpr hmem) List.not_mem_nil
      have hlast : ∃ last, last_digest none rows = some last := by
        rw [last_digest_eq_getLast?, Option.or_none, List.getLast?_eq_some_getLast hne]
        exact ⟨_, rfl⟩
      obtain ⟨last, hlast⟩ := hlast
      rw [linearize_of_linked hperm hnodup' hlinked hlast] at hlinearize
      cases hlinearize
      exact ⟨rows, hperm, hlinked, rfl, hlast⟩

end atoms.chain
