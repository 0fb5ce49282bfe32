import Atoms.Recovery.Classifier
import Atoms.Recovery.Snapshot.Facts
import Mathlib.Data.List.Chain

open atoms.errors atoms.fingerprint atoms.effects atoms.spec atoms.timeline atoms.compiler checked keyed

namespace atoms.timeline

/-- The occurrences of one effect at one path. -/
def entries_at (index : Nat) (effect : Effect) (path : RelPath) : List TimelineOccurrence :=
  (effect_entries index effect).filterMap fun (owner, occurrence) => if owner = path then some occurrence else none

/-- The occurrences at one path of the effects numbered from `start`. -/
def grouped_from (start : Nat) (effects : List Effect) (path : RelPath) : List TimelineOccurrence :=
  (effects.zipIdx start).flatMap fun item => entries_at item.2 item.1 path

theorem grouped_eq (effects : List Effect) (path : RelPath) : grouped effects path = grouped_from 0 effects path := by
  unfold grouped grouped_from timeline_entries
  rw [List.filterMap_flatMap]
  rfl

theorem grouped_from_append (start : Nat) (effects rest : List Effect) (path : RelPath) :
    grouped_from start (effects ++ rest) path =
      grouped_from start effects path ++ grouped_from (start + effects.length) rest path := by
  simp [grouped_from, List.zipIdx_append]

theorem grouped_from_cons (start : Nat) (effect : Effect) (rest : List Effect) (path : RelPath) :
    grouped_from start (effect :: rest) path = entries_at start effect path ++ grouped_from (start + 1) rest path := by
  simp [grouped_from]

theorem mem_entries_at_iff {index : Nat} {effect : Effect} {path : RelPath} {item : TimelineOccurrence} :
    item ∈ entries_at index effect path ↔ ∃ occurrence ∈ occurrences effect, occurrence.path = path ∧
      item = ⟨effect.effect_id, index, occurrence.role, occurrence.pre, occurrence.post⟩ := by
  unfold entries_at effect_entries
  simp only [List.filterMap_map, List.mem_filterMap, Function.comp_apply]
  constructor
  · rintro ⟨occurrence, hmem, h⟩
    split at h
    · rename_i hpath
      exact ⟨occurrence, hmem, hpath, (Option.some.inj h).symm⟩
    · cases h
  · rintro ⟨occurrence, hmem, hpath, rfl⟩
    exact ⟨occurrence, hmem, by simp [hpath]⟩

theorem mem_grouped_from_iff {start : Nat} {effects : List Effect} {path : RelPath} {item : TimelineOccurrence} :
    item ∈ grouped_from start effects path ↔ ∃ i effect, effects[i]? = some effect ∧
      item ∈ entries_at (start + i) effect path := by
  unfold grouped_from
  rw [List.mem_flatMap]
  constructor
  · rintro ⟨⟨effect, index⟩, hmem, hitem⟩
    obtain ⟨hle, hget⟩ := List.mk_mem_zipIdx_iff_le_and_getElem?_sub.mp hmem
    refine ⟨index - start, effect, hget, ?_⟩
    rw [Nat.add_sub_cancel' hle]
    exact hitem
  · rintro ⟨i, effect, hget, hitem⟩
    refine ⟨(effect, start + i), List.mk_mem_zipIdx_iff_le_and_getElem?_sub.mpr ⟨by omega, ?_⟩, hitem⟩
    simpa using hget

/-- An occurrence at a path stands between the earlier and the later ones of its path. -/
theorem grouped_split {effects : List Effect} {index : Nat} {effect : Effect} (heffect : effects[index]? = some effect)
    {occurrence : Occurrence} (hocc : occurrence ∈ occurrences effect)
    (hnodup : ((occurrences effect).map Occurrence.path).Nodup) :
    ∃ before after, grouped effects occurrence.path = before ++
        ⟨effect.effect_id, index, occurrence.role, occurrence.pre, occurrence.post⟩ :: after ∧
      (∀ item ∈ before, item.effect_index < index) ∧ ∀ item ∈ after, index < item.effect_index := by
  obtain ⟨hlt, hget⟩ := List.getElem?_eq_some_iff.mp heffect
  have hsplit : effects = effects.take index ++ effect :: effects.drop (index + 1) := by
    rw [← hget, List.getElem_cons_drop, List.take_append_drop]
  have hlength : (effects.take index).length = index := by simp; omega
  have hown : entries_at index effect occurrence.path =
      [⟨effect.effect_id, index, occurrence.role, occurrence.pre, occurrence.post⟩] := by
    unfold entries_at effect_entries
    rw [List.filterMap_map]
    obtain ⟨before, after, hsplit⟩ := List.append_of_mem hocc
    have hother : ∀ item ∈ before ++ after, item.path ≠ occurrence.path := by
      rw [hsplit, List.map_append, List.map_cons, List.nodup_append, List.nodup_cons] at hnodup
      intro item hmem
      rcases List.mem_append.mp hmem with hmem | hmem
      · exact hnodup.2.2 _ (List.mem_map_of_mem hmem) _ List.mem_cons_self
      · intro heq
        exact hnodup.2.1.1 (heq ▸ List.mem_map_of_mem hmem)
    have hnone : ∀ items : List Occurrence, (∀ item ∈ items, item ∈ before ++ after) →
        items.filterMap ((fun (owner, occurrence') => if owner = occurrence.path then some occurrence' else none) ∘
          fun item => (item.path, (⟨effect.effect_id, index, item.role, item.pre, item.post⟩ : TimelineOccurrence))) =
          [] := by
      intro items hitems
      rw [List.filterMap_eq_nil_iff]
      intro item hmem
      simp [hother item (hitems item hmem)]
    rw [hsplit, List.filterMap_append, List.filterMap_cons,
      hnone before fun item hmem => List.mem_append_left _ hmem,
      hnone after fun item hmem => List.mem_append_right _ hmem]
    simp
  refine ⟨grouped_from 0 (effects.take index) occurrence.path,
    grouped_from (index + 1) (effects.drop (index + 1)) occurrence.path, ?_, ?_, ?_⟩
  · rw [grouped_eq]
    conv_lhs => rw [hsplit]
    rw [grouped_from_append, grouped_from_cons, hlength, Nat.zero_add, hown]
    rfl
  · intro item hitem
    obtain ⟨i, other, hother, hmem⟩ := mem_grouped_from_iff.mp hitem
    obtain ⟨_, _, _, rfl⟩ := mem_entries_at_iff.mp hmem
    have hbound := (List.getElem?_eq_some_iff.mp hother).1
    simp only [hlength] at hbound
    simpa using hbound
  · intro item hitem
    obtain ⟨i, other, hother, hmem⟩ := mem_grouped_from_iff.mp hitem
    obtain ⟨_, _, _, rfl⟩ := mem_entries_at_iff.mp hmem
    simp only
    omega

end atoms.timeline

namespace atoms.recovery

/-- The journal state at an index; every effect has one. -/
def state_at (states : List JournalState) (index : Nat) : JournalState := states[index]?.getD .PENDING

namespace journal

/-- The occurrence that the reverse frontier of a path stands at. -/
def frontier_occurrence (effects : List Effect) (states : List JournalState) (path : RelPath) :
    Option TimelineOccurrence :=
  ((grouped effects path).filter fun item => classifier.needs_reversal (state_at states item.effect_index)).getLast?

/-- The state that rollback expects at a path. -/
def expected_at (effects : List Effect) (states : List JournalState) (path : RelPath) : Option PathState :=
  match frontier_occurrence effects states path with
  | some item => some item.post
  | none => ((grouped effects path).head?).map TimelineOccurrence.pre

section

variable {effects : List Effect} {states : List JournalState} {path : RelPath}

/-- Only the journals of the effects at a path decide its frontier. -/
theorem expected_at_congr {states' : List JournalState}
    (h : ∀ item ∈ grouped effects path, classifier.needs_reversal (state_at states' item.effect_index) =
      classifier.needs_reversal (state_at states item.effect_index)) :
    expected_at effects states' path = expected_at effects states path := by
  unfold expected_at frontier_occurrence
  rw [List.filter_congr h]

variable {index : Nat} {effect : Effect} {occurrence : Occurrence}

/-- Below the last effect that may have changed a path, its post state is expected. -/
theorem expected_at_candidate (heffect : effects[index]? = some effect) (hocc : occurrence ∈ occurrences effect)
    (hnodup : ((occurrences effect).map Occurrence.path).Nodup)
    (hstate : classifier.needs_reversal (state_at states index) = true)
    (hlater : ∀ item ∈ grouped effects occurrence.path, index < item.effect_index →
      classifier.needs_reversal (state_at states item.effect_index) = false) :
    expected_at effects states occurrence.path = some occurrence.post := by
  obtain ⟨before, after, hsplit, _, hafter⟩ := grouped_split heffect hocc hnodup
  have hnil : after.filter (fun item => classifier.needs_reversal (state_at states item.effect_index)) = [] := by
    rw [List.filter_eq_nil_iff]
    intro item hmem
    rw [hlater item (by rw [hsplit]; simp [hmem]) (hafter item hmem)]
    decide
  unfold expected_at frontier_occurrence
  simp [hsplit, hstate, hnil]

/-- Once an effect is settled and all before it are applied, its own pre state is expected. -/
theorem expected_at_settled (heffect : effects[index]? = some effect) (hocc : occurrence ∈ occurrences effect)
    (hnodup : ((occurrences effect).map Occurrence.path).Nodup)
    (hchain : (grouped effects occurrence.path).IsChain fun earlier later => earlier.post = later.pre)
    (hearlier : ∀ item ∈ grouped effects occurrence.path, item.effect_index < index →
      classifier.needs_reversal (state_at states item.effect_index) = true)
    (hlater : ∀ item ∈ grouped effects occurrence.path, index ≤ item.effect_index →
      classifier.needs_reversal (state_at states item.effect_index) = false) :
    expected_at effects states occurrence.path = some occurrence.pre := by
  obtain ⟨before, after, hsplit, hbefore, hafter⟩ := grouped_split heffect hocc hnodup
  have hnil : after.filter (fun item => classifier.needs_reversal (state_at states item.effect_index)) = [] := by
    rw [List.filter_eq_nil_iff]
    intro item hmem
    rw [hlater item (by rw [hsplit]; simp [hmem]) (hafter item hmem).le]
    decide
  have hall : before.filter (fun item => classifier.needs_reversal (state_at states item.effect_index)) = before := by
    rw [List.filter_eq_self]
    intro item hmem
    exact hearlier item (by rw [hsplit]; simp [hmem]) (hbefore item hmem)
  have hself : classifier.needs_reversal (state_at states index) = false :=
    hlater _ (by rw [hsplit]; exact List.mem_append_right _ List.mem_cons_self) (Nat.le_refl _)
  unfold expected_at frontier_occurrence
  simp only [hsplit, List.filter_append, List.filter_cons, hself, hnil, hall, Bool.false_eq_true, if_false,
    List.append_nil]
  cases hlast : before.getLast? with
  | none =>
    rw [List.getLast?_eq_none_iff] at hlast
    simp [hlast]
  | some last =>
    rw [hsplit, List.isChain_append] at hchain
    have hmeet := hchain.2.2 last (by rw [hlast]; rfl) _ rfl
    simpa using hmeet

theorem expected_at_initial (h : ∀ item ∈ grouped effects path,
    classifier.needs_reversal (state_at states item.effect_index) = false) :
    expected_at effects states path = ((grouped effects path).head?).map TimelineOccurrence.pre := by
  have hnil : (grouped effects path).filter (fun item => classifier.needs_reversal (state_at states item.effect_index)) = [] := by
    rw [List.filter_eq_nil_iff]
    intro item hmem
    rw [h item hmem]
    decide
  simp [expected_at, frontier_occurrence, hnil]

end

variable [UnicodeData] {s : RecoverySnapshot}

/-- The journal of a planned occurrence is the state at its effect's index. -/
theorem journal_of_occurrence {path : RelPath} {item : TimelineOccurrence} (hitem : item ∈ grouped s.effects path) :
    snapshot.journal_of s.journals item.effect_id = some (state_at s.states item.effect_index) ∧
      find_key (fun item : Effect × Nat => item.1.effect_id) s.effects.zipIdx item.effect_id ≠ none := by
  rw [grouped_eq] at hitem
  obtain ⟨i, effect, heffect, hmem⟩ := mem_grouped_from_iff.mp hitem
  obtain ⟨_, _, _, rfl⟩ := mem_entries_at_iff.mp hmem
  obtain ⟨state, hstate⟩ := s.exists_state heffect
  rw [Nat.zero_add]
  refine ⟨by rw [s.journal_of_eq heffect hstate]; simp [state_at, hstate], ?_⟩
  rw [Ne, find_key_eq_none_iff]
  intro hnone
  exact hnone (effect, i) (List.mk_mem_zipIdx_iff_getElem?.mpr heffect) rfl

theorem occurrence_states_eq (path : RelPath) : occurrence_states s.journals (grouped s.effects path) =
    .ok ((grouped s.effects path).map fun item => (item, state_at s.states item.effect_index)) := by
  unfold occurrence_states
  apply mapM_eq_ok_of_forall
  intro item hitem
  rw [(journal_of_occurrence hitem).1]
  rfl

omit [UnicodeData] in
theorem reverse_candidates_map (items : List TimelineOccurrence) (states : List JournalState) :
    reverse_candidates (items.map fun item => (item, state_at states item.effect_index)) =
      (items.filter fun item => classifier.needs_reversal (state_at states item.effect_index)).map fun item =>
        (item, state_at states item.effect_index) := by
  unfold reverse_candidates
  rw [List.filter_map]
  congr 1
  apply List.filter_congr
  intro item _
  have hsame : ∀ state : JournalState,
      decide (state ∈ [JournalState.DONE, .STARTED, .UNDO_STARTED]) = classifier.needs_reversal state := by
    intro state
    cases state <;> decide
  exact hsame _

/-- The reverse frontier of a planned path expects what `expected_at` says. -/
theorem reverse_frontier_eq {path : RelPath} (hpath : path ∈ s.compiled.paths) :
    ∃ frontier, reverse_frontier s.effects path ((grouped s.effects path).map fun item =>
        (item, state_at s.states item.effect_index)) = .ok frontier ∧ frontier.path = path ∧
      expected_at s.effects s.states path = some frontier.expected_state := by
  unfold reverse_frontier
  rw [reverse_candidates_map, List.getLast?_map]
  unfold expected_at frontier_occurrence
  cases hlast : ((grouped s.effects path).filter fun item =>
    classifier.needs_reversal (state_at s.states item.effect_index)).getLast? with
  | none =>
    obtain ⟨first, _, hfirst, _⟩ := s.compiled.surface_endpoints hpath
    obtain ⟨rest, hgrouped⟩ := List.head?_eq_some_iff.mp hfirst
    rw [show grouped s.effects path = first :: rest from hgrouped]
    exact ⟨_, rfl, rfl, rfl⟩
  | some item =>
    have hmem : item ∈ grouped s.effects path := (List.mem_filter.mp (List.mem_of_getLast? hlast)).1
    obtain ⟨found, hfound⟩ := Option.ne_none_iff_exists'.mp (journal_of_occurrence hmem).2
    simp only [Option.map_some, frontier_at, effect_index, hfound]
    exact ⟨_, rfl, rfl, rfl⟩

/-- While a record rolls back, every planned path has its reverse frontier. -/
theorem reconstruct_frontiers_eq (hrolling : s.transaction_state = .ROLLING_BACK) :
    ∃ frontiers, reconstruct_frontiers s = .ok frontiers ∧ frontiers.map PathFrontier.path = s.compiled.paths ∧
      ∀ path ∈ s.compiled.paths, ∃ frontier, variants.frontier_of frontiers path = some frontier ∧
        expected_at s.effects s.states path = some frontier.expected_state := by
  have hfrontier (path : RelPath) : ∃ frontier, path ∈ s.compiled.paths → reverse_frontier s.effects path
      ((grouped s.effects path).map fun item => (item, state_at s.states item.effect_index)) = .ok frontier ∧
        frontier.path = path ∧ expected_at s.effects s.states path = some frontier.expected_state := by
    by_cases hpath : path ∈ s.compiled.paths
    · obtain ⟨frontier, h⟩ := reverse_frontier_eq hpath
      exact ⟨frontier, fun _ => h⟩
    · exact ⟨⟨path, .INITIAL, none, none, none, ABSENT, []⟩, fun h => absurd h hpath⟩
  choose frontier hfrontier using hfrontier
  have hids : require_snapshot s = .ok () := by simp [require_snapshot, s.journal_ids]
  have hmap : reconstruct_frontiers s = .ok (s.compiled.timelines.map fun timeline => frontier timeline.path) := by
    unfold reconstruct_frontiers
    rw [hids, ok_bind]
    apply mapM_eq_ok_of_forall
    intro timeline htimeline
    obtain ⟨hpath, hocc⟩ := s.compiled.mem_timelines_iff.mp htimeline
    rw [show timeline.occurrences = grouped s.effects timeline.path from hocc, occurrence_states_eq, ok_bind,
      if_pos hrolling]
    exact (hfrontier _ hpath).1
  have hpaths : (s.compiled.timelines.map fun timeline => frontier timeline.path).map PathFrontier.path =
      s.compiled.paths := by
    rw [List.map_map]
    apply List.map_congr_left
    intro timeline htimeline
    exact (hfrontier _ (s.compiled.mem_timelines_iff.mp htimeline).1).2.1
  refine ⟨_, hmap, hpaths, fun path hpath => ⟨frontier path, ?_, (hfrontier path hpath).2.2⟩⟩
  obtain ⟨timeline, htimeline, rfl⟩ := List.mem_map.mp hpath
  have hmem : frontier timeline.path ∈ s.compiled.timelines.map fun timeline => frontier timeline.path :=
    List.mem_map_of_mem htimeline
  have hfind := find_key_of_mem (hpaths ▸ s.compiled.paths_nodup) hmem
  rwa [(hfrontier _ hpath).2.1] at hfind

end journal

end atoms.recovery
