import Atoms.Recovery.Variants.View

open atoms.errors atoms.fingerprint atoms.effects atoms.compiler checked keyed

namespace atoms.recovery

/-- What a step of a decision leaves at its effect's names. -/
def step_view : RecoveryStep → EffectView → EffectView
  | .TransformEffectTuple step, _ => step.result_after.view
  | .RemoveScratch step, _ => step.result_after.view
  | _, v => v

/-- What the steps of a decision leave at its effect's names. -/
def steps_view (steps : List RecoveryStep) (v : EffectView) : EffectView :=
  steps.foldl (fun v step => step_view step v) v

@[simp] theorem steps_view_nil (v : EffectView) : steps_view [] v = v := rfl

@[simp] theorem steps_view_cons (step : RecoveryStep) (steps : List RecoveryStep) (v : EffectView) :
    steps_view (step :: steps) v = steps_view steps (step_view step v) := rfl

theorem steps_view_append (steps rest : List RecoveryStep) (v : EffectView) :
    steps_view (steps ++ rest) v = steps_view rest (steps_view steps v) := List.foldl_append

/-- The step speaks about the names of `effect` and no others. -/
def confined (effect : Effect) : RecoveryStep → Prop
  | .TransformEffectTuple step => step.effect_id = effect.effect_id ∧ step.result_after.Covers effect
  | .RemoveScratch step => step.effect_id = effect.effect_id ∧ step.result_after.Covers effect
  | .PreserveExternal _ => True
  | _ => False

/-- Every path of the effect is at the state that the effect starts from. -/
def AtPre (effect : Effect) (v : EffectView) : Prop :=
  v.persistent.map ObservedEntry.state? = (occurrences effect).map fun occurrence => some occurrence.pre

/-- The entry has a state that the effect declares. -/
def Declared (effect : Effect) (entry : ObservedEntry) : Prop :=
  ∃ occurrence ∈ occurrences effect, entry.state? = some occurrence.pre ∨ entry.state? = some occurrence.post

/-- The entry is a directory without group and other permission bits and without children. -/
def EmptyScaffold (effect : Effect) (observed : JointObservation) : Prop :=
  variants.is_directory_scaffold observed.scratch_entry = true ∧
    variants.directory_is_empty observed (scratch_node effect) observed.scratch_entry = true

/-- What a removal may take from an effect's scratch. -/
def Removable (effect : Effect) (observed : JointObservation) : Prop :=
  Declared effect observed.scratch_entry ∨ observed.scratch_relation = some .STRICT_PREFIX ∨
    EmptyScaffold effect observed

namespace variants

/-- What an action on an effect in flight does at the effect's names. -/
inductive Settlement (effect : Effect) (observed : JointObservation) : EffectDecision → Prop
  /-- The paths are as the effect found them and no scratch is left. -/
  | nothing (kind : EffectDecisionKind) (hpre : AtPre effect observed.view)
      (hscratch : observed.scratch_entry = .ObservedAbsent) :
      Settlement effect observed (decision kind observed [])
  /-- The paths are as the effect found them and its scratch goes. -/
  | removed (kind : EffectDecisionKind) (hpre : AtPre effect observed.view) (hremovable : Removable effect observed) :
      Settlement effect observed (remove_decision kind effect observed)
  /-- The paths are put back and what that leaves in scratch goes. -/
  | restored (kind : EffectDecisionKind) (entries : List ObservedEntry) (scratch : ObservedEntry)
      (settlement : SettlementKind) (relations : List DiagnosticIdentityRelation)
      (hlength : entries.length = (effect_paths effect).length) (hpre : AtPre effect ⟨entries, scratch⟩)
      (hlive : ∀ entry ∈ observed.view.persistent, entry = .ObservedAbsent ∨ Declared effect entry)
      (hscratch : Declared effect scratch)
      (hkept : observed.scratch_entry = .ObservedAbsent ∨ Declared effect observed.scratch_entry) :
      Settlement effect observed
        (transform_decision kind effect observed (transform effect observed entries scratch settlement relations))
  /-- The paths are put back and no scratch is left. -/
  | restored_clean (kind : EffectDecisionKind) (entries : List ObservedEntry) (settlement : SettlementKind)
      (relations : List DiagnosticIdentityRelation) (hlength : entries.length = (effect_paths effect).length)
      (hpre : AtPre effect ⟨entries, OBSERVED_ABSENT⟩)
      (hlive : ∀ entry ∈ observed.view.persistent, entry = .ObservedAbsent ∨ Declared effect entry)
      (hkept : observed.scratch_entry = .ObservedAbsent ∨ Declared effect observed.scratch_entry) :
      Settlement effect observed (decision kind observed
        [.TransformEffectTuple (transform effect observed entries OBSERVED_ABSENT settlement relations)])
  /-- A directory under both its names loses the work name first. -/
  | dual (e : CreateDirectory) (heffect : effect = .CreateDirectory e)
      (hlive : Declared effect (observed.persistent_entry 0)) (hremovable : Removable effect observed) :
      Settlement effect observed (decision .REMOVE_DUAL_NAME_DIRECTORY observed
        [.RemoveScratch (remove_scratch effect observed),
          .TransformEffectTuple (remove_live_directory_step e (remove_scratch effect observed).result_after
            [⟨"live", "work", .SAME⟩])])
  /-- A foreign staging file is exchanged into its place and the engine's own file goes. -/
  | exchanged (e : ReplaceFile) (heffect : effect = .ReplaceFile e)
      (hlive : Declared effect (observed.persistent_entry 0)) :
      Settlement effect observed (replace_exchange e observed true)
  /-- A foreign entry stays where it is. -/
  | kept (kind : EffectDecisionKind) (nodes : List TopologyNode) (hscratch : observed.scratch_entry = .ObservedAbsent) :
      Settlement effect observed (refused_decision kind observed [.PreserveExternal (preserve nodes)])
  /-- A foreign entry stays where it is and the effect's scratch goes. -/
  | kept_removed (kind : EffectDecisionKind) (nodes : List TopologyNode) (hremovable : Removable effect observed) :
      Settlement effect observed (refused_decision kind observed
        [.PreserveExternal (preserve nodes), .RemoveScratch (remove_scratch effect observed)])

section

variable {effect : Effect} {observed : JointObservation}

theorem Covers.scratch_eq (h : observed.Covers effect) : ∃ item, observed.scratch = [item] ∧
    item.key = scratch_key effect ∧ observed.scratch_entry = item.entry ∧
      observed.scratch_relation = item.file_build_relation := by
  obtain ⟨item, hscratch, hkey⟩ := h.scratch
  exact ⟨item, hscratch, hkey, by simp [JointObservation.scratch_entry, hscratch],
    by simp [JointObservation.scratch_relation, hscratch]⟩

/-- The view of an effect of one path. -/
theorem view_single {path : RelPath} (hpaths : effect_paths effect = [path]) (h : observed.Covers effect) :
    observed.view = ⟨[observed.persistent_entry 0], observed.scratch_entry⟩ := by
  have hlist := h.paths
  rw [hpaths, List.map_eq_singleton_iff] at hlist
  obtain ⟨item, hitem, -⟩ := hlist
  simp [JointObservation.view, JointObservation.persistent_entry, hitem]

/-- The view of a move. -/
theorem view_double {source destination : RelPath} (hpaths : effect_paths effect = [source, destination])
    (h : observed.Covers effect) :
    observed.view = ⟨[observed.persistent_entry 0, observed.persistent_entry 1], observed.scratch_entry⟩ := by
  have hlist := h.paths
  simp only [hpaths, List.map_eq_cons_iff, List.map_eq_nil_iff] at hlist
  obtain ⟨item, _, hitem, -, other, _, rfl, -, rfl⟩ := hlist
  simp [JointObservation.view, JointObservation.persistent_entry, hitem]

theorem replace_persistent_names {entries : List ObservedEntry} (hlength : observed.persistent.length = entries.length) :
    (replace_persistent observed entries).map PersistentObservation.path =
        observed.persistent.map PersistentObservation.path ∧
      (replace_persistent observed entries).map PersistentObservation.entry = entries := by
  constructor
  · apply List.ext_getElem
    · simp [replace_persistent, hlength]
    · intro i _ _
      simp [replace_persistent]
  · apply List.ext_getElem
    · simp [replace_persistent, hlength]
    · intro i _ _
      simp [replace_persistent]

/-- A transformation covers the names of its effect and leaves there what it is given. -/
theorem transform_covers (h : observed.Covers effect) {entries : List ObservedEntry}
    (hlength : entries.length = (effect_paths effect).length) (scratch : ObservedEntry) (settlement : SettlementKind)
    (relations : List DiagnosticIdentityRelation) :
    (transform effect observed entries scratch settlement relations).result_after.Covers effect ∧
      (transform effect observed entries scratch settlement relations).result_after.view = ⟨entries, scratch⟩ := by
  obtain ⟨item, hscratch, hkey⟩ := h.scratch
  have hcount : observed.persistent.length = entries.length := by
    rw [hlength, ← h.paths, List.length_map]
  have hnames := replace_persistent_names hcount
  refine ⟨⟨hnames.1.trans h.paths, ⟨item.effect_id, item.role, scratch, none⟩, ?_, hkey⟩, ?_⟩
  · simp [transform, replace_scratch, hscratch]
  · simp [transform, JointObservation.view, JointObservation.scratch_entry, replace_scratch, hscratch, hnames.2]

/-- A removal covers the names of its effect and leaves its paths as they are. -/
theorem remove_scratch_covers (h : observed.Covers effect) :
    (remove_scratch effect observed).result_after.Covers effect ∧
      (remove_scratch effect observed).result_after.view = ⟨observed.view.persistent, OBSERVED_ABSENT⟩ := by
  obtain ⟨item, hscratch, hkey⟩ := h.scratch
  refine ⟨⟨h.paths, ⟨item.effect_id, item.role, OBSERVED_ABSENT, none⟩, ?_, hkey⟩, ?_⟩
  · simp [remove_scratch, replace_scratch, hscratch]
  · simp [remove_scratch, JointObservation.view, JointObservation.scratch_entry, replace_scratch, hscratch]

end

/-! One lemma for each table. -/

theorem replace_settlement {e : ReplaceFile} {observed : JointObservation} {journal : JournalState} {d : EffectDecision}
    (hcovers : observed.Covers (.ReplaceFile e)) (hd : effect_cell .UNCOMMITTED journal (.ReplaceFile e) observed = d)
    (h : d.halt_reason = none) : Settlement (.ReplaceFile e) observed d := by
  have hview := view_single rfl hcovers
  simp only [effect_cell] at hd
  split at hd
  · unfold noop_replace_cell at hd
    dsimp only at hd
    split at hd
    · subst hd
      simp [halt] at h
    · rename_i hsame hlive
      simp only [not_not] at hlive
      have hpre : AtPre (.ReplaceFile e) observed.view := by simp [AtPre, hview, occurrences, hlive.2]
      have hsame_removable : observed.scratch_entry.state? = some (e.pre : PathState) →
          Removable (.ReplaceFile e) observed := fun h => .inl ⟨_, List.mem_singleton_self _, .inl h⟩
      cases journal <;> dsimp only at hd
      case STARTED =>
        split at hd
        · rename_i habsent
          subst hd
          exact .nothing _ hpre (by simpa using habsent)
        · split at hd <;> subst hd
          · rename_i hown
            refine .removed _ hpre ?_
            rcases hown with hbuilding | hown
            · exact .inr (.inl hbuilding)
            · exact hsame_removable hown.2
          · simp [halt] at h
      case DONE =>
        split at hd <;> subst hd
        · rename_i hown
          exact .removed _ hpre (hsame_removable hown.2)
        · simp [halt] at h
      case UNDO_STARTED =>
        split at hd
        · rename_i hown
          subst hd
          exact .removed _ hpre (hsame_removable hown.2)
        · split at hd <;> subst hd
          · rename_i habsent
            exact .nothing _ hpre (by simpa using habsent)
          · simp [halt] at h
      all_goals
        subst hd
        simp [halt] at h
  · have hpre (hclass : entry_class (observed.persistent_entry 0) e.pre e.post none = .PRE) :
        AtPre (.ReplaceFile e) observed.view := by
      simp [AtPre, hview, occurrences, (entry_class_eq_pre_iff.mp hclass).2]
    have hlive_post (hclass : entry_class (observed.persistent_entry 0) e.pre e.post none = .POST) :
        Declared (.ReplaceFile e) (observed.persistent_entry 0) :=
      ⟨_, List.mem_singleton_self _, .inr (entry_class_eq_post_iff.mp hclass).2.2⟩
    have hstaging (c : EntryClass) (hc : c = .PRE ∨ c = .POST)
        (hclass : entry_class observed.scratch_entry e.pre e.post observed.scratch_relation = c) :
        Declared (.ReplaceFile e) observed.scratch_entry := by
      refine ⟨_, List.mem_singleton_self _, ?_⟩
      rcases hc with rfl | rfl
      · exact .inl (entry_class_eq_pre_iff.mp hclass).2
      · exact .inr (entry_class_eq_post_iff.mp hclass).2.2
    -- the exchange puts the staging file back and takes the engine's own file away
    have hexchange (hlive : entry_class (observed.persistent_entry 0) e.pre e.post none = .POST)
        (hclass : entry_class observed.scratch_entry e.pre e.post observed.scratch_relation = .PRE) :
        Settlement (.ReplaceFile e) observed (replace_exchange e observed false) := by
      refine .restored _ [observed.scratch_entry] _ _ _ rfl ?_ ?_ (hlive_post hlive) (.inr (hstaging _ (.inl rfl) hclass))
      · simp [AtPre, occurrences, (entry_class_eq_pre_iff.mp hclass).2]
      · simp [hview, hlive_post hlive]
    generalize hl : entry_class (observed.persistent_entry 0) e.pre e.post none = live_class at hd
    generalize hs : entry_class observed.scratch_entry e.pre e.post observed.scratch_relation = staging_class at hd
    unfold replace_cell at hd
    split at hd <;> subst hd
    case h_3 => exact .nothing _ (hpre hl) (entry_class_eq_absent_iff.mp hs)
    case h_4 => exact .removed _ (hpre hl) (.inr (.inl (entry_class_eq_prefix_iff.mp hs).2.2.2))
    case h_5 => exact .removed _ (hpre hl) (.inl (hstaging _ (.inr rfl) hs))
    case h_6 => exact hexchange hl hs
    case h_7 => exact .exchanged e rfl (hlive_post hl)
    case h_8 => exact hexchange hl hs
    case h_9 => exact hexchange hl hs
    case h_10 => exact .removed _ (hpre hl) (.inl (hstaging _ (.inr rfl) hs))
    case h_11 => exact .nothing _ (hpre hl) (entry_class_eq_absent_iff.mp hs)
    case h_12 => simp [halt] at h
    all_goals contradiction

theorem create_file_settlement {e : CreateFileNoClobber} {observed : JointObservation} {journal : JournalState}
    {d : EffectDecision} (hcovers : observed.Covers (.CreateFileNoClobber e))
    (hd : effect_cell .UNCOMMITTED journal (.CreateFileNoClobber e) observed = d) (h : d.halt_reason = none) :
    Settlement (.CreateFileNoClobber e) observed d := by
  have hview := view_single rfl hcovers
  simp only [effect_cell] at hd
  have hpre (hclass : entry_class (observed.persistent_entry 0) ABSENT e.post none = .ABSENT) :
      AtPre (.CreateFileNoClobber e) observed.view := by
    have hentry := entry_class_eq_absent_iff.mp hclass
    simp [AtPre, hview, occurrences, hentry]
  have hpost {entry : ObservedEntry} {relation : Option FileBuildRelation}
      (hclass : entry_class entry ABSENT e.post relation = .POST) : Declared (.CreateFileNoClobber e) entry :=
    ⟨_, List.mem_singleton_self _, .inr (entry_class_eq_post_iff.mp hclass).2.2⟩
  have hbuilding (hclass : entry_class observed.scratch_entry ABSENT e.post observed.scratch_relation = .PREFIX) :
      Removable (.CreateFileNoClobber e) observed := .inr (.inl (entry_class_eq_prefix_iff.mp hclass).2.2.2)
  have hremove (hlive : entry_class (observed.persistent_entry 0) ABSENT e.post none = .POST)
      (hclass : entry_class observed.scratch_entry ABSENT e.post observed.scratch_relation = .ABSENT) :
      Settlement (.CreateFileNoClobber e) observed (remove_live_creation e observed) := by
    refine .restored _ [OBSERVED_ABSENT] _ _ _ rfl rfl ?_ (hpost hlive) (.inl (entry_class_eq_absent_iff.mp hclass))
    simp [hview, hpost hlive]
  generalize hl : entry_class (observed.persistent_entry 0) ABSENT e.post none = live_class at hd
  generalize hs : entry_class observed.scratch_entry ABSENT e.post observed.scratch_relation = staging_class at hd
  unfold create_file_cell at hd
  split at hd <;> subst hd
  case h_2 => exact .nothing _ (hpre hl) (entry_class_eq_absent_iff.mp hs)
  case h_3 => exact .removed _ (hpre hl) (hbuilding hs)
  case h_4 => exact .removed _ (hpre hl) (.inl (hpost hs))
  case h_5 => exact hremove hl hs
  case h_6 => exact .kept_removed _ _ (hbuilding hs)
  case h_7 => exact .kept_removed _ _ (.inl (hpost hs))
  case h_8 => exact .kept _ _ (entry_class_eq_absent_iff.mp hs)
  case h_9 => exact .kept_removed _ _ (hbuilding hs)
  case h_10 => exact .kept_removed _ _ (.inl (hpost hs))
  case h_11 => exact hremove hl hs
  case h_12 => exact hremove hl hs
  case h_13 => exact .removed _ (hpre hl) (.inl (hpost hs))
  case h_14 => exact .nothing _ (hpre hl) (entry_class_eq_absent_iff.mp hs)
  case h_15 => simp [halt] at h
  all_goals contradiction

theorem delete_settlement {e : DeletePath} {observed : JointObservation} {journal : JournalState}
    {d : EffectDecision} (hcovers : observed.Covers (.DeletePath e))
    (hd : effect_cell .UNCOMMITTED journal (.DeletePath e) observed = d) (h : d.halt_reason = none) :
    Settlement (.DeletePath e) observed d := by
  have hview := view_single rfl hcovers
  simp only [effect_cell] at hd
  have hpre (hclass : entry_class (observed.persistent_entry 0) e.pre.state ABSENT none = .PRE) :
      AtPre (.DeletePath e) observed.view := by
    simp [AtPre, hview, occurrences, (entry_class_eq_pre_iff.mp hclass).2]
  have hrestore (hlive : entry_class (observed.persistent_entry 0) e.pre.state ABSENT none = .ABSENT)
      (hclass : entry_class observed.scratch_entry e.pre.state ABSENT none = .PRE) :
      Settlement (.DeletePath e) observed (restore_tombstone e observed) := by
    have htombstone := (entry_class_eq_pre_iff.mp hclass).2
    refine .restored_clean _ [observed.scratch_entry] _ _ rfl ?_ ?_ (.inr ⟨_, List.mem_singleton_self _, .inl htombstone⟩)
    · simp [AtPre, occurrences, htombstone]
    · simp [hview, entry_class_eq_absent_iff.mp hlive]
  generalize hl : entry_class (observed.persistent_entry 0) e.pre.state ABSENT none = live_class at hd
  generalize hs : entry_class observed.scratch_entry e.pre.state ABSENT none = tombstone_class at hd
  unfold delete_cell at hd
  split at hd <;> subst hd
  case h_3 => exact .nothing _ (hpre hl) (entry_class_eq_absent_iff.mp hs)
  case h_4 => exact hrestore hl hs
  case h_5 => exact hrestore hl hs
  case h_6 => exact hrestore hl hs
  case h_7 => exact .nothing _ (hpre hl) (entry_class_eq_absent_iff.mp hs)
  case h_8 => simp [halt] at h
  all_goals contradiction

theorem move_settlement {e : MoveNoClobber} {observed : JointObservation} {journal : JournalState}
    {d : EffectDecision} (hcovers : observed.Covers (.MoveNoClobber e))
    (hd : effect_cell .UNCOMMITTED journal (.MoveNoClobber e) observed = d) (h : d.halt_reason = none) :
    Settlement (.MoveNoClobber e) observed d := by
  have hview := view_double rfl hcovers
  simp only [effect_cell] at hd
  have hclass_pre {entry : ObservedEntry} (hclass : entry_class entry e.source_pre e.source_pre none = .PRE) :
      entry.state? = some (e.source_pre : PathState) := (entry_class_eq_pre_iff.mp hclass).2
  have hdeclared {entry : ObservedEntry} (hclass : entry_class entry e.source_pre e.source_pre none = .PRE) :
      Declared (.MoveNoClobber e) entry := ⟨_, List.mem_cons_self, .inl (hclass_pre hclass)⟩
  have hkept {entry : ObservedEntry} {c : EntryClass} (hc : c = .ABSENT ∨ c = .PRE)
      (hclass : entry_class entry e.source_pre e.source_pre none = c) :
      entry = .ObservedAbsent ∨ Declared (.MoveNoClobber e) entry := by
    rcases hc with rfl | rfl
    · exact .inl (entry_class_eq_absent_iff.mp hclass)
    · exact .inr (hdeclared hclass)
  have hpre (hsource : entry_class (observed.persistent_entry 0) e.source_pre e.source_pre none = .PRE)
      (hdestination : entry_class (observed.persistent_entry 1) e.source_pre e.source_pre none = .ABSENT) :
      AtPre (.MoveNoClobber e) observed.view := by
    have habsent := entry_class_eq_absent_iff.mp hdestination
    simp [AtPre, hview, occurrences, hclass_pre hsource, habsent]
  -- every repair leaves the moved file at its source, the destination empty and a declared file in the anchor
  have hrepair (entry : ObservedEntry) (kind : EffectDecisionKind) (settlement : SettlementKind)
      (relations : List DiagnosticIdentityRelation) {c c' : EntryClass} (hc : c = .ABSENT ∨ c = .PRE)
      (hc' : c' = .ABSENT ∨ c' = .PRE)
      (hsource : entry_class (observed.persistent_entry 0) e.source_pre e.source_pre none = c)
      (hdestination : entry_class (observed.persistent_entry 1) e.source_pre e.source_pre none = c')
      (hanchor : entry_class observed.scratch_entry e.source_pre e.source_pre none = .PRE)
      (hentry : entry_class entry e.source_pre e.source_pre none = .PRE) :
      Settlement (.MoveNoClobber e) observed (transform_decision kind (.MoveNoClobber e) observed
        (transform (.MoveNoClobber e) observed [entry, OBSERVED_ABSENT] observed.scratch_entry settlement relations)) := by
    refine .restored _ _ _ _ _ rfl ?_ ?_ (hdeclared hanchor) (.inr (hdeclared hanchor))
    · simp [AtPre, occurrences, hclass_pre hentry, OBSERVED_ABSENT]
    · intro item hmem
      simp only [hview, List.mem_cons, List.not_mem_nil, or_false] at hmem
      rcases hmem with rfl | rfl
      · exact hkept hc hsource
      · exact hkept hc' hdestination
  generalize hs : entry_class (observed.persistent_entry 0) e.source_pre e.source_pre none = source_class at hd
  generalize ht : entry_class (observed.persistent_entry 1) e.source_pre e.source_pre none = destination_class at hd
  generalize ha : entry_class observed.scratch_entry e.source_pre e.source_pre none = anchor_class at hd
  have hundo (hd : move_undo_cell journal e observed source_class destination_class anchor_class
      (same_identity (observed.persistent_entry 0) observed.scratch_entry)
      (same_identity (observed.persistent_entry 1) observed.scratch_entry) = d) :
      Settlement (.MoveNoClobber e) observed d := by
    unfold move_undo_cell at hd
    split at hd
    case h_1 =>
      subst hd
      exact .nothing _ (hpre hs ht) (entry_class_eq_absent_iff.mp ha)
    case h_2 =>
      split at hd <;> subst hd
      · exact .removed _ (hpre hs ht) (.inl (hdeclared ha))
      · simp [halt] at h
    case h_3 =>
      split at hd <;> subst hd
      · exact hrepair _ _ _ _ (.inl rfl) (.inr rfl) hs ht ha ht
      · simp [halt] at h
    case h_4 =>
      split at hd <;> subst hd
      · exact hrepair _ _ _ _ (.inr rfl) (.inr rfl) hs ht ha hs
      · simp [halt] at h
    case h_5 =>
      subst hd
      exact hrepair _ _ _ _ (.inl rfl) (.inl rfl) hs ht ha ha
    case h_6 =>
      split at hd <;> subst hd
      · exact .kept_removed _ _ (.inl (hdeclared ha))
      · simp [halt] at h
    case h_7 =>
      subst hd
      simp [halt] at h
  unfold move_cell at hd
  split at hd
  case h_2 =>
    split at hd <;> subst hd
    · rename_i hclasses
      obtain ⟨rfl, rfl, rfl, -⟩ := hclasses
      exact hrepair _ _ _ _ (.inl rfl) (.inr rfl) hs ht ha ht
    · simp [halt] at h
  case h_3 => exact hundo hd
  case h_4 => exact hundo hd
  case h_5 =>
    subst hd
    simp [halt] at h
  all_goals contradiction

theorem directory_settlement {e : CreateDirectory} {observed : JointObservation} {journal : JournalState}
    {d : EffectDecision} (hcovers : observed.Covers (.CreateDirectory e))
    (hd : effect_cell .UNCOMMITTED journal (.CreateDirectory e) observed = d) (h : d.halt_reason = none) :
    Settlement (.CreateDirectory e) observed d := by
  have hview := view_single rfl hcovers
  simp only [effect_cell] at hd
  generalize hl : entry_class (observed.persistent_entry 0) ABSENT e.post none = live_class at hd
  generalize hw : entry_class observed.scratch_entry ABSENT e.post none = work_class at hd
  have hpre (hclass : live_class = .ABSENT) : AtPre (.CreateDirectory e) observed.view := by
    have habsent := entry_class_eq_absent_iff.mp (hl.trans hclass)
    simp [AtPre, hview, occurrences, habsent]
  have hdeclared (hclass : live_class = .POST) : Declared (.CreateDirectory e) (observed.persistent_entry 0) :=
    ⟨_, List.mem_singleton_self _, .inr (entry_class_eq_post_iff.mp (hl.trans hclass)).2.2⟩
  -- an attributable work directory that is empty may go
  have hremovable (hwork : (work_class = .POST || is_directory_scaffold observed.scratch_entry) = true)
      (hempty : directory_is_empty observed (scratch_node (.CreateDirectory e)) observed.scratch_entry = true) :
      Removable (.CreateDirectory e) observed := by
    rw [Bool.or_eq_true, decide_eq_true_eq] at hwork
    rcases hwork with hpost | hscaffold
    · exact .inl ⟨_, List.mem_singleton_self _, .inr (entry_class_eq_post_iff.mp (hw.trans hpost)).2.2⟩
    · exact .inr (.inr ⟨hscaffold, hempty⟩)
  have hlive_removed (hpost : live_class = .POST) (hwork : work_class = .ABSENT) :
      Settlement (.CreateDirectory e) observed (remove_live_directory e observed) := by
    refine .restored_clean _ [OBSERVED_ABSENT] _ _ rfl rfl ?_ (.inl (entry_class_eq_absent_iff.mp (hw.trans hwork)))
    simp [hview, hdeclared hpost]
  have hundo (hd : directory_undo_cell journal e observed live_class work_class
      (work_class = .POST || is_directory_scaffold observed.scratch_entry)
      (same_identity (observed.persistent_entry 0) observed.scratch_entry) = d) :
      Settlement (.CreateDirectory e) observed d := by
    unfold directory_undo_cell at hd
    dsimp only at hd
    split at hd
    · rename_i hclasses
      subst hd
      exact .nothing _ (hpre hclasses.1) (entry_class_eq_absent_iff.mp (hw.trans hclasses.2))
    unfold if_empty at hd
    split at hd
    · rename_i hclasses
      split at hd <;> subst hd
      · rename_i hempty
        exact .removed _ (hpre hclasses.1) (hremovable hclasses.2 hempty)
      · simp [halt] at h
    split at hd
    · rename_i hclasses
      split at hd <;> subst hd
      · exact hlive_removed hclasses.1 hclasses.2
      · simp [halt] at h
    split at hd
    · rename_i hclasses
      split at hd <;> subst hd
      · rename_i hempty
        rw [Bool.and_eq_true] at hempty
        exact .dual e rfl (hdeclared hclasses.1) (hremovable hclasses.2.1 hempty.2)
      · simp [halt] at h
    split at hd
    · rename_i hclasses
      split at hd <;> subst hd
      · rename_i hempty
        exact .kept_removed _ _ (hremovable hclasses.2.1 hempty)
      · simp [halt] at h
    · subst hd
      simp [halt] at h
  unfold directory_cell at hd
  split at hd
  case h_2 =>
    split at hd
    · rename_i hclasses
      unfold if_empty at hd
      split at hd <;> subst hd
      · exact hlive_removed hclasses.1 hclasses.2
      · simp [halt] at h
    · subst hd
      simp [halt] at h
  case h_3 => exact hundo hd
  case h_4 => exact hundo hd
  case h_5 =>
    subst hd
    simp [halt] at h
  all_goals contradiction

/-- Every action that a table takes on an effect in flight is one of the settlements. -/
theorem effect_cell_settlement {effect : Effect} {observed : JointObservation} {journal : JournalState}
    {d : EffectDecision} (hcovers : observed.Covers effect) (hd : effect_cell .UNCOMMITTED journal effect observed = d)
    (h : d.halt_reason = none) : Settlement effect observed d := by
  cases effect with
  | ReplaceFile e => exact replace_settlement hcovers hd h
  | CreateFileNoClobber e => exact create_file_settlement hcovers hd h
  | DeletePath e => exact delete_settlement hcovers hd h
  | MoveNoClobber e => exact move_settlement hcovers hd h
  | CreateDirectory e => exact directory_settlement hcovers hd h

/-! What every settlement does. -/

section

variable {effect : Effect} {observed : JointObservation} {d : EffectDecision}

theorem Settlement.steps_confined (hsettlement : Settlement effect observed d) (hcovers : observed.Covers effect) :
    ∀ step ∈ d.steps, confined effect step := by
  have hremove := (remove_scratch_covers hcovers).1
  cases hsettlement with
  | nothing kind => simp [decision]
  | removed kind => simpa [remove_decision, decision, confined, remove_scratch] using hremove
  | restored kind entries scratch settlement relations hlength =>
    have htransform := (transform_covers hcovers hlength scratch settlement relations).1
    have hafter := (remove_scratch_covers htransform).1
    simp only [transform_decision, decision, List.mem_cons, List.not_mem_nil, or_false, forall_eq_or_imp, forall_eq]
    exact ⟨⟨rfl, htransform⟩, rfl, hafter⟩
  | restored_clean kind entries settlement relations hlength =>
    have htransform := (transform_covers hcovers hlength OBSERVED_ABSENT settlement relations).1
    simp only [decision, List.mem_singleton, forall_eq]
    exact ⟨rfl, htransform⟩
  | dual e heffect =>
    subst heffect
    have htransform := (transform_covers hremove (rfl : [OBSERVED_ABSENT].length = 1) OBSERVED_ABSENT
      .REMOVE_ATTRIBUTABLE_CREATION [⟨"live", "work", .SAME⟩]).1
    simp only [decision, List.mem_cons, List.not_mem_nil, or_false, forall_eq_or_imp, forall_eq]
    exact ⟨⟨rfl, hremove⟩, rfl, htransform⟩
  | exchanged e heffect =>
    subst heffect
    have htransform := (transform_covers hcovers (rfl : [observed.scratch_entry].length = 1) (observed.persistent_entry 0)
      .RESTORE_PRE []).1
    have hafter := (remove_scratch_covers htransform).1
    simp only [replace_exchange, if_true, refused_decision, List.mem_cons, List.not_mem_nil, or_false,
      forall_eq_or_imp, forall_eq]
    exact ⟨⟨rfl, htransform⟩, trivial, rfl, hafter⟩
  | kept kind nodes => simp [refused_decision, confined]
  | kept_removed kind nodes =>
    simp only [refused_decision, List.mem_cons, List.not_mem_nil, or_false, forall_eq_or_imp, forall_eq]
    exact ⟨trivial, rfl, hremove⟩

/-- A settled effect has no scratch left, and unless it kept a foreign entry its
paths are as it found them. -/
theorem Settlement.settles (hsettlement : Settlement effect observed d) (hcovers : observed.Covers effect) :
    (steps_view d.steps observed.view).scratch = OBSERVED_ABSENT ∧
      (d.refused = false → AtPre effect (steps_view d.steps observed.view)) := by
  have hremove := (remove_scratch_covers hcovers).2
  have hscratch : observed.view.scratch = observed.scratch_entry := rfl
  cases hsettlement with
  | nothing kind hpre habsent => exact ⟨habsent, fun _ => hpre⟩
  | removed kind hpre => simpa [remove_decision, decision, step_view, hremove, AtPre] using hpre
  | restored kind entries scratch settlement relations hlength hpre =>
    have htransform := transform_covers hcovers hlength scratch settlement relations
    have hafter := (remove_scratch_covers htransform.1).2
    simp only [transform_decision, decision, steps_view_cons, steps_view_nil, step_view, remove_after_transform, hafter,
      htransform.2]
    exact ⟨trivial, fun _ => hpre⟩
  | restored_clean kind entries settlement relations hlength hpre =>
    have htransform := (transform_covers hcovers hlength OBSERVED_ABSENT settlement relations).2
    simp only [decision, steps_view_cons, steps_view_nil, step_view, htransform]
    exact ⟨trivial, fun _ => hpre⟩
  | dual e heffect =>
    subst heffect
    have htransform := (transform_covers (remove_scratch_covers hcovers).1 (rfl : [OBSERVED_ABSENT].length = 1)
      OBSERVED_ABSENT .REMOVE_ATTRIBUTABLE_CREATION [⟨"live", "work", .SAME⟩]).2
    simp only [decision, steps_view_cons, steps_view_nil, step_view, remove_live_directory_step, htransform]
    exact ⟨trivial, fun _ => rfl⟩
  | exchanged e heffect =>
    subst heffect
    have htransform := transform_covers hcovers (rfl : [observed.scratch_entry].length = 1) (observed.persistent_entry 0)
      .RESTORE_PRE []
    have hafter := (remove_scratch_covers htransform.1).2
    simp only [replace_exchange, if_true, refused_decision, steps_view_cons, steps_view_nil, step_view,
      remove_after_transform, hafter]
    exact ⟨trivial, by simp⟩
  | kept kind nodes habsent => exact ⟨habsent, by simp [refused_decision]⟩
  | kept_removed kind nodes => simp [refused_decision, step_view, hremove]

/-- A step takes from the paths only entries that its effect declares, and from the
scratch only those, entries that it moves onto a path, and entries that may be removed. -/
structure Lawful (effect : Effect) (observed : JointObservation) (v v' : EffectView) : Prop where
  persistent : ∀ (i : Nat) (entry : ObservedEntry), v.persistent[i]? = some entry →
    v'.persistent[i]? ≠ some entry → entry = .ObservedAbsent ∨ Declared effect entry
  scratch : v'.scratch ≠ v.scratch → v.scratch = .ObservedAbsent ∨ Declared effect v.scratch ∨
    v.scratch ∈ v'.persistent ∨ v = observed.view ∧ Removable effect observed

theorem Lawful.refl (v : EffectView) : Lawful effect observed v v :=
  ⟨fun _ _ hentry hne => absurd hentry hne, fun hne => absurd rfl hne⟩

/-- Clearing a scratch whose entry is declared or removable is lawful. -/
theorem Lawful.cleared {v : EffectView} (h : Declared effect v.scratch ∨
    v = observed.view ∧ Removable effect observed) :
    Lawful effect observed v ⟨v.persistent, OBSERVED_ABSENT⟩ :=
  ⟨fun _ _ hentry hne => absurd hentry hne, fun _ => .inr (h.imp_right .inr)⟩

/-- Replacing entries that the effect declares is lawful. -/
theorem Lawful.replaced {v v' : EffectView} (hlive : ∀ entry ∈ v.persistent, entry = .ObservedAbsent ∨ Declared effect entry)
    (hkept : v.scratch = .ObservedAbsent ∨ Declared effect v.scratch ∨ v.scratch ∈ v'.persistent) :
    Lawful effect observed v v' :=
  ⟨fun _ entry hentry _ => hlive entry (List.mem_of_getElem? hentry), fun _ =>
    hkept.imp_right fun h => h.imp_right .inl⟩

theorem Settlement.lawful (hsettlement : Settlement effect observed d) (hcovers : observed.Covers effect) {k : Nat}
    {step : RecoveryStep} (hstep : d.steps[k]? = some step) :
    Lawful effect observed (steps_view (d.steps.take k) observed.view)
      (step_view step (steps_view (d.steps.take k) observed.view)) := by
  have hremove := remove_scratch_covers hcovers
  have hscratch : observed.view.scratch = observed.scratch_entry := rfl
  cases hsettlement with
  | nothing kind => simp [decision] at hstep
  | removed kind hpre hremovable =>
    rcases k with _ | k
    · simp only [remove_decision, decision, List.getElem?_cons_zero, Option.some.injEq] at hstep
      subst hstep
      simp only [List.take_zero, steps_view_nil, step_view, hremove.2]
      exact .cleared (.inr ⟨rfl, hremovable⟩)
    · simp [remove_decision, decision] at hstep
  | restored kind entries scratch settlement relations hlength hpre hlive hdeclared hkept =>
    have htransform := transform_covers hcovers hlength scratch settlement relations
    have hafter := (remove_scratch_covers htransform.1).2
    rcases k with _ | _ | k
    · simp only [transform_decision, decision, List.getElem?_cons_zero, Option.some.injEq] at hstep
      subst hstep
      simp only [List.take_zero, steps_view_nil, step_view, htransform.2]
      exact .replaced hlive (hkept.imp_right .inl)
    · simp only [transform_decision, decision, List.getElem?_cons_succ, List.getElem?_cons_zero, Option.some.injEq]
        at hstep
      subst hstep
      simp only [transform_decision, decision, List.take_succ_cons, List.take_zero, steps_view_cons, steps_view_nil,
        step_view, remove_after_transform, hafter, htransform.2]
      exact .cleared (.inl hdeclared)
    · simp [transform_decision, decision] at hstep
  | restored_clean kind entries settlement relations hlength hpre hlive hkept =>
    rcases k with _ | k
    · simp only [decision, List.getElem?_cons_zero, Option.some.injEq] at hstep
      subst hstep
      simp only [List.take_zero, steps_view_nil, step_view]
      exact .replaced hlive (hkept.imp_right .inl)
    · simp [decision] at hstep
  | dual e heffect hlive hremovable =>
    subst heffect
    have hview := view_single rfl hcovers
    rcases k with _ | _ | k
    · simp only [decision, List.getElem?_cons_zero, Option.some.injEq] at hstep
      subst hstep
      simp only [List.take_zero, steps_view_nil, step_view, hremove.2]
      exact .cleared (.inr ⟨rfl, hremovable⟩)
    · simp only [decision, List.getElem?_cons_succ, List.getElem?_cons_zero, Option.some.injEq] at hstep
      subst hstep
      simp only [decision, List.take_succ_cons, List.take_zero, steps_view_cons, steps_view_nil, step_view, hremove.2]
      refine .replaced ?_ (.inl rfl)
      simp [hview, hlive]
    · simp [decision] at hstep
  | exchanged e heffect hlive =>
    subst heffect
    have hview := view_single rfl hcovers
    have htransform := transform_covers hcovers (rfl : [observed.scratch_entry].length = 1) (observed.persistent_entry 0)
      .RESTORE_PRE []
    have hafter := (remove_scratch_covers htransform.1).2
    rcases k with _ | _ | _ | k
    · simp only [replace_exchange, if_true, refused_decision, List.getElem?_cons_zero, Option.some.injEq] at hstep
      subst hstep
      simp only [List.take_zero, steps_view_nil, step_view, htransform.2]
      refine .replaced ?_ (.inr (.inr (by simp [hview])))
      simp [hview, hlive]
    · simp only [replace_exchange, if_true, refused_decision, List.getElem?_cons_succ, List.getElem?_cons_zero,
        Option.some.injEq] at hstep
      subst hstep
      exact .refl _
    · simp only [replace_exchange, if_true, refused_decision, List.getElem?_cons_succ, List.getElem?_cons_zero,
        Option.some.injEq] at hstep
      subst hstep
      simp only [replace_exchange, if_true, refused_decision, List.take_succ_cons, List.take_zero, steps_view_cons,
        steps_view_nil, step_view, remove_after_transform, hafter, htransform.2]
      exact .cleared (.inl hlive)
    · simp [replace_exchange, refused_decision] at hstep
  | kept kind nodes =>
    rcases k with _ | k
    · simp only [refused_decision, List.getElem?_cons_zero, Option.some.injEq] at hstep
      subst hstep
      exact .refl _
    · simp [refused_decision] at hstep
  | kept_removed kind nodes hremovable =>
    rcases k with _ | _ | k
    · simp only [refused_decision, List.getElem?_cons_zero, Option.some.injEq] at hstep
      subst hstep
      exact .refl _
    · simp only [refused_decision, List.getElem?_cons_succ, List.getElem?_cons_zero, Option.some.injEq] at hstep
      subst hstep
      simp only [refused_decision, List.take_succ_cons, List.take_zero, steps_view_cons, steps_view_nil, step_view,
        hremove.2]
      exact .cleared (.inr ⟨rfl, hremovable⟩)
    · simp [refused_decision] at hstep

end

end variants

end atoms.recovery
