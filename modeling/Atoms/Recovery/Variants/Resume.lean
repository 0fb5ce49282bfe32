import Atoms.Recovery.Variants.Settlement

open atoms.errors atoms.fingerprint atoms.effects atoms.compiler checked keyed

namespace atoms.recovery

/-- The work entry of a creation is the engine's own: in the declared state, or a scaffold. -/
def EngineWork (e : CreateDirectory) (work : ObservedEntry) : Prop :=
  work.state? = some (e.post : PathState) ∨ variants.is_directory_scaffold work = true

/-- The tuples at an effect's names that only the engine's own work explains, with every staging file complete. -/
inductive Undoable : Effect → EffectView → Prop
  | replace_untouched {e : ReplaceFile} {live : ObservedEntry} (hlive : live.state? = some (e.pre : PathState)) :
      Undoable (.ReplaceFile e) ⟨[live], .ObservedAbsent⟩
  | replace_staged {e : ReplaceFile} {live staging : ObservedEntry} (hlive : live.state? = some (e.pre : PathState))
      (hstaging : staging.state? = some (e.post : PathState)) : Undoable (.ReplaceFile e) ⟨[live], staging⟩
  | replace_exchanged {e : ReplaceFile} {live staging : ObservedEntry} (hlive : live.state? = some (e.post : PathState))
      (hstaging : staging.state? = some (e.pre : PathState)) : Undoable (.ReplaceFile e) ⟨[live], staging⟩
  | create_untouched {e : CreateFileNoClobber} :
      Undoable (.CreateFileNoClobber e) ⟨[.ObservedAbsent], .ObservedAbsent⟩
  | create_staged {e : CreateFileNoClobber} {staging : ObservedEntry}
      (hstaging : staging.state? = some (e.post : PathState)) :
      Undoable (.CreateFileNoClobber e) ⟨[.ObservedAbsent], staging⟩
  | create_published {e : CreateFileNoClobber} {live : ObservedEntry} (hlive : live.state? = some (e.post : PathState)) :
      Undoable (.CreateFileNoClobber e) ⟨[live], .ObservedAbsent⟩
  | delete_untouched {e : DeletePath} {live : ObservedEntry} (hlive : live.state? = some e.pre.state) :
      Undoable (.DeletePath e) ⟨[live], .ObservedAbsent⟩
  | delete_taken {e : DeletePath} {tombstone : ObservedEntry} (htombstone : tombstone.state? = some e.pre.state) :
      Undoable (.DeletePath e) ⟨[.ObservedAbsent], tombstone⟩
  | move_untouched {e : MoveNoClobber} {source : ObservedEntry}
      (hsource : source.state? = some (e.source_pre : PathState)) :
      Undoable (.MoveNoClobber e) ⟨[source, .ObservedAbsent], .ObservedAbsent⟩
  | move_anchored {e : MoveNoClobber} {source anchor : ObservedEntry}
      (hsource : source.state? = some (e.source_pre : PathState)) (hanchor : anchor.state? = some (e.source_pre : PathState))
      (hsame : variants.same_identity source anchor = true) : Undoable (.MoveNoClobber e) ⟨[source, .ObservedAbsent], anchor⟩
  | move_published {e : MoveNoClobber} {destination anchor : ObservedEntry}
      (hdestination : destination.state? = some (e.source_pre : PathState))
      (hanchor : anchor.state? = some (e.source_pre : PathState))
      (hsame : variants.same_identity destination anchor = true) :
      Undoable (.MoveNoClobber e) ⟨[.ObservedAbsent, destination], anchor⟩
  | move_linked {e : MoveNoClobber} {source destination anchor : ObservedEntry}
      (hsource : source.state? = some (e.source_pre : PathState))
      (hdestination : destination.state? = some (e.source_pre : PathState))
      (hanchor : anchor.state? = some (e.source_pre : PathState))
      (hsource_same : variants.same_identity source anchor = true)
      (hdestination_same : variants.same_identity destination anchor = true) :
      Undoable (.MoveNoClobber e) ⟨[source, destination], anchor⟩
  | move_taken {e : MoveNoClobber} {anchor : ObservedEntry} (hanchor : anchor.state? = some (e.source_pre : PathState)) :
      Undoable (.MoveNoClobber e) ⟨[.ObservedAbsent, .ObservedAbsent], anchor⟩
  | directory_untouched {e : CreateDirectory} :
      Undoable (.CreateDirectory e) ⟨[.ObservedAbsent], .ObservedAbsent⟩
  | directory_built {e : CreateDirectory} {work : ObservedEntry} (hwork : EngineWork e work) :
      Undoable (.CreateDirectory e) ⟨[.ObservedAbsent], work⟩
  | directory_published {e : CreateDirectory} {live : ObservedEntry} (hlive : live.state? = some (e.post : PathState)) :
      Undoable (.CreateDirectory e) ⟨[live], .ObservedAbsent⟩
  | directory_dual {e : CreateDirectory} {live work : ObservedEntry} (hlive : live.state? = some (e.post : PathState))
      (hwork : EngineWork e work) (hsame : variants.same_identity live work = true) :
      Undoable (.CreateDirectory e) ⟨[live], work⟩

/-- Something stands at the effect's target that the engine did not put there. -/
def Foreign (effect : Effect) (v : EffectView) : Prop :=
  match effect, v.persistent with
  | .ReplaceFile e, [live] =>
    live.state? ≠ some (e.pre : PathState) ∧ v.scratch.state? ≠ some (e.pre : PathState)
  | .CreateFileNoClobber e, [live] =>
    live ≠ .ObservedAbsent ∧ (live.state? ≠ some (e.post : PathState) ∨ v.scratch ≠ .ObservedAbsent)
  | .MoveNoClobber e, [_, destination] =>
    destination ≠ .ObservedAbsent ∧ destination.state? ≠ some (e.source_pre : PathState)
  | .CreateDirectory _, [live] =>
    live ≠ .ObservedAbsent ∧ v.scratch ≠ .ObservedAbsent ∧ variants.same_identity live v.scratch = false
  | _, _ => False

/-- The effect's staging file is still being written. -/
def UnderConstruction (effect : Effect) (v : EffectView) : Prop :=
  required_scratch_role effect = .STAGING ∧ v.scratch ≠ .ObservedAbsent ∧ ¬ Declared effect v.scratch

/-- What undoing an effect leaves at its names. -/
def undone : Effect → EffectView → EffectView
  | .ReplaceFile e, ⟨[live], staging⟩ =>
    if live.state? = some (e.pre : PathState) then ⟨[live], .ObservedAbsent⟩ else ⟨[staging], .ObservedAbsent⟩
  | .CreateFileNoClobber _, _ | .CreateDirectory _, _ => ⟨[.ObservedAbsent], .ObservedAbsent⟩
  | .DeletePath _, ⟨[live], tombstone⟩ =>
    if live.is_absent then ⟨[tombstone], .ObservedAbsent⟩ else ⟨[live], .ObservedAbsent⟩
  | .MoveNoClobber _, ⟨[source, destination], anchor⟩ =>
    if ¬ source.is_absent then ⟨[source, .ObservedAbsent], .ObservedAbsent⟩
    else if destination.is_absent then ⟨[anchor, .ObservedAbsent], .ObservedAbsent⟩
    else ⟨[destination, .ObservedAbsent], .ObservedAbsent⟩
  | _, v => v

/-- The directories that undoing a creation removes are empty. -/
def Vacant (effect : Effect) (observed : JointObservation) : Prop :=
  match effect with
  | .CreateDirectory e =>
    (observed.persistent_entry 0 ≠ .ObservedAbsent →
      variants.directory_is_empty observed (.PersistentNode e.path) (observed.persistent_entry 0) = true) ∧
    (observed.scratch_entry ≠ .ObservedAbsent →
      variants.directory_is_empty observed (scratch_node effect) observed.scratch_entry = true)
  | _ => True

/-- A tuple from which undoing the effect still leads to where it leads from `v`. -/
def Midway (effect : Effect) (v w : EffectView) : Prop := Undoable effect w ∧ undone effect w = undone effect v

/-- A decision that undoes its effect, and can be taken up again wherever it is cut. -/
structure Resumable (effect : Effect) (observed : JointObservation) (d : EffectDecision) : Prop where
  halt_reason : d.halt_reason = none
  refused : d.refused = false
  cuts : ∀ k, Midway effect observed.view (steps_view (d.steps.take k) observed.view)
  ends : steps_view d.steps observed.view = undone effect observed.view

section

variable {P : EffectView → Prop} {v : EffectView} {step : RecoveryStep} {steps : List RecoveryStep}

theorem cuts_nil (h : P v) (k : Nat) : P (steps_view (([] : List RecoveryStep).take k) v) := by
  rwa [List.take_nil]

theorem cuts_cons (hstart : P v) (hrest : ∀ k, P (steps_view (steps.take k) (step_view step v))) (k : Nat) :
    P (steps_view ((step :: steps).take k) v) := by
  cases k with
  | zero => exact hstart
  | succ k => exact hrest k

end

/-- A state of a file is only ever the state of a file. -/
theorem is_file_of_state {entry : ObservedEntry} {state : FileState} (h : entry.state? = some (state : PathState)) :
    entry.is_file = true := by
  cases entry <;> simp_all [ObservedEntry.state?, ObservedEntry.is_file, ABSENT]

theorem present_of_state {entry : ObservedEntry} {state : PathState} (h : entry.state? = some state)
    (hstate : state ≠ ABSENT) : entry ≠ .ObservedAbsent := by
  rintro rfl
  exact hstate (Option.some.inj h).symm

theorem Undoable.not_foreign {effect : Effect} {v : EffectView} (h : Undoable effect v) : ¬ Foreign effect v := by
  cases h <;> simp_all [Foreign]

theorem Undoable.not_under_construction {effect : Effect} {v : EffectView} (h : Undoable effect v) :
    ¬ UnderConstruction effect v := by
  rintro ⟨hrole, hpresent, hundeclared⟩
  cases h <;> simp_all [required_scratch_role, Declared, occurrences]

namespace variants

section

variable {effect : Effect} {observed : JointObservation}

theorem resumable_nothing (kind : EffectDecisionKind) (h : Undoable effect observed.view)
    (hends : undone effect observed.view = observed.view) : Resumable effect observed (decision kind observed []) :=
  ⟨rfl, rfl, cuts_nil ⟨h, rfl⟩, hends.symm⟩

theorem resumable_removed (kind : EffectDecisionKind) (hcovers : observed.Covers effect)
    (h : Undoable effect observed.view) (hafter : Undoable effect ⟨observed.view.persistent, .ObservedAbsent⟩)
    (hends : undone effect observed.view = ⟨observed.view.persistent, .ObservedAbsent⟩)
    (hagain : undone effect ⟨observed.view.persistent, .ObservedAbsent⟩ = ⟨observed.view.persistent, .ObservedAbsent⟩) :
    Resumable effect observed (remove_decision kind effect observed) := by
  have hremove : step_view (.RemoveScratch (remove_scratch effect observed)) observed.view =
      ⟨observed.view.persistent, .ObservedAbsent⟩ := (remove_scratch_covers hcovers).2
  refine ⟨rfl, rfl, cuts_cons ⟨h, rfl⟩ (cuts_nil ?_), ?_⟩
  · rw [hremove]
    exact ⟨hafter, hagain.trans hends.symm⟩
  · simp only [remove_decision, decision, steps_view_cons, steps_view_nil, hremove, hends]

theorem resumable_restored (kind : EffectDecisionKind) {entries : List ObservedEntry} {scratch : ObservedEntry}
    {settlement : SettlementKind} {relations : List DiagnosticIdentityRelation} (hcovers : observed.Covers effect)
    (hlength : entries.length = (effect_paths effect).length) (h : Undoable effect observed.view)
    (hmiddle : Undoable effect ⟨entries, scratch⟩) (hafter : Undoable effect ⟨entries, .ObservedAbsent⟩)
    (hends : undone effect observed.view = ⟨entries, .ObservedAbsent⟩)
    (hagain : undone effect ⟨entries, scratch⟩ = ⟨entries, .ObservedAbsent⟩)
    (hsettled : undone effect ⟨entries, .ObservedAbsent⟩ = ⟨entries, .ObservedAbsent⟩) :
    Resumable effect observed
      (transform_decision kind effect observed (transform effect observed entries scratch settlement relations)) := by
  have htransform := transform_covers hcovers hlength scratch settlement relations
  have hremove := (remove_scratch_covers htransform.1).2
  rw [htransform.2] at hremove
  have hfirst : step_view (.TransformEffectTuple (transform effect observed entries scratch settlement relations))
      observed.view = ⟨entries, scratch⟩ := htransform.2
  have hsecond : step_view (.RemoveScratch (remove_after_transform effect
      (transform effect observed entries scratch settlement relations))) ⟨entries, scratch⟩ =
        ⟨entries, .ObservedAbsent⟩ := hremove
  refine ⟨rfl, rfl, cuts_cons ⟨h, rfl⟩ ?_, ?_⟩
  · rw [hfirst]
    refine cuts_cons ⟨hmiddle, hagain.trans hends.symm⟩ (cuts_nil ?_)
    rw [hsecond]
    exact ⟨hafter, hsettled.trans hends.symm⟩
  · simp only [transform_decision, decision, steps_view_cons, steps_view_nil, hfirst, hsecond, hends]

theorem resumable_restored_clean (kind : EffectDecisionKind) {entries : List ObservedEntry} {settlement : SettlementKind}
    {relations : List DiagnosticIdentityRelation} (hcovers : observed.Covers effect)
    (hlength : entries.length = (effect_paths effect).length) (h : Undoable effect observed.view)
    (hafter : Undoable effect ⟨entries, .ObservedAbsent⟩)
    (hends : undone effect observed.view = ⟨entries, .ObservedAbsent⟩)
    (hsettled : undone effect ⟨entries, .ObservedAbsent⟩ = ⟨entries, .ObservedAbsent⟩) :
    Resumable effect observed (decision kind observed
      [.TransformEffectTuple (transform effect observed entries OBSERVED_ABSENT settlement relations)]) := by
  have hfirst : step_view (.TransformEffectTuple (transform effect observed entries OBSERVED_ABSENT settlement relations))
      observed.view = ⟨entries, .ObservedAbsent⟩ := (transform_covers hcovers hlength _ settlement relations).2
  refine ⟨rfl, rfl, cuts_cons ⟨h, rfl⟩ (cuts_nil ?_), ?_⟩
  · rw [hfirst]
    exact ⟨hafter, hsettled.trans hends.symm⟩
  · simp only [decision, steps_view_cons, steps_view_nil, hfirst, hends]

end

/-! The cells that undo each kind. -/

theorem entry_class_pre {entry : ObservedEntry} {pre post : PathState} {relation : Option FileBuildRelation}
    (h : entry.state? = some pre) (hpre : pre ≠ ABSENT) : entry_class entry pre post relation = .PRE :=
  entry_class_eq_pre_iff.mpr ⟨present_of_state h hpre, h⟩

theorem entry_class_post {entry : ObservedEntry} {pre post : PathState} {relation : Option FileBuildRelation}
    (h : entry.state? = some post) (hpost : post ≠ ABSENT) (hne : pre ≠ post) :
    entry_class entry pre post relation = .POST :=
  entry_class_eq_post_iff.mpr ⟨present_of_state h hpost, by rw [h]; simpa using Ne.symm hne, h⟩

theorem entry_class_absent (pre post : PathState) (relation : Option FileBuildRelation) :
    entry_class .ObservedAbsent pre post relation = .ABSENT :=
  entry_class_eq_absent_iff.mpr rfl

section

variable {observed : JointObservation} {journal : JournalState} {d : EffectDecision}

theorem replace_nothing_resumable {e : ReplaceFile} (kind : EffectDecisionKind) (hcovers : observed.Covers (.ReplaceFile e))
    (hlive : (observed.persistent_entry 0).state? = some (e.pre : PathState))
    (hstaging : observed.scratch_entry = .ObservedAbsent) :
    Resumable (.ReplaceFile e) observed (decision kind observed []) := by
  apply resumable_nothing
  · rw [view_single rfl hcovers, hstaging]
    exact .replace_untouched hlive
  · simp [view_single rfl hcovers, undone, hlive, hstaging]

theorem replace_removed_resumable {e : ReplaceFile} (kind : EffectDecisionKind) (hcovers : observed.Covers (.ReplaceFile e))
    (hlive : (observed.persistent_entry 0).state? = some (e.pre : PathState))
    (hstaging : observed.scratch_entry.state? = some (e.post : PathState)) :
    Resumable (.ReplaceFile e) observed (remove_decision kind (.ReplaceFile e) observed) := by
  have hview := view_single rfl hcovers
  apply resumable_removed kind hcovers
  · rw [hview]
    exact .replace_staged hlive hstaging
  · rw [hview]
    exact .replace_untouched hlive
  · simp [hview, undone, hlive]
  · simp [hview, undone, hlive]

theorem replace_exchange_resumable {e : ReplaceFile} (hcovers : observed.Covers (.ReplaceFile e))
    (hlive : (observed.persistent_entry 0).state? = some (e.post : PathState))
    (hstaging : observed.scratch_entry.state? = some (e.pre : PathState)) (hne : e.pre ≠ e.post) :
    Resumable (.ReplaceFile e) observed (replace_exchange e observed false) := by
  have hview := view_single rfl hcovers
  have hlive_pre : (observed.persistent_entry 0).state? ≠ some (e.pre : PathState) := by
    rw [hlive]
    simpa using Ne.symm hne
  refine resumable_restored _ hcovers rfl ?_ (.replace_staged hstaging hlive) (.replace_untouched hstaging) ?_ ?_ ?_
  · rw [hview]
    exact .replace_exchanged hlive hstaging
  · simp [hview, undone, hlive_pre]
  · simp [undone, hstaging]
  · simp [undone, hstaging]

/-- The table of a reversal in progress accepts every tuple that is the engine's own. -/
theorem replace_undo_accepts {e : ReplaceFile} 
    (h : Undoable (.ReplaceFile e) ⟨[observed.persistent_entry 0], observed.scratch_entry⟩) :
    (effect_cell .UNCOMMITTED .UNDO_STARTED (.ReplaceFile e) observed).halt_reason = none := by
  simp only [effect_cell]
  generalize hl : observed.persistent_entry 0 = live at h
  generalize hs : observed.scratch_entry = staging at h
  have hfile : ∀ {entry : ObservedEntry} {state : FileState}, entry.state? = some (state : PathState) →
      entry.is_file = true := is_file_of_state
  split
  · rename_i hsame
    unfold noop_replace_cell
    cases h with
    | replace_untouched hlive => 
      have hnot : ObservedEntry.ObservedAbsent.is_file = false := rfl
      simp [hl, hs, hlive, hfile hlive, hnot, decision, ObservedEntry.is_absent]
    | replace_staged hlive hstaging => 
      rw [← hsame] at hstaging
      simp [hl, hs, hlive, hfile hlive, hstaging, hfile hstaging, remove_decision, decision]
    | replace_exchanged hlive hstaging =>
      rw [← hsame] at hlive
      simp [hl, hs, hlive, hfile hlive, hstaging, hfile hstaging, remove_decision, decision]
  · rename_i hsame
    have hne : (e.pre : PathState) ≠ e.post := by simpa using hsame
    cases h with
    | replace_untouched hlive =>
      rw [entry_class_pre hlive (by simp [ABSENT]), entry_class_absent]
      rfl
    | replace_staged hlive hstaging =>
      rw [entry_class_pre hlive (by simp [ABSENT]), entry_class_post hstaging (by simp [ABSENT]) hne]
      rfl
    | replace_exchanged hlive hstaging =>
      rw [entry_class_post hlive (by simp [ABSENT]) hne, entry_class_pre hstaging (by simp [ABSENT])]
      rfl

/-- An action on a replacement whose tuple is the engine's own can be taken up again. -/
theorem replace_action_resumable {e : ReplaceFile} (hcovers : observed.Covers (.ReplaceFile e))
    (hd : effect_cell .UNCOMMITTED journal (.ReplaceFile e) observed = d) (hhalt : d.halt_reason = none)
    (hforeign : ¬ Foreign (.ReplaceFile e) observed.view) (hbuilt : ¬ UnderConstruction (.ReplaceFile e) observed.view) :
    Resumable (.ReplaceFile e) observed d := by
  have hview := view_single rfl hcovers
  have hdeclared : observed.scratch_entry = .ObservedAbsent ∨ observed.scratch_entry.state? = some (e.pre : PathState) ∨
      observed.scratch_entry.state? = some (e.post : PathState) := by
    by_contra hnot
    rw [not_or] at hnot
    refine hbuilt ⟨rfl, by rw [hview]; exact hnot.1, ?_⟩
    rw [hview]
    rintro ⟨occurrence, hocc, hstate⟩
    obtain rfl := List.mem_singleton.mp hocc
    exact hnot.2 hstate
  have hown : (observed.persistent_entry 0).state? = some (e.pre : PathState) ∨
      observed.scratch_entry.state? = some (e.pre : PathState) := by
    by_contra hnot
    rw [not_or] at hnot
    exact hforeign (by rw [hview]; exact hnot)
  simp only [effect_cell] at hd
  split at hd
  · rename_i hsame
    have hstaging : observed.scratch_entry.is_absent = false → observed.scratch_entry.state? = some (e.post : PathState) := by
      intro hpresent
      rw [ObservedEntry.is_absent_eq_false_iff] at hpresent
      rcases hdeclared with habsent | hpre | hpost
      · exact absurd habsent hpresent
      · exact hsame ▸ hpre
      · exact hpost
    unfold noop_replace_cell at hd
    dsimp only at hd
    split at hd
    · subst hd
      simp [halt] at hhalt
    · rename_i hlive
      simp only [not_not] at hlive
      have hnothing (habsent : observed.scratch_entry.is_absent = true) (kind : EffectDecisionKind) :=
        replace_nothing_resumable kind hcovers hlive.2 (ObservedEntry.is_absent_iff.mp habsent)
      have hremoved (hstate : observed.scratch_entry.state? = some (e.post : PathState)) (kind : EffectDecisionKind) :=
        replace_removed_resumable kind hcovers hlive.2 hstate
      cases journal <;> dsimp only at hd
      case STARTED =>
        split at hd
        · rename_i habsent
          subst hd
          exact hnothing habsent _
        · rename_i hpresent
          split at hd <;> subst hd
          · exact hremoved (hstaging (by simpa using hpresent)) _
          · simp [halt] at hhalt
      case DONE =>
        split at hd <;> subst hd
        · rename_i hfile
          exact hremoved (hsame ▸ hfile.2) _
        · simp [halt] at hhalt
      case UNDO_STARTED =>
        split at hd
        · rename_i hfile
          subst hd
          exact hremoved (hsame ▸ hfile.2) _
        · split at hd <;> subst hd
          · rename_i habsent
            exact hnothing habsent _
          · simp [halt] at hhalt
      all_goals
        subst hd
        simp [halt] at hhalt
  · rename_i hne
    generalize hl : entry_class (observed.persistent_entry 0) e.pre e.post none = live_class at hd
    generalize hs : entry_class observed.scratch_entry e.pre e.post observed.scratch_relation = staging_class at hd
    have hlive_pre (hclass : live_class = .PRE) := (entry_class_eq_pre_iff.mp (hl.trans hclass)).2
    have hlive_post (hclass : live_class = .POST) := (entry_class_eq_post_iff.mp (hl.trans hclass)).2
    have hstaging_post (hclass : staging_class = .POST) := (entry_class_eq_post_iff.mp (hs.trans hclass)).2.2
    have hstaging_pre (hclass : staging_class = .PRE) := (entry_class_eq_pre_iff.mp (hs.trans hclass)).2
    have hstaging_absent (hclass : staging_class = .ABSENT) := entry_class_eq_absent_iff.mp (hs.trans hclass)
    have hexchange (hlive : live_class = .POST) (hstaging : staging_class = .PRE) :=
      replace_exchange_resumable hcovers (hlive_post hlive).2 (hstaging_pre hstaging) hne
    unfold replace_cell at hd
    split at hd <;> subst hd
    case h_3 => exact replace_nothing_resumable _ hcovers (hlive_pre rfl) (hstaging_absent rfl)
    case h_4 =>
      obtain ⟨hpresent, hpre, hpost, _⟩ := entry_class_eq_prefix_iff.mp hs
      rcases hdeclared with h | h | h
      · exact absurd h hpresent
      · exact absurd h hpre
      · exact absurd h hpost
    case h_5 => exact replace_removed_resumable _ hcovers (hlive_pre rfl) (hstaging_post rfl)
    case h_6 => exact hexchange rfl rfl
    case h_7 =>
      rcases hown with h | h
      · exact absurd h (hlive_post rfl).1
      · exact absurd h (entry_class_eq_external_iff.mp hs).2.1
    case h_8 => exact hexchange rfl rfl
    case h_9 => exact hexchange rfl rfl
    case h_10 => exact replace_removed_resumable _ hcovers (hlive_pre rfl) (hstaging_post rfl)
    case h_11 => exact replace_nothing_resumable _ hcovers (hlive_pre rfl) (hstaging_absent rfl)
    case h_12 => simp [halt] at hhalt
    all_goals contradiction

theorem create_file_undo_accepts {e : CreateFileNoClobber}
    (h : Undoable (.CreateFileNoClobber e) ⟨[observed.persistent_entry 0], observed.scratch_entry⟩) :
    (effect_cell .UNCOMMITTED .UNDO_STARTED (.CreateFileNoClobber e) observed).halt_reason = none := by
  simp only [effect_cell]
  generalize observed.persistent_entry 0 = live at h
  generalize observed.scratch_entry = staging at h
  cases h with
  | create_untouched =>
    rw [entry_class_absent, entry_class_absent]
    rfl
  | create_staged hstaging =>
    rw [entry_class_absent, entry_class_post hstaging (by simp [ABSENT]) (by simp [ABSENT])]
    rfl
  | create_published hlive =>
    rw [entry_class_absent, entry_class_post hlive (by simp [ABSENT]) (by simp [ABSENT])]
    rfl

theorem create_file_action_resumable {e : CreateFileNoClobber} (hcovers : observed.Covers (.CreateFileNoClobber e))
    (hd : effect_cell .UNCOMMITTED journal (.CreateFileNoClobber e) observed = d) (hhalt : d.halt_reason = none)
    (hforeign : ¬ Foreign (.CreateFileNoClobber e) observed.view)
    (hbuilt : ¬ UnderConstruction (.CreateFileNoClobber e) observed.view) :
    Resumable (.CreateFileNoClobber e) observed d := by
  have hview := view_single rfl hcovers
  rw [hview] at hforeign hbuilt
  have hown : observed.persistent_entry 0 = .ObservedAbsent ∨
      (observed.persistent_entry 0).state? = some (e.post : PathState) ∧ observed.scratch_entry = .ObservedAbsent := by
    by_contra hnot
    rw [not_or, not_and_or] at hnot
    exact hforeign hnot
  simp only [effect_cell] at hd
  generalize hl : entry_class (observed.persistent_entry 0) ABSENT e.post none = live_class at hd
  generalize hs : entry_class observed.scratch_entry ABSENT e.post observed.scratch_relation = staging_class at hd
  have hlive_absent (hclass : live_class = .ABSENT) := entry_class_eq_absent_iff.mp (hl.trans hclass)
  have hlive_post (hclass : live_class = .POST) := (entry_class_eq_post_iff.mp (hl.trans hclass)).2.2
  have hstaging_absent (hclass : staging_class = .ABSENT) := entry_class_eq_absent_iff.mp (hs.trans hclass)
  have hstaging_post (hclass : staging_class = .POST) := (entry_class_eq_post_iff.mp (hs.trans hclass)).2.2
  -- what the engine published stands alone
  have hrefused (hpresent : observed.persistent_entry 0 ≠ .ObservedAbsent)
      (hnot : (observed.persistent_entry 0).state? ≠ some (e.post : PathState) ∨ observed.scratch_entry ≠ .ObservedAbsent) :
      Resumable (.CreateFileNoClobber e) observed d := by
    rcases hown with habsent | ⟨hpost, habsent⟩
    · exact absurd habsent hpresent
    · rcases hnot with hnot | hnot
      · exact absurd hpost hnot
      · exact absurd habsent hnot
  have hlive_external (hclass : live_class = .EXTERNAL) :
      observed.persistent_entry 0 ≠ .ObservedAbsent ∧ (observed.persistent_entry 0).state? ≠ some (e.post : PathState) :=
    have hexternal := entry_class_eq_external_iff.mp (hl.trans hclass)
    ⟨hexternal.1, hexternal.2.2.1⟩
  have hstaging_present (hclass : staging_class ≠ .ABSENT) : observed.scratch_entry ≠ .ObservedAbsent := fun habsent =>
    hclass (hs.symm.trans (entry_class_eq_absent_iff.mpr habsent))
  have hlive_present (hclass : live_class = .POST) : observed.persistent_entry 0 ≠ .ObservedAbsent :=
    (entry_class_eq_post_iff.mp (hl.trans hclass)).1
  have hnothing (hlive : live_class = .ABSENT) (hstaging : staging_class = .ABSENT) (kind : EffectDecisionKind) :
      Resumable (.CreateFileNoClobber e) observed (decision kind observed []) := by
    apply resumable_nothing
    · rw [hview, hlive_absent hlive, hstaging_absent hstaging]
      exact .create_untouched
    · rw [hview, hlive_absent hlive, hstaging_absent hstaging]
      rfl
  have hremoved (hlive : live_class = .ABSENT) (hstaging : staging_class = .POST) (kind : EffectDecisionKind) :
      Resumable (.CreateFileNoClobber e) observed (remove_decision kind (.CreateFileNoClobber e) observed) := by
    apply resumable_removed kind hcovers <;> rw [hview, hlive_absent hlive]
    · exact .create_staged (hstaging_post hstaging)
    · exact .create_untouched
    all_goals rfl
  have hpublished (hlive : live_class = .POST) (hstaging : staging_class = .ABSENT) :
      Resumable (.CreateFileNoClobber e) observed (remove_live_creation e observed) := by
    refine resumable_restored _ hcovers rfl ?_ (.create_staged (hlive_post hlive)) .create_untouched rfl rfl rfl
    rw [hview, hstaging_absent hstaging]
    exact .create_published (hlive_post hlive)
  unfold create_file_cell at hd
  split at hd
  case h_2 => exact hd ▸ hnothing rfl rfl _
  case h_3 =>
    obtain ⟨hpresent, _, hpost, _⟩ := entry_class_eq_prefix_iff.mp hs
    refine absurd ⟨rfl, hpresent, ?_⟩ hbuilt
    rintro ⟨occurrence, hocc, hstate⟩
    obtain rfl := List.mem_singleton.mp hocc
    exact hstate.elim (fun habsent => hpresent (ObservedEntry.state?_eq_absent_iff.mp habsent)) hpost
  case h_4 => exact hd ▸ hremoved rfl rfl _
  case h_5 => exact hd ▸ hpublished rfl rfl
  case h_6 => exact hrefused (hlive_present rfl) (.inr (hstaging_present (by decide)))
  case h_7 => exact hrefused (hlive_present rfl) (.inr (hstaging_present (by decide)))
  case h_8 => exact hrefused (hlive_external rfl).1 (.inl (hlive_external rfl).2)
  case h_9 => exact hrefused (hlive_external rfl).1 (.inl (hlive_external rfl).2)
  case h_10 => exact hrefused (hlive_external rfl).1 (.inl (hlive_external rfl).2)
  case h_11 => exact hd ▸ hpublished rfl rfl
  case h_12 => exact hd ▸ hpublished rfl rfl
  case h_13 => exact hd ▸ hremoved rfl rfl _
  case h_14 => exact hd ▸ hnothing rfl rfl _
  case h_15 =>
    subst hd
    simp [halt] at hhalt
  all_goals contradiction

theorem delete_undo_accepts {e : DeletePath}
    (h : Undoable (.DeletePath e) ⟨[observed.persistent_entry 0], observed.scratch_entry⟩) :
    (effect_cell .UNCOMMITTED .UNDO_STARTED (.DeletePath e) observed).halt_reason = none := by
  simp only [effect_cell]
  have hpre : e.pre.state ≠ ABSENT := by cases h : e.pre <;> simp [DeletableState.state, ABSENT]
  generalize observed.persistent_entry 0 = live at h
  generalize observed.scratch_entry = tombstone at h
  cases h with
  | delete_untouched hlive =>
    rw [entry_class_pre hlive hpre, entry_class_absent]
    rfl
  | delete_taken htombstone =>
    rw [entry_class_absent, entry_class_pre htombstone hpre]
    rfl

theorem delete_action_resumable {e : DeletePath} (hcovers : observed.Covers (.DeletePath e))
    (hd : effect_cell .UNCOMMITTED journal (.DeletePath e) observed = d) (hhalt : d.halt_reason = none) :
    Resumable (.DeletePath e) observed d := by
  have hview := view_single rfl hcovers
  simp only [effect_cell] at hd
  generalize hl : entry_class (observed.persistent_entry 0) e.pre.state ABSENT none = live_class at hd
  generalize hs : entry_class observed.scratch_entry e.pre.state ABSENT none = tombstone_class at hd
  have hnothing (hlive : live_class = .PRE) (htombstone : tombstone_class = .ABSENT) (kind : EffectDecisionKind) :
      Resumable (.DeletePath e) observed (decision kind observed []) := by
    obtain ⟨hpresent, hstate⟩ := entry_class_eq_pre_iff.mp (hl.trans hlive)
    have habsent := entry_class_eq_absent_iff.mp (hs.trans htombstone)
    apply resumable_nothing
    · rw [hview, habsent]
      exact .delete_untouched hstate
    · simp [hview, undone, habsent, hpresent]
  have hrestored (hlive : live_class = .ABSENT) (htombstone : tombstone_class = .PRE) :
      Resumable (.DeletePath e) observed (restore_tombstone e observed) := by
    have habsent := entry_class_eq_absent_iff.mp (hl.trans hlive)
    obtain ⟨hpresent, hstate⟩ := entry_class_eq_pre_iff.mp (hs.trans htombstone)
    refine resumable_restored_clean _ hcovers rfl ?_ (.delete_untouched hstate) ?_ ?_
    · rw [hview, habsent]
      exact .delete_taken hstate
    · simp [hview, undone, habsent]
    · simp [undone, hpresent]
  unfold delete_cell at hd
  split at hd <;> subst hd
  case h_3 => exact hnothing rfl rfl _
  case h_4 => exact hrestored rfl rfl
  case h_5 => exact hrestored rfl rfl
  case h_6 => exact hrestored rfl rfl
  case h_7 => exact hnothing rfl rfl _
  case h_8 => simp [halt] at hhalt
  all_goals contradiction

theorem same_identity_self {entry : ObservedEntry} {state : FileState} (h : entry.state? = some (state : PathState)) :
    same_identity entry entry = true := by
  cases entry <;> simp_all [ObservedEntry.state?, same_identity, ObservedEntry.identity?, ABSENT]

theorem move_undo_accepts {e : MoveNoClobber}
    (h : Undoable (.MoveNoClobber e) ⟨[observed.persistent_entry 0, observed.persistent_entry 1], observed.scratch_entry⟩) :
    (effect_cell .UNCOMMITTED .UNDO_STARTED (.MoveNoClobber e) observed).halt_reason = none := by
  simp only [effect_cell]
  have hpre : ∀ {entry : ObservedEntry}, entry.state? = some (e.source_pre : PathState) →
      entry_class entry e.source_pre e.source_pre none = .PRE := fun h => entry_class_pre h (by simp [ABSENT])
  generalize observed.persistent_entry 0 = source at h
  generalize observed.persistent_entry 1 = destination at h
  generalize observed.scratch_entry = anchor at h
  cases h with
  | move_untouched hsource =>
    rw [hpre hsource, entry_class_absent]
    rfl
  | move_anchored hsource hanchor hsame =>
    rw [hpre hsource, hpre hanchor, entry_class_absent, hsame]
    rfl
  | move_published hdestination hanchor hsame =>
    rw [hpre hdestination, hpre hanchor, entry_class_absent, hsame]
    rfl
  | move_linked hsource hdestination hanchor hsource_same hdestination_same =>
    rw [hpre hsource, hpre hdestination, hpre hanchor, hsource_same, hdestination_same]
    rfl
  | move_taken hanchor =>
    rw [hpre hanchor, entry_class_absent]
    rfl

theorem move_action_resumable {e : MoveNoClobber} (hcovers : observed.Covers (.MoveNoClobber e))
    (hd : effect_cell .UNCOMMITTED journal (.MoveNoClobber e) observed = d) (hhalt : d.halt_reason = none)
    (hforeign : ¬ Foreign (.MoveNoClobber e) observed.view) : Resumable (.MoveNoClobber e) observed d := by
  have hview := view_double rfl hcovers
  rw [hview] at hforeign
  simp only [effect_cell] at hd
  generalize hs : entry_class (observed.persistent_entry 0) e.source_pre e.source_pre none = source_class at hd
  generalize ht : entry_class (observed.persistent_entry 1) e.source_pre e.source_pre none = destination_class at hd
  generalize ha : entry_class observed.scratch_entry e.source_pre e.source_pre none = anchor_class at hd
  have hstate {entry : ObservedEntry} {c : EntryClass} (hclass : entry_class entry e.source_pre e.source_pre none = c)
      (hc : c = .PRE) : entry.state? = some (e.source_pre : PathState) := (entry_class_eq_pre_iff.mp (hclass.trans hc)).2
  have habsent {entry : ObservedEntry} {c : EntryClass} (hclass : entry_class entry e.source_pre e.source_pre none = c)
      (hc : c = .ABSENT) : entry = .ObservedAbsent := entry_class_eq_absent_iff.mp (hclass.trans hc)
  -- putting a file with the anchor's identity back at the source leaves the anchor to remove
  have hrepaired (kind : EffectDecisionKind) (settlement : SettlementKind) (relations : List DiagnosticIdentityRelation)
      {entry : ObservedEntry} (hentry : entry.state? = some (e.source_pre : PathState))
      (hanchor : observed.scratch_entry.state? = some (e.source_pre : PathState))
      (hsame : same_identity entry observed.scratch_entry = true) (h : Undoable (.MoveNoClobber e) observed.view)
      (hends : undone (.MoveNoClobber e) observed.view = ⟨[entry, .ObservedAbsent], .ObservedAbsent⟩) :
      Resumable (.MoveNoClobber e) observed (transform_decision kind (.MoveNoClobber e) observed
        (transform (.MoveNoClobber e) observed [entry, OBSERVED_ABSENT] observed.scratch_entry settlement relations)) := by
    have hpresent := ObservedEntry.is_absent_eq_false_iff.mpr (present_of_state hentry (by simp [ABSENT]))
    refine resumable_restored kind hcovers rfl h (.move_anchored hentry hanchor hsame) (.move_untouched hentry) hends ?_ ?_
    · simp [undone, hpresent, OBSERVED_ABSENT]
    · simp [undone, hpresent, OBSERVED_ABSENT]
  have hundo (hd : move_undo_cell journal e observed source_class destination_class anchor_class
      (same_identity (observed.persistent_entry 0) observed.scratch_entry)
      (same_identity (observed.persistent_entry 1) observed.scratch_entry) = d) :
      Resumable (.MoveNoClobber e) observed d := by
    unfold move_undo_cell at hd
    split at hd
    case h_1 =>
      subst hd
      have hpresent := ObservedEntry.is_absent_eq_false_iff.mpr (present_of_state (hstate hs rfl) (by simp [ABSENT]))
      apply resumable_nothing <;> rw [hview, habsent ht rfl, habsent ha rfl]
      · exact .move_untouched (hstate hs rfl)
      · simp [undone, hpresent]
    case h_2 =>
      split at hd <;> subst hd
      · rename_i hsame
        have hpresent := ObservedEntry.is_absent_eq_false_iff.mpr (present_of_state (hstate hs rfl) (by simp [ABSENT]))
        apply resumable_removed _ hcovers <;> rw [hview, habsent ht rfl]
        · exact .move_anchored (hstate hs rfl) (hstate ha rfl) hsame
        · exact .move_untouched (hstate hs rfl)
        · simp [undone, hpresent]
        · simp [undone, hpresent]
      · simp [halt] at hhalt
    case h_3 =>
      split at hd <;> subst hd
      · rename_i hsame
        have hpresent := ObservedEntry.is_absent_eq_false_iff.mpr (present_of_state (hstate ht rfl) (by simp [ABSENT]))
        apply hrepaired _ _ _ (hstate ht rfl) (hstate ha rfl) hsame <;> rw [hview, habsent hs rfl]
        · exact .move_published (hstate ht rfl) (hstate ha rfl) hsame
        · simp [undone, hpresent]
      · simp [halt] at hhalt
    case h_4 =>
      split at hd <;> subst hd
      · rename_i hsame
        have hpresent := ObservedEntry.is_absent_eq_false_iff.mpr (present_of_state (hstate hs rfl) (by simp [ABSENT]))
        apply hrepaired _ _ _ (hstate hs rfl) (hstate ha rfl) hsame.1 <;> rw [hview]
        · exact .move_linked (hstate hs rfl) (hstate ht rfl) (hstate ha rfl) hsame.1 hsame.2
        · simp [undone, hpresent]
      · simp [halt] at hhalt
    case h_5 =>
      subst hd
      apply hrepaired _ _ _ (hstate ha rfl) (hstate ha rfl) (same_identity_self (hstate ha rfl)) <;>
        rw [hview, habsent hs rfl, habsent ht rfl]
      · exact .move_taken (hstate ha rfl)
      · simp [undone]
    case h_6 =>
      have hexternal := entry_class_eq_external_iff.mp ht
      exact absurd ⟨hexternal.1, hexternal.2.1⟩ hforeign
    case h_7 =>
      subst hd
      simp [halt] at hhalt
  unfold move_cell at hd
  split at hd
  case h_2 =>
    split at hd <;> subst hd
    · rename_i hclasses
      obtain ⟨rfl, rfl, rfl, hsame⟩ := hclasses
      have hpresent := ObservedEntry.is_absent_eq_false_iff.mpr (present_of_state (hstate ht rfl) (by simp [ABSENT]))
      apply hrepaired _ _ _ (hstate ht rfl) (hstate ha rfl) hsame <;> rw [hview, habsent hs rfl]
      · exact .move_published (hstate ht rfl) (hstate ha rfl) hsame
      · simp [undone, hpresent]
    · simp [halt] at hhalt
  case h_3 => exact hundo hd
  case h_4 => exact hundo hd
  case h_5 =>
    subst hd
    simp [halt] at hhalt
  all_goals contradiction

/-- A work entry of the engine's own is what the table calls attributable. -/
theorem engine_work_iff {e : CreateDirectory} {work : ObservedEntry} :
    (entry_class work ABSENT e.post none = .POST || is_directory_scaffold work) = true ↔ EngineWork e work := by
  rw [Bool.or_eq_true, decide_eq_true_eq, entry_class_eq_post_iff, EngineWork]
  refine or_congr_left ⟨fun h => h.2.2, fun h => ⟨present_of_state h (by simp [ABSENT]), ?_, h⟩⟩
  rw [h]
  simp [ABSENT]

theorem present_of_engine_work {e : CreateDirectory} {work : ObservedEntry} (h : EngineWork e work) :
    work ≠ .ObservedAbsent := by
  rcases h with hstate | hscaffold
  · exact present_of_state hstate (by simp [ABSENT])
  · rintro rfl
    cases hscaffold

theorem directory_undo_accepts {e : CreateDirectory}
    (h : Undoable (.CreateDirectory e) ⟨[observed.persistent_entry 0], observed.scratch_entry⟩)
    (hvacant : Vacant (.CreateDirectory e) observed) :
    (effect_cell .UNCOMMITTED .UNDO_STARTED (.CreateDirectory e) observed).halt_reason = none := by
  obtain ⟨hlive_empty, hwork_empty⟩ := hvacant
  simp only [effect_cell, directory_cell, directory_undo_cell]
  generalize observed.persistent_entry 0 = live at h hlive_empty
  generalize observed.scratch_entry = work at h hwork_empty
  cases h with
  | directory_untouched =>
    rw [entry_class_absent, if_pos ⟨rfl, rfl⟩]
    rfl
  | directory_built hwork =>
    have hpresent := present_of_engine_work hwork
    have hclass : entry_class work ABSENT e.post none ≠ .ABSENT := mt entry_class_eq_absent_iff.mp hpresent
    rw [entry_class_absent, if_neg (by simp [hclass]), if_pos ⟨rfl, engine_work_iff.mpr hwork⟩, hwork_empty hpresent]
    rfl
  | directory_published hlive =>
    have hpresent := present_of_state hlive (by simp [ABSENT])
    have hpost : entry_class live ABSENT e.post none = .POST :=
      entry_class_post hlive (by simp [ABSENT]) (by simp [ABSENT])
    rw [entry_class_absent, hpost, hlive_empty hpresent, if_neg (by simp), if_neg (by simp), if_pos ⟨rfl, rfl⟩]
    rfl
  | directory_dual hlive hwork hsame =>
    have hpresent := present_of_state hlive (by simp [ABSENT])
    have hwork_present := present_of_engine_work hwork
    have hclass : entry_class work ABSENT e.post none ≠ .ABSENT := mt entry_class_eq_absent_iff.mp hwork_present
    have hpost : entry_class live ABSENT e.post none = .POST :=
      entry_class_post hlive (by simp [ABSENT]) (by simp [ABSENT])
    rw [hpost, hlive_empty hpresent, hwork_empty hwork_present, if_neg (by simp), if_neg (by simp),
      if_neg (by simp [hclass]), if_pos ⟨rfl, engine_work_iff.mpr hwork, hsame⟩]
    rfl

theorem directory_action_resumable {e : CreateDirectory} (hcovers : observed.Covers (.CreateDirectory e))
    (hd : effect_cell .UNCOMMITTED journal (.CreateDirectory e) observed = d) (hhalt : d.halt_reason = none)
    (hforeign : ¬ Foreign (.CreateDirectory e) observed.view) :
    Resumable (.CreateDirectory e) observed d ∧ Vacant (.CreateDirectory e) observed := by
  have hview := view_single rfl hcovers
  rw [hview] at hforeign
  simp only [effect_cell] at hd
  generalize hl : entry_class (observed.persistent_entry 0) ABSENT e.post none = live_class at hd
  generalize hw : entry_class observed.scratch_entry ABSENT e.post none = work_class at hd
  have hlive_absent (hclass : live_class = .ABSENT) := entry_class_eq_absent_iff.mp (hl.trans hclass)
  have hlive_post (hclass : live_class = .POST) := entry_class_eq_post_iff.mp (hl.trans hclass)
  have hwork_absent (hclass : work_class = .ABSENT) := entry_class_eq_absent_iff.mp (hw.trans hclass)
  have hengine (hwork : (work_class = .POST || is_directory_scaffold observed.scratch_entry) = true) :
      EngineWork e observed.scratch_entry := engine_work_iff.mp (hw ▸ hwork)
  have hpublished (hlive : live_class = .POST) (hwork : work_class = .ABSENT)
      (hempty : directory_is_empty observed (.PersistentNode e.path) (observed.persistent_entry 0) = true) :
      Resumable (.CreateDirectory e) observed (remove_live_directory e observed) ∧
        Vacant (.CreateDirectory e) observed := by
    refine ⟨resumable_restored_clean _ hcovers rfl ?_ .directory_untouched rfl rfl,
      fun _ => hempty, fun hpresent => absurd (hwork_absent hwork) hpresent⟩
    rw [hview, hwork_absent hwork]
    exact .directory_published (hlive_post hlive).2.2
  have hundo (hd : directory_undo_cell journal e observed live_class work_class
      (work_class = .POST || is_directory_scaffold observed.scratch_entry)
      (same_identity (observed.persistent_entry 0) observed.scratch_entry) = d) :
      Resumable (.CreateDirectory e) observed d ∧ Vacant (.CreateDirectory e) observed := by
    unfold directory_undo_cell at hd
    dsimp only at hd
    split at hd
    · rename_i hclasses
      subst hd
      have hlive := hlive_absent hclasses.1
      have hwork := hwork_absent hclasses.2
      refine ⟨?_, fun hpresent => absurd hlive hpresent, fun hpresent => absurd hwork hpresent⟩
      apply resumable_nothing <;> rw [hview, hlive, hwork]
      · exact .directory_untouched
      · rfl
    unfold if_empty at hd
    split at hd
    · rename_i hclasses
      split at hd <;> subst hd
      · rename_i hempty
        have hlive := hlive_absent hclasses.1
        refine ⟨?_, fun hpresent => absurd hlive hpresent, fun _ => hempty⟩
        apply resumable_removed _ hcovers <;> rw [hview, hlive]
        · exact .directory_built (hengine hclasses.2)
        · exact .directory_untouched
        all_goals rfl
      · simp [halt] at hhalt
    split at hd
    · rename_i hclasses
      split at hd <;> subst hd
      · rename_i hempty
        exact hpublished hclasses.1 hclasses.2 hempty
      · simp [halt] at hhalt
    split at hd
    · rename_i hclasses
      split at hd <;> subst hd
      · rename_i hempty
        rw [Bool.and_eq_true] at hempty
        refine ⟨⟨rfl, rfl, ?_, ?_⟩, fun _ => hempty.1, fun _ => hempty.2⟩
        · -- the work name goes first, then the live one
          have hremove := remove_scratch_covers hcovers
          have hfirst : step_view (.RemoveScratch (remove_scratch (.CreateDirectory e) observed)) observed.view =
              ⟨[observed.persistent_entry 0], .ObservedAbsent⟩ := by
            rw [hview]
            exact hremove.2.trans (by rw [hview]; rfl)
          have hsecond : ∀ v, step_view (.TransformEffectTuple (remove_live_directory_step e
              (remove_scratch (.CreateDirectory e) observed).result_after [⟨"live", "work", .SAME⟩])) v =
                ⟨[.ObservedAbsent], .ObservedAbsent⟩ := fun _ =>
            (transform_covers hremove.1 (rfl : [OBSERVED_ABSENT].length = 1) OBSERVED_ABSENT
              .REMOVE_ATTRIBUTABLE_CREATION [⟨"live", "work", .SAME⟩]).2
          refine cuts_cons ⟨?_, rfl⟩ ?_
          · rw [hview]
            exact .directory_dual (hlive_post hclasses.1).2.2 (hengine hclasses.2.1) hclasses.2.2
          · rw [hfirst]
            refine cuts_cons ⟨.directory_published (hlive_post hclasses.1).2.2, rfl⟩ (cuts_nil ?_)
            rw [hsecond]
            exact ⟨.directory_untouched, rfl⟩
        · exact (transform_covers (remove_scratch_covers hcovers).1 (rfl : [OBSERVED_ABSENT].length = 1) OBSERVED_ABSENT
            .REMOVE_ATTRIBUTABLE_CREATION [⟨"live", "work", .SAME⟩]).2
      · simp [halt] at hhalt
    split at hd
    · rename_i hclasses
      obtain ⟨hlive, hwork, hdifferent⟩ := hclasses
      refine absurd ⟨?_, present_of_engine_work (hengine hwork), by simpa using hdifferent⟩ hforeign
      rcases hlive with hlive | hlive
      · exact (hlive_post hlive).1
      · exact (entry_class_eq_external_iff.mp (hl.trans hlive)).1
    · subst hd
      simp [halt] at hhalt
  unfold directory_cell at hd
  split at hd
  case h_2 =>
    split at hd
    · rename_i hclasses
      unfold if_empty at hd
      split at hd <;> subst hd
      · rename_i hempty
        exact hpublished hclasses.1 hclasses.2 hempty
      · simp [halt] at hhalt
    · subst hd
      simp [halt] at hhalt
  case h_3 => exact hundo hd
  case h_4 => exact hundo hd
  case h_5 =>
    subst hd
    simp [halt] at hhalt
  all_goals contradiction

/-- An action on an effect whose tuple is the engine's own, and complete, can be taken up again. -/
theorem action_resumable {effect : Effect} (hcovers : observed.Covers effect)
    (hd : effect_cell .UNCOMMITTED journal effect observed = d) (hhalt : d.halt_reason = none)
    (hforeign : ¬ Foreign effect observed.view) (hbuilt : ¬ UnderConstruction effect observed.view) :
    Resumable effect observed d ∧ Vacant effect observed := by
  cases effect with
  | ReplaceFile e => exact ⟨replace_action_resumable hcovers hd hhalt hforeign hbuilt, trivial⟩
  | CreateFileNoClobber e => exact ⟨create_file_action_resumable hcovers hd hhalt hforeign hbuilt, trivial⟩
  | DeletePath e => exact ⟨delete_action_resumable hcovers hd hhalt, trivial⟩
  | MoveNoClobber e => exact ⟨move_action_resumable hcovers hd hhalt hforeign, trivial⟩
  | CreateDirectory e => exact directory_action_resumable hcovers hd hhalt hforeign

theorem undo_accepts {effect : Effect} (hcovers : observed.Covers effect) (h : Undoable effect observed.view)
    (hvacant : Vacant effect observed) : (effect_cell .UNCOMMITTED .UNDO_STARTED effect observed).halt_reason = none := by
  cases effect with
  | ReplaceFile e => exact replace_undo_accepts (view_single rfl hcovers ▸ h)
  | CreateFileNoClobber e => exact create_file_undo_accepts (view_single rfl hcovers ▸ h)
  | DeletePath e => exact delete_undo_accepts (view_single rfl hcovers ▸ h)
  | MoveNoClobber e => exact move_undo_accepts (view_double rfl hcovers ▸ h)
  | CreateDirectory e => exact directory_undo_accepts (view_single rfl hcovers ▸ h) hvacant

end

/-- Undoing can be taken up from every tuple that is the engine's own. -/
theorem undo_resumable {effect : Effect} {observed : JointObservation} (hcovers : observed.Covers effect)
    (h : Undoable effect observed.view) (hvacant : Vacant effect observed) :
    Resumable effect observed (effect_cell .UNCOMMITTED .UNDO_STARTED effect observed) :=
  (action_resumable hcovers rfl (undo_accepts hcovers h hvacant) h.not_foreign h.not_under_construction).1

end variants

end atoms.recovery
