import Atoms.Core.Compiler.Facts
import Atoms.Recovery.Classifier.Authorizable
import Atoms.Recovery.Classifier.Halting
import Atoms.Recovery.Reducer.Totality
import Mathlib.Data.String.Basic

open atoms.errors atoms.fingerprint atoms.effects atoms.paths atoms.spec atoms.compiler checked keyed

namespace atoms.spec

theorem map_sorted_by {α : Type} (key : α → String) (values : List α) :
    (sorted_by key values).map key = sorted_by id (values.map key) :=
  List.map_insertionSort _ _ _ _ fun _ _ _ _ => Iff.rfl

theorem sorted_by_self (values : List String) : sorted_by id (sorted_by id values) = sorted_by id values :=
  (List.pairwise_insertionSort (fun left right : String => left ≤ right) values).insertionSort_eq

end atoms.spec

namespace atoms.compiler

theorem mem_path_fields {effect : Effect} {occurrence : Occurrence} (h : occurrence ∈ occurrences effect) :
    occurrence.path ∈ (path_fields effect).map Prod.fst := by
  cases effect <;> simp only [occurrences, path_fields, List.mem_cons, List.not_mem_nil, or_false] at h ⊢ <;>
    grind

variable [UnicodeData]

/-- Whether a path is accepted does not depend on what it is called. -/
theorem require_rel_path_kind {kind other : String} {path : RelPath} (h : require_rel_path kind path = .ok ()) :
    require_rel_path other path = .ok () := by
  simp only [require_rel_path, bind_eq_ok_iff, require_eq_ok_iff, forM_eq_ok_iff] at h ⊢
  exact h

/-- Every planned path is project-relative. -/
theorem CompiledSpec.paths_relative (compiled : CompiledSpec) {path : RelPath} (hpath : path ∈ compiled.paths)
    (kind : String) : require_rel_path kind path = .ok () := by
  obtain ⟨source, hphases, _, heffects⟩ := compiled.exists_phases
  obtain ⟨effect, heffect, occurrence, hoccurrence, rfl⟩ := compiled.mem_paths_iff.mp hpath
  have hgrammar := forM_eq_ok_iff.mp hphases.path_grammar_ok
  obtain ⟨field, hfield, hpath⟩ := List.mem_map.mp (mem_path_fields hoccurrence)
  rw [← heffects] at heffect
  obtain ⟨index, hindex, rfl⟩ := List.mem_iff_getElem.mp heffect
  have hdeclared : (field.1, effect_label index ++ "." ++ field.2) ∈ declared_paths source := by
    refine List.mem_append_right _ (List.mem_flatMap.mpr ⟨(_, index), ?_, List.mem_map.mpr ⟨field, hfield, rfl⟩⟩)
    exact List.mk_mem_zipIdx_iff_getElem?.mpr (List.getElem?_eq_getElem hindex)
  rw [← hpath]
  have hfirst := hgrammar _ hdeclared
  exact require_rel_path_kind hfirst

end atoms.compiler

namespace atoms.recovery

namespace snapshot

instance : Std.Total pair_le := ⟨fun left right => by
  unfold pair_le
  rcases lt_trichotomy left.1 right.1 with h | h | h
  · exact .inl (.inl h)
  · rcases le_total left.2 right.2 with h' | h'
    · exact .inl (.inr ⟨h, h'⟩)
    · exact .inr (.inr ⟨h.symm, h'⟩)
  · exact .inr (.inl h)⟩

instance : IsTrans (String × String) pair_le := ⟨fun left middle right h h' => by
  unfold pair_le at *
  rcases h with h | ⟨h, hle⟩
  · rcases h' with h' | ⟨h', _⟩
    · exact .inl (lt_trans h h')
    · exact .inl (h' ▸ h)
  · rcases h' with h' | ⟨h', hle'⟩
    · exact .inl (h ▸ h')
    · exact .inr ⟨h.trans h', le_trans hle hle'⟩⟩

end snapshot

namespace diagnostics

open snapshot

/-- What a list of entries must be, and the namespace of what is expected comes before that of what is observed. -/
theorem expected_lt_observed (left right : String) : "expected" ++ ":" ++ left < "observed" ++ ":" ++ right := by
  rw [String.lt_iff_toList_lt]
  simp only [String.toList_append]
  exact List.Lex.rel (by decide)

/-- The named entries are in the order of their slots, which are distinct. -/
theorem named_entries_eq_ok {observation : JointObservation} {entries : List NamedEntry}
    (h : named_entries (some observation) = .ok entries) :
    entries.map NamedEntry.slot = sorted_by id (entries.map NamedEntry.slot) ∧
      (entries.map NamedEntry.slot).Nodup ∧ ∀ item ∈ entries,
        item.entry ∈ observation.persistent.map PersistentObservation.entry ∨
        item.entry ∈ observation.scratch.map ScratchObservation.entry := by
  unfold named_entries at h
  obtain ⟨_, hnodup, h⟩ := bind_eq_ok_iff.mp h
  rw [pure_eq_ok_iff] at h
  subst h
  refine ⟨?_, require_eq_ok_iff.mp hnodup, ?_⟩
  · rw [map_sorted_by, sorted_by_self]
  · intro item hitem
    rw [mem_sorted_by, List.mem_append] at hitem
    rcases hitem with hitem | hitem
    · obtain ⟨source, hsource, rfl⟩ := List.mem_map.mp hitem
      exact .inl (List.mem_map_of_mem hsource)
    · obtain ⟨source, hsource, rfl⟩ := List.mem_map.mp hitem
      exact .inr (List.mem_map_of_mem hsource)

/-- The state of a valid entry is one that a diagnostic may hold. -/
theorem validate_entry_state {entry : ObservedEntry} (h : ValidEntry entry) (label : String) :
    validate_diagnostic_state label (entry_fields entry).1 = .ok () := by
  cases entry with
  | ObservedUnrecognized st_mode => exact validate_observed_entry_eq_ok_iff.mpr h
  | _ => rfl

theorem project_entries_valid {observation : Option JointObservation} {entries : List DiagnosticEntry}
    (h : project_entries observation = .ok entries)
    (hvalid : ∀ item ∈ observation, ∀ entry ∈ item.entries, ValidEntry entry) (label : String) :
    validate_diagnostic_entries entries label = .ok () := by
  unfold project_entries at h
  obtain ⟨named, hnamed, h⟩ := bind_eq_ok_iff.mp h
  rw [pure_eq_ok_iff] at h
  subst h
  cases observation with
  | none =>
    cases hnamed
    rfl
  | some observation =>
    obtain ⟨hsorted, hnodup, hentries⟩ := named_entries_eq_ok hnamed
    simp only [validate_diagnostic_entries, bind_eq_ok_iff, forM_eq_ok_iff, require_eq_ok_iff, List.forall_mem_map,
      List.map_map]
    refine ⟨(), ?_, hsorted, hnodup⟩
    intro item hitem
    apply validate_entry_state
    apply hvalid observation rfl
    rw [JointObservation.entries, List.mem_append]
    exact hentries item hitem

/-- The slots of an identity pair are two of the identified ones. -/
theorem mem_identity_pairs {items : List (String × EntryIdentity)} {relation : DiagnosticIdentityRelation}
    (h : relation ∈ identity_pairs items) : relation.left_slot ∈ items.map Prod.fst := by
  induction items with
  | nil => cases h
  | cons head rest ih =>
    rw [identity_pairs, List.mem_append] at h
    rcases h with h | h
    · obtain ⟨item, _, rfl⟩ := List.mem_map.mp h
      exact List.mem_cons_self
    · exact List.mem_cons_of_mem _ (ih h)

theorem identity_pairs_nodup {items : List (String × EntryIdentity)} (h : (items.map Prod.fst).Nodup) :
    ((identity_pairs items).map DiagnosticIdentityRelation.pair).Nodup := by
  induction items with
  | nil => exact List.nodup_nil
  | cons head rest ih =>
    rw [List.map_cons, List.nodup_cons] at h
    rw [identity_pairs, List.map_append, List.map_map, List.nodup_append]
    refine ⟨?_, ih h.2, ?_⟩
    · have hmap := h.2.map (f := fun slot => (head.1, slot)) fun left right heq => congrArg Prod.snd heq
      rwa [List.map_map] at hmap
    · intro left hleft right hright heq
      obtain ⟨item, _, rfl⟩ := List.mem_map.mp hleft
      obtain ⟨relation, hrelation, rfl⟩ := List.mem_map.mp hright
      have hslot := mem_identity_pairs hrelation
      have hfirst : head.1 = relation.left_slot := congrArg Prod.fst heq
      exact h.1 (hfirst ▸ hslot)

/-- The relations of one observation are sorted and distinct, and their slots carry its namespace. -/
structure Related («namespace» : String) (relations : List DiagnosticIdentityRelation) : Prop where
  sorted : (relations.map DiagnosticIdentityRelation.pair).Pairwise pair_le
  nodup : (relations.map DiagnosticIdentityRelation.pair).Nodup
  named : ∀ relation ∈ relations, ∃ slot, relation.left_slot = «namespace» ++ ":" ++ slot

theorem project_identity_relations_related {«namespace» : String} {observation : Option JointObservation}
    {relations : List DiagnosticIdentityRelation}
    (h : project_identity_relations «namespace» observation = .ok relations) : Related «namespace» relations := by
  unfold project_identity_relations at h
  obtain ⟨named, hnamed, h⟩ := bind_eq_ok_iff.mp h
  rw [pure_eq_ok_iff] at h
  subst h
  cases observation with
  | none =>
    cases hnamed
    exact ⟨List.Pairwise.nil, List.nodup_nil, fun _ hmem => nomatch hmem⟩
  | some observation =>
    obtain ⟨_, hnodup, _⟩ := named_entries_eq_ok hnamed
    set identified := named.filterMap fun item =>
      (entry_fields item.entry).2.2.map fun identity => («namespace» ++ ":" ++ item.slot, identity) with hidentified
    have hinjective : Function.Injective fun slot : String => «namespace» ++ ":" ++ slot := by
      intro left right heq
      have heq := congrArg String.toList heq
      simp only [String.toList_append, List.append_cancel_left_eq] at heq
      exact String.toList_inj.mp heq
    have hslots : (identified.map Prod.fst).Nodup := by
      rw [List.Nodup, List.pairwise_map, hidentified, List.pairwise_filterMap]
      refine (List.pairwise_map.mp hnodup).imp fun {left right} hne => ?_
      intro first hfirst second hsecond heq
      obtain ⟨_, _, rfl⟩ := Option.map_eq_some_iff.mp hfirst
      obtain ⟨_, _, rfl⟩ := Option.map_eq_some_iff.mp hsecond
      exact hne (hinjective heq)
    have hsort : ((identity_pairs identified).insertionSort fun left right => pair_le
        (DiagnosticIdentityRelation.pair left) (DiagnosticIdentityRelation.pair right)).map
        DiagnosticIdentityRelation.pair =
        ((identity_pairs identified).map DiagnosticIdentityRelation.pair).insertionSort pair_le :=
      List.map_insertionSort _ _ _ _ fun _ _ _ _ => Iff.rfl
    refine ⟨?_, ?_, ?_⟩
    · rw [hsort]
      exact List.pairwise_insertionSort _ _
    · rw [hsort, (List.perm_insertionSort _ _).nodup_iff]
      exact identity_pairs_nodup hslots
    · intro relation hrelation
      rw [List.mem_insertionSort] at hrelation
      obtain ⟨item, hitem, hslot⟩ := List.mem_map.mp (mem_identity_pairs hrelation)
      rw [hidentified] at hitem
      obtain ⟨source, _, hsource⟩ := List.mem_filterMap.mp hitem
      obtain ⟨_, _, rfl⟩ := Option.map_eq_some_iff.mp hsource
      exact ⟨source.slot, hslot.symm⟩

/-- What is expected and what is observed, one after the other, are sorted and distinct. -/
theorem validate_relations {expected observed : List DiagnosticIdentityRelation} (hexpected : Related "expected" expected)
    (hobserved : Related "observed" observed) : validate_identity_relations (expected ++ observed) = .ok () := by
  have hbefore : ∀ left ∈ expected.map DiagnosticIdentityRelation.pair,
      ∀ right ∈ observed.map DiagnosticIdentityRelation.pair, left.1 < right.1 := by
    intro left hleft right hright
    obtain ⟨first, hfirst, rfl⟩ := List.mem_map.mp hleft
    obtain ⟨second, hsecond, rfl⟩ := List.mem_map.mp hright
    obtain ⟨slot, hslot⟩ := hexpected.named first hfirst
    obtain ⟨slot', hslot'⟩ := hobserved.named second hsecond
    rw [DiagnosticIdentityRelation.pair, DiagnosticIdentityRelation.pair, hslot, hslot']
    exact expected_lt_observed slot slot'
  have hsorted : ((expected ++ observed).map DiagnosticIdentityRelation.pair).Pairwise pair_le := by
    rw [List.map_append, List.pairwise_append]
    exact ⟨hexpected.sorted, hobserved.sorted, fun left hleft right hright => .inl (hbefore left hleft right hright)⟩
  simp only [validate_identity_relations, require_eq_ok_iff]
  refine ⟨hsorted.insertionSort_eq.symm, ?_⟩
  rw [List.map_append, List.nodup_append]
  refine ⟨hexpected.nodup, hobserved.nodup, ?_⟩
  intro left hleft right hright heq
  exact absurd (heq ▸ hbefore left hleft right hright) (lt_irrefl _)

variable [UnicodeData]

theorem validate_paths {expected observed : Option JointObservation}
    (hexpected : ∀ item ∈ expected, ∀ entry ∈ item.persistent, ∀ kind, require_rel_path kind entry.path = .ok ())
    (hobserved : ∀ item ∈ observed, ∀ entry ∈ item.persistent, ∀ kind, require_rel_path kind entry.path = .ok ()) :
    validate_diagnostic_paths (diagnostic_paths expected observed) = .ok () := by
  have hpaths : ∀ observation : Option JointObservation,
      (∀ item ∈ observation, ∀ entry ∈ item.persistent, ∀ kind, require_rel_path kind entry.path = .ok ()) →
      ∀ path ∈ (observation.map fun item => item.persistent.map PersistentObservation.path).getD [],
        ∀ kind, require_rel_path kind path = .ok () := by
    intro observation hobservation path hpath kind
    cases observation with
    | none => cases hpath
    | some item =>
      obtain ⟨entry, hentry, rfl⟩ := List.mem_map.mp hpath
      exact hobservation item rfl entry hentry kind
  unfold validate_diagnostic_paths diagnostic_paths
  rw [bind_eq_ok_iff]
  refine ⟨(), require_of ⟨sorted_by_self _, ?_⟩, forM_eq_ok_iff.mpr ?_⟩
  · rw [(sorted_by_perm id _).nodup_iff]
    exact List.nodup_dedup _
  · intro path hpath
    rw [mem_sorted_by, List.mem_dedup, List.mem_append] at hpath
    have hrelative : require_rel_path "halt_diagnostic.paths" path = .ok () := by
      rcases hpath with hpath | hpath
      · exact hpaths expected hexpected path hpath _
      · exact hpaths observed hobserved path hpath _
    rw [hrelative]

end diagnostics

namespace variants

variable {commit : CommitDecision} {state : JournalState} {observed : JointObservation}

variable [UnicodeData] {s : RecoverySnapshot} {effect : Effect} {d : EffectDecision}

end variants

variable [UnicodeData]

/-- An observation that a diagnostic of the snapshot can show: names that are planned, and entries that may be listed. -/
structure Presentable (s : RecoverySnapshot) (observation : JointObservation) : Prop where
  entries : ∀ entry ∈ observation.entries, ValidEntry entry
  planned : ∀ item ∈ observation.persistent, item.path ∈ s.compiled.paths

namespace diagnostics

variable {source : RecoverySnapshot} {reason : HaltReason} {projected : Option RecoverySnapshot}
  {effect_id : Option String} {expected observed : Option JointObservation} {d : HaltDiagnostic}

/-- A diagnostic of planned names passes its own check. -/
theorem diagnostic_valid (h : diagnostic source reason projected effect_id expected observed = .ok d)
    (hlive : source.transaction_state ≠ .HALTED) (hprojected : ∀ s ∈ projected, Frame source s)
    (hexpected : ∀ item ∈ expected, Presentable source item) (hobserved : ∀ item ∈ observed, Presentable source item) :
    snapshot.validate_halt_diagnostic (some d) = .ok () := by
  unfold diagnostic at h
  obtain ⟨expected_entries, hexpected_entries, h⟩ := bind_eq_ok_iff.mp h
  obtain ⟨observed_entries, hobserved_entries, h⟩ := bind_eq_ok_iff.mp h
  obtain ⟨expected_relations, hexpected_relations, h⟩ := bind_eq_ok_iff.mp h
  obtain ⟨observed_relations, hobserved_relations, h⟩ := bind_eq_ok_iff.mp h
  rw [pure_eq_ok_iff] at h
  subst h
  have hids : (projected.getD source).journals.map EffectJournalState.effect_id =
      source.journals.map EffectJournalState.effect_id := by
    cases projected with
    | none => rfl
    | some s =>
      rw [Option.getD_some, s.journal_ids, source.journal_ids, (hprojected s rfl).effects]
  simp only [snapshot.validate_halt_diagnostic, bind_eq_ok_iff, require_eq_ok_iff]
  refine ⟨(), hlive, (), hids, (), ?_, (), ?_, (), ?_, ?_⟩
  · apply validate_paths
    · intro item hitem entry hentry
      exact source.compiled.paths_relative ((hexpected item hitem).planned entry hentry)
    · intro item hitem entry hentry
      exact source.compiled.paths_relative ((hobserved item hitem).planned entry hentry)
  · exact project_entries_valid hexpected_entries (fun item hitem => (hexpected item hitem).entries) _
  · exact project_entries_valid hobserved_entries (fun item hitem => (hobserved item hitem).entries) _
  · exact validate_relations (project_identity_relations_related hexpected_relations)
      (project_identity_relations_related hobserved_relations)

/-- A diagnostic shows the durable state that it was made of. -/
theorem diagnostic_eq_ok (h : diagnostic source reason projected effect_id expected observed = .ok d) :
    d.pre_halt_state = source.transaction_state ∧ d.commit_decision = source.commit_decision ∧
      d.journals = source.journals := by
  unfold diagnostic at h
  obtain ⟨_, _, h⟩ := bind_eq_ok_iff.mp h
  obtain ⟨_, _, h⟩ := bind_eq_ok_iff.mp h
  obtain ⟨_, _, h⟩ := bind_eq_ok_iff.mp h
  obtain ⟨_, _, h⟩ := bind_eq_ok_iff.mp h
  rw [pure_eq_ok_iff] at h
  subst h
  exact ⟨rfl, rfl, rfl⟩

end diagnostics

namespace reducer

/-- The build relations of a snapshot are there where they are required. -/
theorem relation_isSome {s : RecoverySnapshot} {item : ScratchObservation} (hitem : item ∈ s.scratch_observations)
    (hrequired : snapshot.relation_required s.compiled s.journals s.persistent_observations item = true) :
    item.file_build_relation.isSome = true := by
  have h := s.accepted.2.2.2.2.1
  simp only [snapshot.validate_observations, bind_eq_ok_iff, forM_eq_ok_iff, require_eq_ok_iff] at h
  obtain ⟨_, _, _, _, hrelations⟩ := h
  rw [← hrelations item hitem, hrequired]

/-- A record that has not halted can be halted with a diagnostic of its own that passes its check. -/
theorem transition_to_halted_total {s : RecoverySnapshot} {d : HaltDiagnostic} (hlive : s.transaction_state ≠ .HALTED)
    (hpre : d.pre_halt_state = s.transaction_state) (hcommit : d.commit_decision = s.commit_decision)
    (hjournals : d.journals = s.journals) (hvalid : snapshot.validate_halt_diagnostic (some d) = .ok ()) :
    ∃ s', transition_transaction s ⟨s.transaction_state, .HALTED, none, some d⟩ = .ok s' := by
  have hrebuild : Rebuildable s
      { s.toSnapshotFields with
        transaction_state := .HALTED
        rollback_result := none
        halt_diagnostic := some d } := by
    refine ⟨rfl, rfl, rfl, rfl, rfl, s.observations_valid.1, s.observations_valid.2, fun item => relation_isSome, hvalid, ?_⟩
    simp [snapshot.validate_terminal_payloads, hcommit, hjournals]
  obtain ⟨s', hs'⟩ := rebuild_total hrebuild
  have hedge : transaction_recovery_edge s.transaction_state .HALTED = true := by
    cases hstate : s.transaction_state <;> first | rfl | exact absurd hstate hlive
  refine ⟨s', ?_⟩
  unfold transition_transaction
  rw [bind_eq_ok_iff]
  refine ⟨(), require_of rfl, ?_⟩
  rw [bind_eq_ok_iff]
  refine ⟨(), require_of hedge, ?_⟩
  rw [bind_eq_ok_iff]
  refine ⟨(), require_of rfl, ?_⟩
  rw [bind_eq_ok_iff]
  refine ⟨(), require_of ?_, hs'⟩
  intro _ other hother
  cases hother
  exact hpre

end reducer

namespace variants

variable {s : RecoverySnapshot} {d : EffectDecision}

end variants

namespace classifier

/-- A diagnostic of the source, whose evidence is what a snapshot of the same names holds. -/
def Diagnoses (source : RecoverySnapshot) (d : HaltDiagnostic) : Prop :=
  ∃ reason projected effect_id expected observed,
    diagnostics.diagnostic source reason projected effect_id expected observed = .ok d ∧
    (∀ s ∈ projected, Frame source s) ∧ (∀ item ∈ expected, Presentable source item) ∧
    ∀ item ∈ observed, Presentable source item

/-- A plan that halts the record of its source, or reports that it has halted. -/
structure Halts (source : RecoverySnapshot) (plan : HaltPlan) : Prop where
  bound : plan.bound_snapshot = source
  halted : source.transaction_state = .HALTED → plan.steps = [] ∧ source.halt_diagnostic = some plan.diagnostic
  live : source.transaction_state ≠ .HALTED → Diagnoses source plan.diagnostic ∧
    plan.steps = [⟨source.transaction_state, .HALTED, none, some plan.diagnostic⟩]

variable {source : RecoverySnapshot} {plan : HaltPlan}

theorem new_halt_plan_eq_ok {diagnostic : HaltDiagnostic} {steps : List TransitionTransactionState}
    (h : new_halt_plan source diagnostic steps = .ok (.HaltPlan plan)) :
    plan.bound_snapshot = source ∧ plan.diagnostic = diagnostic ∧ plan.steps = steps ∧
      (source.transaction_state = .HALTED → steps = [] ∧ source.halt_diagnostic = some diagnostic) := by
  unfold new_halt_plan at h
  obtain ⟨_, hrequire, h⟩ := bind_eq_ok_iff.mp h
  rw [pure_eq_ok_iff, RecoveryPlan.HaltPlan.injEq] at h
  subst h
  refine ⟨rfl, rfl, rfl, fun hhalted => ?_⟩
  rwa [require_eq_ok_iff, if_pos hhalted] at hrequire

/-- A diagnostic of the source shows its durable state and passes the check of a snapshot. -/
theorem Diagnoses.valid {d : HaltDiagnostic} (h : Diagnoses source d) (hlive : source.transaction_state ≠ .HALTED) :
    (d.pre_halt_state = source.transaction_state ∧ d.commit_decision = source.commit_decision ∧
      d.journals = source.journals) ∧ snapshot.validate_halt_diagnostic (some d) = .ok () := by
  obtain ⟨reason, projected, effect_id, expected, observed, hd, hprojected, hexpected, hobserved⟩ := h
  exact ⟨diagnostics.diagnostic_eq_ok hd, diagnostics.diagnostic_valid hd hlive hprojected hexpected hobserved⟩

/-- The one step of a plan that halts a record applies to it. -/
theorem Diagnoses.applies {d : HaltDiagnostic} (h : Diagnoses source d) (hlive : source.transaction_state ≠ .HALTED) :
    ∃ s', reducer.transition_transaction source ⟨source.transaction_state, .HALTED, none, some d⟩ = .ok s' := by
  obtain ⟨⟨hpre, hcommit, hjournals⟩, hvalid⟩ := h.valid hlive
  exact reducer.transition_to_halted_total hlive hpre hcommit hjournals hvalid

end classifier

end atoms.recovery
