import Atoms.Core.Compiler.Surfaces

open atoms.errors atoms.fingerprint atoms.effects atoms.paths atoms.spec atoms.timeline checked keyed

namespace atoms.compiler

section

variable [UnicodeData]

theorem require_fingerprint_relabel {what what' : String} {state : PathState}
    (h : require_fingerprint what state = .ok ()) : require_fingerprint what' state = .ok () := by
  cases state <;> simp_all [require_fingerprint, require_mode, bind_eq_ok_iff]

theorem require_rel_path_relabel {kind kind' : String} {value : RelPath} (h : require_rel_path kind value = .ok ()) :
    require_rel_path kind' value = .ok () := by
  simpa only [require_rel_path, bind_eq_ok_iff, require_eq_ok_iff, forM_eq_ok_iff, exists_const, exists_and_left] using h

omit [UnicodeData] in
/-- A check of each value under its label passes whatever the labels are. -/
theorem forM_relabel {α : Type} (check : String → α → Except AtomsError Unit)
    (hlabel : ∀ {what what' value}, check what value = .ok () → check what' value = .ok ())
    {items others : List (α × String)} (hsub : ∀ value ∈ others.map Prod.fst, value ∈ items.map Prod.fst)
    (h : (items.forM fun item => check item.2 item.1) = .ok ()) : (others.forM fun item => check item.2 item.1) = .ok () := by
  rw [forM_eq_ok_iff] at h ⊢
  intro other hother
  obtain ⟨item, hitem, heq⟩ := List.mem_map.mp (hsub _ (List.mem_map_of_mem hother))
  rw [← heq]
  exact hlabel (h item hitem)

omit [UnicodeData] in
theorem map_fst_surface_labels {α : Type} (label name : String) (get : SurfaceEntry → α) (surface : List SurfaceEntry) :
    (surface_labels label name get surface).map Prod.fst = surface.map get := by
  rw [surface_labels, List.map_map]
  conv_rhs => rw [← List.zipIdx_map_fst 0 surface, List.map_map]
  rfl

/-- What phase 7 asks of one dependency. -/
structure LegalDependency (order : List String) (dependency : Dependency) : Prop where
  before_mem : dependency.before ∈ order
  after_mem : dependency.after ∈ order
  distinct : dependency.before ≠ dependency.after
  ordered : order.idxOf dependency.before < order.idxOf dependency.after

theorem require_dependencies_eq_ok_iff {order : List String} {seen : List Dependency}
    {items : List (Dependency × Nat)} : require_dependencies order seen items = .ok () ↔
      (∀ item ∈ items, LegalDependency order item.1 ∧ item.1 ∉ seen) ∧ (items.map Prod.fst).Nodup := by
  induction items generalizing seen with
  | nil => simp [require_dependencies]
  | cons head rest ih =>
    obtain ⟨dependency, index⟩ := head
    simp only [require_dependencies, bind_eq_ok_iff, forM_eq_ok_iff, require_eq_ok_iff, ih, exists_const,
      List.forall_mem_cons, forall_eq, List.map_cons, List.nodup_cons, List.mem_append,
      List.mem_singleton, not_or, List.mem_map, not_exists, not_and]
    constructor
    · rintro ⟨⟨hbefore, hafter⟩, hdistinct, hseen, hordered, hrest, hnodup⟩
      exact ⟨⟨⟨⟨hbefore, hafter, hdistinct, hordered⟩, hseen⟩, fun item hitem => ⟨(hrest item hitem).1, (hrest item hitem).2.1⟩⟩,
        fun item hitem heq => (hrest item hitem).2.2 heq, hnodup⟩
    · rintro ⟨⟨⟨hlegal, hseen⟩, hrest⟩, hfresh, hnodup⟩
      exact ⟨⟨hlegal.before_mem, hlegal.after_mem⟩, hlegal.distinct, hseen, hlegal.ordered,
        fun item hitem => ⟨(hrest item hitem).1, (hrest item hitem).2, hfresh item hitem⟩, hnodup⟩

theorem require_distinct_entries_of {label : String} {seen : List RelPath} {entries : List SurfaceEntry}
    (hseen : ∀ entry ∈ entries, entry.path ∉ seen) (hnodup : (entries.map SurfaceEntry.path).Nodup) :
    require_distinct_entries label seen entries = .ok () := by
  induction entries generalizing seen with
  | nil => rfl
  | cons entry rest ih =>
    obtain ⟨hfresh, hnodup⟩ := List.nodup_cons.mp hnodup
    rw [require_distinct_entries, require_of (hseen entry List.mem_cons_self), ok_bind]
    refine ih (fun other hother => ?_) hnodup
    rw [List.mem_append, List.mem_singleton, not_or]
    exact ⟨hseen other (List.mem_cons_of_mem _ hother), fun heq => hfresh (heq ▸ List.mem_map_of_mem hother)⟩

theorem Phases.nodup {spec : TransactionSpec} {timelines : List PathTimeline} (h : Phases spec timelines) :
    (spec.initial_surface.map SurfaceEntry.path).Nodup ∧ (spec.final_surface.map SurfaceEntry.path).Nodup := by
  have hshape := h.surface_shape_ok
  simp only [phase8_surface_shape, bind_eq_ok_iff] at hshape
  obtain ⟨_, hinitial, hfinal⟩ := hshape
  exact ⟨(require_distinct_entries_nodup hinitial).2, (require_distinct_entries_nodup hfinal).2⟩

omit [UnicodeData] in
theorem surface_map_perm {surface other : List SurfaceEntry} (h : surface.Perm other)
    (hnodup : (surface.map SurfaceEntry.path).Nodup) : surface_map other = surface_map surface := by
  funext path
  rw [surface_map, surface_map, find_key_perm h hnodup]

omit [UnicodeData] in
theorem SurfaceTree.perm {surface other : List SurfaceEntry} (h : SurfaceTree surface) (hperm : surface.Perm other) :
    SurfaceTree other :=
  fun entry hentry above habove => h entry (hperm.mem_iff.mpr hentry) above (hperm.mem_iff.mpr habove)

end

/-- Two specs that differ in the order of their set-like members only. -/
structure Reordered (spec other : TransactionSpec) : Prop where
  ordered : other = { spec with
    initial_surface := other.initial_surface, final_surface := other.final_surface, dependencies := other.dependencies }
  initial_surface : spec.initial_surface.Perm other.initial_surface
  final_surface : spec.final_surface.Perm other.final_surface
  dependencies : spec.dependencies.Perm other.dependencies

theorem reordered_canonicalize (spec : TransactionSpec) : Reordered spec (canonicalize spec) where
  ordered := rfl
  initial_surface := (sorted_by_perm _ _).symm
  final_surface := (sorted_by_perm _ _).symm
  dependencies := (List.perm_insertionSort _ _).symm

section

variable [UnicodeData] {spec other : TransactionSpec} {timelines : List PathTimeline}

/-- Every phase passes whatever the order of the set-like members is. -/
theorem Phases.reorder (h : Phases spec timelines) (hother : Reordered spec other) : Phases other timelines := by
  obtain ⟨hordered, hinitial, hfinal, hdependencies⟩ := hother
  have heffects : other.effects = spec.effects := by rw [hordered]
  have hstates : ∀ state ∈ (every_state other).map Prod.fst, state ∈ (every_state spec).map Prod.fst := by
    simp only [every_state, List.map_append, map_fst_surface_labels, List.mem_append, heffects,
      (hinitial.map SurfaceEntry.state).mem_iff, (hfinal.map SurfaceEntry.state).mem_iff]
    exact fun _ => id
  have hpaths : ((declared_paths spec).map Prod.fst).Perm ((declared_paths other).map Prod.fst) := by
    simp only [declared_paths, List.map_append, map_fst_surface_labels, heffects]
    exact ((hinitial.map _).append (hfinal.map _)).append_right _
  have hnodup := h.nodup
  have hnodup' : (other.initial_surface.map SurfaceEntry.path).Nodup ∧ (other.final_surface.map SurfaceEntry.path).Nodup :=
    ⟨(hinitial.map _).nodup_iff.mp hnodup.1, (hfinal.map _).nodup_iff.mp hnodup.2⟩
  have hdistinct : sorted_by id ((declared_paths other).map Prod.fst).dedup =
      sorted_by id ((declared_paths spec).map Prod.fst).dedup :=
    (sorted_by_congr hpaths.dedup (by simpa using List.nodup_dedup _)).symm
  refine ⟨?_, ?_, ?_, ?_, ?_, ?_, ?_, ?_, ?_, ?_, ?_, ?_, ?_, ?_, ?_⟩
  · rw [hordered]
    exact h.structure_ok
  · obtain ⟨_, hall, heach⟩ := bind_eq_ok_iff.mp h.fingerprints_ok
    have hrelabelled := forM_relabel require_fingerprint require_fingerprint_relabel hstates hall
    refine bind_eq_ok_iff.mpr ⟨(), hrelabelled, ?_⟩
    rw [heffects]
    exact heach
  · exact forM_relabel require_rel_path require_rel_path_relabel (fun path hpath => hpaths.mem_iff.mpr hpath)
      h.path_grammar_ok
  · rw [phase4_alias_distinctness, hdistinct]
    exact h.alias_distinctness_ok
  · rw [phase5_variant_shapes, heffects]
    exact h.variant_shapes_ok
  · rw [phase6_unique_effect_ids, heffects]
    exact h.unique_effect_ids_ok
  · have hlegal := h.dependencies_ok
    rw [phase7_dependencies, require_dependencies_eq_ok_iff] at hlegal ⊢
    rw [List.zipIdx_map_fst] at hlegal ⊢
    rw [heffects]
    refine ⟨fun item hitem => ⟨?_, List.not_mem_nil⟩, hdependencies.nodup_iff.mp hlegal.2⟩
    have hmem := hdependencies.mem_iff.mpr (List.fst_mem_of_mem_zipIdx hitem)
    obtain ⟨index, hindex⟩ := List.mem_iff_getElem?.mp hmem
    exact (hlegal.1 (item.1, index) (List.mk_mem_zipIdx_iff_getElem?.mpr hindex)).1
  · rw [phase8_surface_shape, require_distinct_entries_of (fun _ _ => List.not_mem_nil) hnodup'.1, ok_bind]
    exact require_distinct_entries_of (fun _ _ => List.not_mem_nil) hnodup'.2
  · have hvalid := h.registration_ok
    have hsurfaces := (hinitial.append hfinal).map SurfaceEntry.path
    simp only [phase9_registration, validate_v2_members, bind_eq_ok_iff, require_eq_ok_iff, exists_const,
      hsurfaces.mem_iff] at hvalid ⊢
    rw [hordered]
    exact hvalid
  · rw [heffects]
    exact h.timelines_ok
  · have hcoverage := h.coverage_ok
    rw [phase10_coverage, bind_eq_ok_iff] at hcoverage ⊢
    obtain ⟨⟨⟩, hcoverage, hcoverage'⟩ := hcoverage
    rw [require_coverage_eq_ok_iff] at hcoverage hcoverage'
    simp only [(hinitial.map SurfaceEntry.path).mem_iff] at hcoverage
    simp only [(hfinal.map SurfaceEntry.path).mem_iff] at hcoverage'
    exact ⟨(), require_coverage_eq_ok_iff.mpr hcoverage, require_coverage_eq_ok_iff.mpr hcoverage'⟩
  · rw [phase11_endpoints, surface_map_perm hinitial hnodup.1, surface_map_perm hfinal hnodup.2]
    exact h.endpoints_ok
  · exact (phase12_surface_tree_eq_ok_iff hnodup'.1).mpr
      (((phase12_surface_tree_eq_ok_iff hnodup.1).mp h.initial_tree_ok).perm hinitial)
  · exact (phase12_surface_tree_eq_ok_iff hnodup'.2).mpr
      (((phase12_surface_tree_eq_ok_iff hnodup.2).mp h.final_tree_ok).perm hfinal)
  · rw [heffects]
    exact h.ancestor_ordering_ok

theorem Phases.compile (h : Phases spec timelines) : compile_phases spec = .ok timelines := by
  unfold compile_phases
  simp only [h.structure_ok, h.fingerprints_ok, h.path_grammar_ok, h.alias_distinctness_ok, h.variant_shapes_ok,
    h.unique_effect_ids_ok, h.dependencies_ok, h.surface_shape_ok, h.registration_ok, h.timelines_ok, h.coverage_ok,
    h.endpoints_ok, h.initial_tree_ok, h.final_tree_ok, h.ancestor_ordering_ok, ok_bind]
  rfl

omit [UnicodeData] in
theorem Dependency.le_total (left right : Dependency) : left.le right ∨ right.le left := by
  by_cases heq : left.before = right.before
  · exact (String.le_total left.after right.after).imp (fun h => .inr ⟨heq, h⟩) fun h => .inr ⟨heq.symm, h⟩
  · obtain hle | hge := String.le_total left.before right.before
    · exact .inl (.inl (String.not_le.mp fun hge => heq (String.le_antisymm hle hge)))
    · exact .inr (.inl (String.not_le.mp fun hle => heq (String.le_antisymm hle hge)))

omit [UnicodeData] in
theorem Dependency.le_trans {left middle right : Dependency} (h : left.le middle) (h' : middle.le right) :
    left.le right := by
  obtain hlt | ⟨heq, hle⟩ := h
  · obtain hlt' | ⟨heq', _⟩ := h'
    · exact .inl (String.lt_trans hlt hlt')
    · exact .inl (heq' ▸ hlt)
  · obtain hlt' | ⟨heq', hle'⟩ := h'
    · exact .inl (heq ▸ hlt')
    · exact .inr ⟨heq.trans heq', String.le_trans hle hle'⟩

omit [UnicodeData] in
theorem Dependency.le_antisymm {left right : Dependency} (h : left.le right) (h' : right.le left) : left = right := by
  obtain hlt | ⟨heq, hle⟩ := h
  · obtain hlt' | ⟨heq', _⟩ := h'
    · exact absurd (String.lt_trans hlt hlt') (String.lt_irrefl _)
    · exact absurd (heq' ▸ hlt) (String.lt_irrefl _)
  · obtain hlt' | ⟨_, hle'⟩ := h'
    · exact absurd (heq ▸ hlt') (String.lt_irrefl _)
    · cases left
      cases right
      cases heq
      cases String.le_antisymm hle hle'
      rfl

omit [UnicodeData] in
theorem sorted_dependencies_congr {left right : List Dependency} (h : left.Perm right) :
    left.insertionSort Dependency.le = right.insertionSort Dependency.le := by
  have htotal : Std.Total Dependency.le := ⟨Dependency.le_total⟩
  have htrans : IsTrans Dependency Dependency.le := ⟨fun _ _ _ => Dependency.le_trans⟩
  refine List.Perm.eq_of_pairwise (fun _ _ _ _ => Dependency.le_antisymm) (List.pairwise_insertionSort _ _)
    (List.pairwise_insertionSort _ _) ?_
  exact (List.perm_insertionSort _ _).trans (h.trans (List.perm_insertionSort _ _).symm)

/-- The order of the set-like members does not show in the canonical form. -/
theorem Phases.canonicalize_eq (h : Phases spec timelines) (hother : Reordered spec other) :
    canonicalize other = canonicalize spec := by
  have hordered := hother.ordered
  unfold canonicalize
  rw [hordered, sorted_by_congr hother.initial_surface h.nodup.1, sorted_by_congr hother.final_surface h.nodup.2,
    sorted_dependencies_congr hother.dependencies]

/-- A spec compiles to the same whatever the order of its set-like members is. -/
theorem compile_spec_reordered {compiled : CompiledSpec} (h : compile_spec spec = .ok compiled)
    (hother : Reordered spec other) : compile_spec other = .ok compiled := by
  obtain ⟨hphases, hspec⟩ := compile_spec_eq_ok h
  rw [compile_spec_of (hphases.reorder hother).compile]
  cases compiled
  cases hspec
  congr 2
  exact hphases.canonicalize_eq hother

end

end atoms.compiler
