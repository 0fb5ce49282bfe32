import Atoms.Core.Compiler

open atoms.errors atoms.fingerprint atoms.effects atoms.spec atoms.timeline checked keyed

namespace atoms.compiler

variable [UnicodeData]

/-- Every phase accepts `spec`, and the timelines are the ones that were built. -/
structure Phases (spec : TransactionSpec) (timelines : List PathTimeline) : Prop where
  structure_ok : phase1_structure spec = .ok ()
  fingerprints_ok : phase2_fingerprints spec = .ok ()
  path_grammar_ok : phase3_path_grammar spec = .ok ()
  alias_distinctness_ok : phase4_alias_distinctness spec = .ok ()
  variant_shapes_ok : phase5_variant_shapes spec = .ok ()
  unique_effect_ids_ok : phase6_unique_effect_ids spec = .ok ()
  dependencies_ok : phase7_dependencies spec = .ok ()
  surface_shape_ok : phase8_surface_shape spec = .ok ()
  registration_ok : phase9_registration spec = .ok ()
  timelines_ok : build_timelines spec.effects = .ok timelines
  coverage_ok : phase10_coverage timelines spec = .ok ()
  endpoints_ok : phase11_endpoints timelines spec = .ok ()
  initial_tree_ok : phase12_surface_tree spec.initial_surface "initial_surface" = .ok ()
  final_tree_ok : phase12_surface_tree spec.final_surface "final_surface" = .ok ()
  ancestor_ordering_ok : phase13_ancestor_ordering spec.effects = .ok ()

theorem compile_phases_eq_ok {spec : TransactionSpec} {timelines : List PathTimeline}
    (h : compile_phases spec = .ok timelines) : Phases spec timelines := by
  unfold compile_phases at h
  simp only [bind_eq_ok_iff, pure_eq_ok_iff] at h
  obtain ⟨_, h1, _, h2, _, h3, _, h4, _, h5, _, h6, _, h7, _, h8, _, h9, _, ht, _, h10, _, h11, _, h12, _, h12', _, h13,
    rfl⟩ := h
  exact ⟨h1, h2, h3, h4, h5, h6, h7, h8, h9, ht, h10, h11, h12, h12', h13⟩

/-- What `compile_spec` returns: the spec passes every phase and is put in canonical form. -/
theorem compile_spec_eq_ok {spec : TransactionSpec} {compiled : CompiledSpec} (h : compile_spec spec = .ok compiled) :
    Phases spec compiled.timelines ∧ compiled.spec = canonicalize spec := by
  unfold compile_spec at h
  split at h
  · rename_i timelines hphases
    cases h
    exact ⟨compile_phases_eq_ok hphases, rfl⟩
  · cases h

theorem compile_spec_of {spec : TransactionSpec} {timelines : List PathTimeline}
    (h : compile_phases spec = .ok timelines) : compile_spec spec = .ok ⟨canonicalize spec, timelines, spec, h, rfl⟩ := by
  unfold compile_spec
  split
  · rename_i timelines' h'
    cases h.symm.trans h'
    rfl
  · rename_i error h'
    cases h.symm.trans h'

theorem require_unique_ids_nodup {seen ids : List String} (h : require_unique_ids seen ids = .ok ()) :
    (∀ id ∈ ids, id ∉ seen) ∧ ids.Nodup := by
  induction ids generalizing seen with
  | nil => simp
  | cons id ids ih =>
    simp only [require_unique_ids, bind_eq_ok_iff, require_eq_ok_iff] at h
    obtain ⟨_, hnew, _, _, hrest⟩ := h
    obtain ⟨hseen, hnodup⟩ := ih hrest
    refine ⟨?_, List.nodup_cons.mpr ⟨fun hmem => hseen id hmem (by simp), hnodup⟩⟩
    intro other hother
    rcases List.mem_cons.mp hother with rfl | hmem
    · exact hnew
    · exact fun hmem' => hseen other hmem (by simp [hmem'])

theorem require_distinct_entries_nodup {label : String} {seen : List RelPath} {entries : List SurfaceEntry}
    (h : require_distinct_entries label seen entries = .ok ()) :
    (∀ entry ∈ entries, entry.path ∉ seen) ∧ (entries.map SurfaceEntry.path).Nodup := by
  induction entries generalizing seen with
  | nil => simp
  | cons entry entries ih =>
    simp only [require_distinct_entries, bind_eq_ok_iff, require_eq_ok_iff] at h
    obtain ⟨_, hnew, hrest⟩ := h
    obtain ⟨hseen, hnodup⟩ := ih hrest
    refine ⟨?_, ?_⟩
    · intro other hother
      rcases List.mem_cons.mp hother with rfl | hmem
      · exact hnew
      · exact fun hmem' => hseen other hmem (by simp [hmem'])
    · rw [List.map_cons, List.nodup_cons, List.mem_map]
      refine ⟨?_, hnodup⟩
      rintro ⟨other, hmem, heq⟩
      exact hseen other hmem (by simp [heq])

/-- Phase 10 accepts a surface that declares the touched paths and no other. -/
theorem require_coverage_eq_ok_iff {effect_paths : List RelPath} {label : String} {surface : List SurfaceEntry} :
    require_coverage effect_paths label surface = .ok () ↔
      ∀ path, path ∈ effect_paths ↔ path ∈ surface.map SurfaceEntry.path := by
  have hnil : ∀ paths : List RelPath, sorted_by id paths = [] ↔ paths = [] := fun paths =>
    ⟨fun h => (h ▸ sorted_by_perm id paths).symm.eq_nil, fun h => by rw [h]; rfl⟩
  simp only [require_coverage, bind_eq_ok_iff, require_eq_ok_iff, exists_const, hnil, List.filter_eq_nil_iff,
    decide_eq_true_eq, not_not, List.mem_dedup]
  exact ⟨fun ⟨homits, huntouched⟩ path => ⟨homits path, huntouched path⟩,
    fun h => ⟨fun path => (h path).mp, fun path => (h path).mpr⟩⟩

/-- Phase 11 accepts timelines that start and end at the declared states. -/
theorem phase11_endpoints_eq_ok_iff {timelines : List PathTimeline} {spec : TransactionSpec} :
    phase11_endpoints timelines spec = .ok () ↔ ∀ timeline ∈ timelines, ∃ first last,
      timeline.occurrences.head? = some first ∧ timeline.occurrences.getLast? = some last ∧
      surface_map spec.initial_surface timeline.path = some first.pre ∧
      surface_map spec.final_surface timeline.path = some last.post := by
  rw [phase11_endpoints, forM_eq_ok_iff]
  refine forall_congr' fun timeline => forall_congr' fun _ => ?_
  split
  · rename_i first last initial final hfirst hlast hinitial hfinal
    simp only [bind_eq_ok_iff, require_eq_ok_iff, exists_const, hfirst, hlast, hinitial, hfinal, Option.some.injEq,
      eq_comm (a := initial), eq_comm (a := final)]
    simp
  · rename_i hnone
    refine iff_of_false throw_ne_ok ?_
    rintro ⟨first, last, hfirst, hlast, hinitial, hfinal⟩
    exact hnone _ _ _ _ hfirst hlast hinitial hfinal

omit [UnicodeData] in
/-- Sorting a surface does not change what it declares, because its paths are distinct. -/
theorem surface_map_sorted {surface : List SurfaceEntry} (hnodup : (surface.map SurfaceEntry.path).Nodup)
    (path : RelPath) : surface_map (sorted_by SurfaceEntry.path surface) path = surface_map surface path := by
  have hperm := sorted_by_perm SurfaceEntry.path surface
  have hsorted : ((sorted_by SurfaceEntry.path surface).map SurfaceEntry.path).Nodup :=
    (hperm.map _).nodup_iff.mpr hnodup
  unfold surface_map
  congr 1
  apply Option.ext
  intro entry
  rw [find_key_eq_some_iff hsorted, find_key_eq_some_iff hnodup, hperm.mem_iff]

namespace CompiledSpec

variable (compiled : CompiledSpec)

abbrev effects : List Effect := compiled.spec.effects

abbrev paths : List RelPath := compiled.timelines.map PathTimeline.path

theorem exists_phases : ∃ source, Phases source compiled.timelines ∧ canonicalize source = compiled.spec ∧
    source.effects = compiled.effects := by
  obtain ⟨source, hphases, hspec⟩ := compiled.issued
  exact ⟨source, compile_phases_eq_ok hphases, hspec, by rw [effects, ← hspec]; rfl⟩

theorem effect_ids_nodup : (compiled.effects.map Effect.effect_id).Nodup := by
  obtain ⟨source, hphases, hspec, heffects⟩ := compiled.exists_phases
  rw [← heffects]
  exact (require_unique_ids_nodup hphases.unique_effect_ids_ok).2

theorem timelines_eq : compiled.timelines =
    (sorted_by id ((timeline_entries compiled.effects).map Prod.fst).dedup).map fun path =>
      { path := path, occurrences := grouped compiled.effects path } := by
  obtain ⟨source, hphases, hspec, heffects⟩ := compiled.exists_phases
  rw [← heffects]
  exact (build_timelines_eq_ok_iff.mp hphases.timelines_ok).2.symm

theorem paths_eq : compiled.paths = sorted_by id ((timeline_entries compiled.effects).map Prod.fst).dedup := by
  rw [paths, timelines_eq, List.map_map]
  simp [Function.comp_def]

theorem paths_nodup : compiled.paths.Nodup := by
  rw [paths_eq]
  exact (sorted_by_perm id _).nodup_iff.mpr (List.nodup_dedup _)

omit [UnicodeData] in
theorem mem_timeline_entries_fst_iff {effects : List Effect} {path : RelPath} :
    path ∈ (timeline_entries effects).map Prod.fst ↔
      ∃ effect ∈ effects, ∃ occurrence ∈ occurrences effect, occurrence.path = path := by
  unfold timeline_entries effect_entries
  simp only [List.mem_map, List.mem_flatMap, Prod.exists]
  constructor
  · rintro ⟨_, _, ⟨effect, index, hmem, occurrence, hocc, heq⟩, rfl⟩
    cases heq
    exact ⟨effect, List.fst_mem_of_mem_zipIdx hmem, occurrence, hocc, rfl⟩
  · rintro ⟨effect, hmem, occurrence, hocc, rfl⟩
    obtain ⟨index, hindex, rfl⟩ := List.mem_iff_getElem.mp hmem
    exact ⟨_, _, ⟨_, index, List.mk_mem_zipIdx_iff_getElem?.mpr (List.getElem?_eq_getElem hindex), _, hocc, rfl⟩,
      rfl⟩

/-- The planned paths are exactly the paths that some effect touches. -/
theorem mem_paths_iff {path : RelPath} :
    path ∈ compiled.paths ↔ ∃ effect ∈ compiled.effects, ∃ occurrence ∈ occurrences effect, occurrence.path = path := by
  rw [paths_eq, mem_sorted_by, List.mem_dedup, mem_timeline_entries_fst_iff]

theorem mem_timelines_iff {timeline : PathTimeline} : timeline ∈ compiled.timelines ↔
    timeline.path ∈ compiled.paths ∧ timeline.occurrences = grouped compiled.effects timeline.path := by
  rw [paths_eq]
  conv_lhs => rw [timelines_eq]
  rw [List.mem_map]
  constructor
  · rintro ⟨path, hpath, rfl⟩
    exact ⟨hpath, rfl⟩
  · rintro ⟨hpath, hocc⟩
    refine ⟨_, hpath, ?_⟩
    cases timeline
    simp_all

/-- Neighbouring occurrences of one path meet. -/
theorem timeline_continuous (path : RelPath) :
    (grouped compiled.effects path).IsChain fun earlier later => earlier.post = later.pre := by
  obtain ⟨source, hphases, hspec, heffects⟩ := compiled.exists_phases
  have hchain := (build_timelines_eq_ok_iff.mp hphases.timelines_ok).1
  rw [← heffects]
  by_cases hpath : path ∈ (timeline_entries source.effects).map Prod.fst
  · exact hchain path hpath
  · have hnil : grouped source.effects path = [] := by
      unfold grouped
      rw [List.filterMap_eq_nil_iff]
      rintro ⟨owner, occurrence⟩ hmem
      have hne : owner ≠ path := by
        rintro rfl
        exact hpath (List.mem_map_of_mem hmem)
      simp [hne]
    rw [hnil]
    exact .nil

theorem move_distinct {e : MoveNoClobber} (hmem : Effect.MoveNoClobber e ∈ compiled.effects) :
    e.source ≠ e.destination := by
  obtain ⟨source, hphases, hspec, heffects⟩ := compiled.exists_phases
  have hshapes := hphases.variant_shapes_ok
  unfold phase5_variant_shapes at hshapes
  rw [forM_eq_ok_iff] at hshapes
  rw [← heffects] at hmem
  obtain ⟨index, hindex, heq⟩ := List.mem_iff_getElem.mp hmem
  have hshape := hshapes (Effect.MoveNoClobber e, index)
    (List.mk_mem_zipIdx_iff_getElem?.mpr (by rw [← heq]; exact List.getElem?_eq_getElem hindex))
  simp only [bind_eq_ok_iff, require_eq_ok_iff] at hshape
  obtain ⟨_, _, hne⟩ := hshape
  exact hne

/-- The paths of one effect's occurrences are distinct. -/
theorem occurrence_paths_nodup {effect : Effect} (hmem : effect ∈ compiled.effects) :
    ((occurrences effect).map Occurrence.path).Nodup := by
  cases effect with
  | MoveNoClobber e => simpa [occurrences] using compiled.move_distinct hmem
  | _ => simp [occurrences]

/-- A planned path starts at the state that the initial surface declares and ends
at the state that the final surface declares. -/
theorem surface_endpoints {path : RelPath} (hpath : path ∈ compiled.paths) :
    ∃ first last, (grouped compiled.effects path).head? = some first ∧
      (grouped compiled.effects path).getLast? = some last ∧
      surface_map compiled.spec.initial_surface path = some first.pre ∧
      surface_map compiled.spec.final_surface path = some last.post := by
  obtain ⟨source, hphases, hspec, heffects⟩ := compiled.exists_phases
  obtain ⟨timeline, htimeline, rfl⟩ := List.mem_map.mp hpath
  have hocc := (compiled.mem_timelines_iff.mp htimeline).2
  have hshape := hphases.surface_shape_ok
  simp only [phase8_surface_shape, bind_eq_ok_iff] at hshape
  obtain ⟨_, hinitial, hfinal⟩ := hshape
  obtain ⟨first, last, hfirst, hlast, hpre, hpost⟩ := phase11_endpoints_eq_ok_iff.mp hphases.endpoints_ok _ htimeline
  rw [← hspec, ← hocc]
  refine ⟨first, last, hfirst, hlast, ?_, ?_⟩
  · exact (surface_map_sorted (require_distinct_entries_nodup hinitial).2 _).trans hpre
  · exact (surface_map_sorted (require_distinct_entries_nodup hfinal).2 _).trans hpost

end CompiledSpec

end atoms.compiler
