import Atoms.Core.Compiler.Facts
import Atoms.Library.Changes
import Mathlib.Data.List.Chain

open atoms.errors atoms.fingerprint atoms.effects atoms.spec atoms.timeline checked keyed changes

namespace atoms.compiler

/-- The map after an effect that finds the state it declares at each of its paths. -/
def execute (m : RelPath → Option PathState) (effect : Effect) : Option (RelPath → Option PathState) :=
  if ∀ occurrence ∈ occurrences effect, m occurrence.path = some occurrence.pre then
    some fun path => ((occurrences effect).find? fun occurrence => occurrence.path = path).elim (m path)
      fun occurrence => some occurrence.post
  else none

/-- The map after the effects, executed in order. -/
def execute_all (m : RelPath → Option PathState) (effects : List Effect) : Option (RelPath → Option PathState) :=
  effects.foldlM execute m

/-- An occurrence as a change of the map. -/
def change_of (occurrence : Occurrence) : Change RelPath (Option PathState) :=
  ⟨occurrence.path, some occurrence.pre, some occurrence.post⟩

/-- A move leaves one path and reaches another. -/
def Moves (effects : List Effect) : Prop := ∀ e, Effect.MoveNoClobber e ∈ effects → e.source ≠ e.destination

theorem execute_singleton {effect : Effect} {occurrence : Occurrence} (h : occurrences effect = [occurrence])
    (m : RelPath → Option PathState) : execute m effect = (change_of occurrence).apply m := by
  simp only [execute, Change.apply, change_of, h, List.forall_mem_singleton]
  congr 2
  funext path
  by_cases hpath : occurrence.path = path
  · simp [hpath]
  · simp [hpath, Function.update_of_ne (Ne.symm hpath)]

theorem execute_move {e : MoveNoClobber} (hne : e.source ≠ e.destination) (m : RelPath → Option PathState) :
    execute m (.MoveNoClobber e) = run m ((occurrences (.MoveNoClobber e)).map change_of) := by
  simp only [execute, occurrences, List.map_cons, List.map_nil, run, List.foldlM_cons, List.foldlM_nil, Change.apply,
    change_of, List.forall_mem_cons, List.not_mem_nil, false_implies, implies_true, and_true]
  by_cases hsource : m e.source = some (.FileState e.source_pre)
  · by_cases hdestination : m e.destination = some ABSENT
    · have hdestination' : Function.update m e.source (some ABSENT) e.destination = some ABSENT := by
        rw [Function.update_of_ne (Ne.symm hne), hdestination]
      simp only [hsource, hdestination, hdestination', and_self, if_true, Option.bind_eq_bind, Option.bind_some]
      refine congrArg some (funext fun path => ?_)
      by_cases hpath : e.source = path
      · subst hpath
        simp [Function.update_of_ne hne]
      · by_cases hpath' : e.destination = path
        · subst hpath'
          simp [hpath]
        · simp [hpath, hpath', Function.update_of_ne (Ne.symm hpath), Function.update_of_ne (Ne.symm hpath')]
    · have hdestination' : ¬ Function.update m e.source (some ABSENT) e.destination = some ABSENT := by
        rw [Function.update_of_ne (Ne.symm hne)]
        exact hdestination
      simp [hsource, hdestination, hdestination']
  · simp [hsource]

theorem execute_eq_run {effect : Effect} (hmove : ∀ e, effect = .MoveNoClobber e → e.source ≠ e.destination)
    (m : RelPath → Option PathState) : execute m effect = run m ((occurrences effect).map change_of) := by
  cases effect with
  | MoveNoClobber e => exact execute_move (hmove e rfl) m
  | _ =>
    rw [execute_singleton (by rw [occurrences])]
    simp [run, occurrences]

/-- Executing the effects is making the changes of their occurrences. -/
theorem execute_all_eq_run {effects : List Effect} (hmoves : Moves effects) (m : RelPath → Option PathState) :
    execute_all m effects = run m ((effects.flatMap occurrences).map change_of) := by
  induction effects generalizing m with
  | nil => rfl
  | cons effect rest ih =>
    have hmove : ∀ e, effect = .MoveNoClobber e → e.source ≠ e.destination := by
      rintro e rfl
      exact hmoves e List.mem_cons_self
    rw [List.flatMap_cons, List.map_append, run_append, ← execute_eq_run hmove, execute_all, List.foldlM_cons]
    refine congrArg (Option.bind (execute m effect)) (funext fun m' => ?_)
    exact ih (fun e he => hmoves e (List.mem_cons_of_mem _ he)) m'

/-- What grouping collects for a path are the occurrences of the path, in effect order. -/
theorem grouped_changes (effects : List Effect) (path : RelPath) :
    (grouped effects path).map (fun occurrence => (occurrence.pre, occurrence.post)) =
      ((effects.flatMap occurrences).filter fun occurrence => occurrence.path = path).map
        fun occurrence => (occurrence.pre, occurrence.post) := by
  have hinner : ∀ item : Effect × Nat, ((effect_entries item.2 item.1).filterMap fun entry =>
      if entry.1 = path then some entry.2 else none).map (fun occurrence => (occurrence.pre, occurrence.post)) =
        ((occurrences item.1).filter fun occurrence => occurrence.path = path).map
          fun occurrence => (occurrence.pre, occurrence.post) := by
    intro item
    rw [effect_entries, List.filterMap_map, ← List.filterMap_eq_filter, List.map_filterMap, List.map_filterMap]
    refine List.filterMap_congr fun occurrence _ => ?_
    by_cases hpath : occurrence.path = path <;> simp [hpath, Option.guard]
  have houter : effects.flatMap (fun effect => ((occurrences effect).filter fun occurrence => occurrence.path = path).map
      fun occurrence => (occurrence.pre, occurrence.post)) = effects.zipIdx.flatMap fun item =>
        ((occurrences item.1).filter fun occurrence => occurrence.path = path).map
          fun occurrence => (occurrence.pre, occurrence.post) := by
    conv_lhs => rw [← List.zipIdx_map_fst 0 effects, List.flatMap_map]
  rw [grouped, timeline_entries, List.filterMap_flatMap, List.map_flatMap, List.filter_flatMap, List.map_flatMap, houter]
  exact List.flatMap_congr fun item _ => hinner item

/-- Some effect has an occurrence of the path. -/
def Touched (effects : List Effect) (path : RelPath) : Prop :=
  ∃ effect ∈ effects, ∃ occurrence ∈ occurrences effect, occurrence.path = path

/-- A surface declares the paths that the effects touch, and no other. -/
def Covers (effects : List Effect) (surface : List SurfaceEntry) : Prop :=
  ∀ path, path ∈ surface.map SurfaceEntry.path ↔ Touched effects path

/-- An occurrence of a timeline as a change of the map. -/
def change_at (path : RelPath) (item : TimelineOccurrence) : Change RelPath (Option PathState) :=
  ⟨path, some item.pre, some item.post⟩

/-- The occurrences of a path meet its declared states where they are continuous and have the declared ends. -/
theorem meet_occurrences_iff {path : RelPath} {items : List TimelineOccurrence} (hne : items ≠ [])
    {initial final : Option PathState} : Meet initial (items.map (change_at path)) final ↔
      (items.IsChain fun earlier later => earlier.post = later.pre) ∧ ∃ first last, items.head? = some first ∧
        items.getLast? = some last ∧ initial = some first.pre ∧ final = some last.post := by
  have hchain : (items.map (change_at path)).IsChain (fun earlier later => earlier.post = later.pre) ↔
      items.IsChain fun earlier later => earlier.post = later.pre := by
    simp only [List.isChain_map, change_at, Option.some.injEq]
  rw [meet_iff_of_ne_nil (List.map_eq_nil_iff.not.mpr hne), hchain, List.head_map, List.getLast_map,
    List.head?_eq_some_head hne, List.getLast?_eq_some_getLast hne]
  constructor
  · rintro ⟨hpre, hitems, hpost⟩
    exact ⟨hitems, _, _, rfl, rfl, hpre, hpost.symm⟩
  · rintro ⟨hitems, _, _, ⟨rfl⟩, ⟨rfl⟩, hpre, hpost⟩
    exact ⟨hpre, hitems, hpost.symm⟩

theorem mem_grouped_iff {effects : List Effect} {path : RelPath} : grouped effects path ≠ [] ↔ Touched effects path := by
  have hlength := congrArg List.length (grouped_changes effects path)
  rw [List.length_map, List.length_map] at hlength
  rw [← List.length_pos_iff, hlength, List.length_pos_iff_exists_mem]
  simp only [List.mem_filter, List.mem_flatMap, decide_eq_true_eq]
  constructor
  · rintro ⟨occurrence, ⟨effect, heffect, hmem⟩, hpath⟩
    exact ⟨effect, heffect, occurrence, hmem, hpath⟩
  · rintro ⟨effect, heffect, occurrence, hmem, hpath⟩
    exact ⟨occurrence, ⟨effect, heffect, hmem⟩, hpath⟩

/-- The effects execute from one map to another exactly when the occurrences of every path meet. -/
theorem execute_all_eq_some_iff {effects : List Effect} (hmoves : Moves effects)
    {initial final : RelPath → Option PathState} :
    execute_all initial effects = some final ↔
      ∀ path, Meet (initial path) ((grouped effects path).map (change_at path)) (final path) := by
  rw [execute_all_eq_run hmoves, run_eq_some_iff]
  refine forall_congr' fun path => meet_congr ?_
  have hpairs := congrArg (List.map (Prod.map some some)) (grouped_changes effects path)
  rw [List.map_map, List.map_map] at hpairs
  rw [List.filter_map, List.map_map, List.map_map]
  exact hpairs.symm

theorem surface_map_eq_none_iff {surface : List SurfaceEntry} {path : RelPath} :
    surface_map surface path = none ↔ path ∉ surface.map SurfaceEntry.path := by
  rw [surface_map, Option.map_eq_none_iff, find_key_eq_none_iff]
  simp

/-- The checks on the timelines accept exactly the effects that, executed in order from the initial
surface, find every state that they declare and end at the final surface. -/
theorem timelines_iff_execution [UnicodeData] {spec : TransactionSpec} (hmoves : Moves spec.effects)
    (hinitial : Covers spec.effects spec.initial_surface) (hfinal : Covers spec.effects spec.final_surface) :
    (∃ timelines, build_timelines spec.effects = .ok timelines ∧ phase10_coverage timelines spec = .ok () ∧
      phase11_endpoints timelines spec = .ok ()) ↔
      execute_all (surface_map spec.initial_surface) spec.effects = some (surface_map spec.final_surface) := by
  have htouched : ∀ path, path ∈ (timeline_entries spec.effects).map Prod.fst ↔ Touched spec.effects path := fun _ =>
    CompiledSpec.mem_timeline_entries_fst_iff
  have hmem : ∀ path, path ∈ sorted_by id ((timeline_entries spec.effects).map Prod.fst).dedup ↔
      Touched spec.effects path := fun path => by rw [mem_sorted_by, List.mem_dedup, htouched]
  rw [execute_all_eq_some_iff hmoves]
  simp only [build_timelines_eq_ok_iff, phase10_coverage, bind_eq_ok_iff, phase11_endpoints_eq_ok_iff,
    require_coverage_eq_ok_iff, htouched]
  constructor
  · rintro ⟨timelines, ⟨hchain, rfl⟩, _, hends⟩ path
    by_cases hpath : Touched spec.effects path
    · rw [meet_occurrences_iff (mem_grouped_iff.mpr hpath)]
      exact ⟨hchain path hpath, hends _ (List.mem_map_of_mem ((hmem path).mpr hpath))⟩
    · -- A path that no effect touches is declared by neither surface.
      rw [not_not.mp (mt mem_grouped_iff.mp hpath), surface_map_eq_none_iff.mpr (mt (hinitial path).mp hpath),
        surface_map_eq_none_iff.mpr (mt (hfinal path).mp hpath)]
      rfl
  · intro h
    have hmeet := fun path hpath => (meet_occurrences_iff (mem_grouped_iff.mpr hpath)).mp (h path)
    refine ⟨_, ⟨fun path hpath => (hmeet path hpath).1, rfl⟩, ⟨(), ?_⟩, ?_⟩
    · simp only [List.map_map, Function.comp_def, List.map_id']
      exact ⟨require_coverage_eq_ok_iff.mpr fun path => (hmem path).trans (hinitial path).symm,
        fun path => (hmem path).trans (hfinal path).symm⟩
    · intro timeline htimeline
      obtain ⟨path, hpath, rfl⟩ := List.mem_map.mp htimeline
      exact (hmeet path ((hmem path).mp hpath)).2

section

/-- The Unicode database on the ASCII texts of the fixed inputs below. -/
@[reducible] def ascii_names : UnicodeData where
  nfc := id
  nfd := id
  casefold := fun text => text.map Char.toLower
  is_printable := fun c => 32 ≤ c.toNat && c.toNat < 127

attribute [local instance] ascii_names

def empty_file : FileState := ⟨EMPTY_CONTENT_HASH, 0o644, 0⟩

/-- A move, whose destination is then deleted. -/
def moved_then_deleted : TransactionSpec where
  schema_version := 2
  consumer_tag := "tag"
  intent_digest := "sha256:0000000000000000000000000000000000000000000000000000000000000000"
  initial_surface := [⟨"a", .FileState empty_file⟩, ⟨"b", ABSENT⟩]
  final_surface := [⟨"a", ABSENT⟩, ⟨"b", ABSENT⟩]
  effects := [.MoveNoClobber ⟨"e1", "a", "b", empty_file⟩, .DeletePath ⟨"e2", "b", .FileState empty_file⟩]
  dependencies := []
  fulfills := none
  registered_paths := ["b"]

theorem moved_then_deleted_executes :
    execute_all (surface_map moved_then_deleted.initial_surface) moved_then_deleted.effects =
      some (surface_map moved_then_deleted.final_surface) := by
  refine (timelines_iff_execution ?_ ?_ ?_).mp ⟨_, rfl, by decide, by decide⟩
  · intro e he
    simp only [moved_then_deleted, List.mem_cons, List.not_mem_nil, or_false, reduceCtorEq, Effect.MoveNoClobber.injEq] at he
    subst he
    decide
  · intro path
    simp [moved_then_deleted, Touched, occurrences, eq_comm]
  · intro path
    simp [moved_then_deleted, Touched, occurrences, eq_comm]

end

end atoms.compiler
