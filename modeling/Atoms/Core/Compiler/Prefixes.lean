import Atoms.Core.Compiler.Sequential

open atoms.errors atoms.fingerprint atoms.effects atoms.spec atoms.timeline checked

namespace atoms.compiler

variable {m m' : RelPath → Option PathState} {effect : Effect} {path : RelPath}

theorem execute_eq_some (h : execute m effect = some m') :
    (∀ occurrence ∈ occurrences effect, m occurrence.path = some occurrence.pre) ∧
      ∀ path, m' path = ((occurrences effect).find? fun occurrence => occurrence.path = path).elim (m path)
        fun occurrence => some occurrence.post := by
  unfold execute at h
  split at h
  · rename_i hpre
    cases h
    exact ⟨hpre, fun _ => rfl⟩
  · cases h

theorem execute_frame (h : execute m effect = some m')
    (hpath : ∀ occurrence ∈ occurrences effect, occurrence.path ≠ path) : m' path = m path := by
  have hnone : ((occurrences effect).find? fun occurrence => occurrence.path = path) = none := by
    rw [List.find?_eq_none]
    intro occurrence hmem
    simpa using hpath occurrence hmem
  rw [(execute_eq_some h).2 path, hnone, Option.elim_none]

/-- No effect takes a directory away, or starts from one. -/
theorem occurrence_pre_ne_directory {occurrence : Occurrence} (hmem : occurrence ∈ occurrences effect)
    (state : DirectoryState) : occurrence.pre ≠ .DirectoryState state := by
  cases effect with
  | DeletePath e =>
    simp only [occurrences, List.mem_singleton] at hmem
    subst hmem
    cases hpre : e.pre <;> simp [DeletableState.state]
  | MoveNoClobber e =>
    simp only [occurrences, List.mem_cons, List.not_mem_nil, or_false] at hmem
    rcases hmem with rfl | rfl <;> simp [ABSENT]
  | _ =>
    simp only [occurrences, List.mem_singleton] at hmem
    subst hmem
    simp [ABSENT]

theorem execute_keeps_directory (h : execute m effect = some m') {state : DirectoryState}
    (hdirectory : m path = some (.DirectoryState state)) : m' path = some (.DirectoryState state) := by
  rw [execute_frame h, hdirectory]
  rintro occurrence hmem rfl
  have hpre := (execute_eq_some h).1 occurrence hmem
  rw [hdirectory, Option.some.injEq] at hpre
  exact occurrence_pre_ne_directory hmem state hpre.symm

theorem execute_creates {e : CreateDirectory} (h : execute m (.CreateDirectory e) = some m') :
    m' e.path = some (.DirectoryState e.post) := by
  rw [(execute_eq_some h).2]
  simp [occurrences]

theorem Touched.mono {effects others : List Effect} (h : Touched effects path) (hsub : effects ⊆ others) :
    Touched others path :=
  h.imp fun _ hmem => ⟨hsub hmem.1, hmem.2⟩

theorem execute_all_append (m : RelPath → Option PathState) (done rest : List Effect) :
    execute_all m (done ++ rest) = (execute_all m done).bind fun between => execute_all between rest :=
  List.foldlM_append

/-- A path that no effect touches keeps its state. -/
theorem execute_all_frame {effects : List Effect} (h : execute_all m effects = some m')
    (hpath : ¬ Touched effects path) : m' path = m path := by
  induction effects generalizing m with
  | nil =>
    cases h
    rfl
  | cons effect rest ih =>
    obtain ⟨between, hstep, hrest⟩ := Option.bind_eq_some_iff.mp h
    have hhead : between path = m path := execute_frame hstep fun occurrence hmem heq =>
      hpath ⟨effect, List.mem_cons_self, occurrence, hmem, heq⟩
    rw [← hhead]
    exact ih hrest fun ⟨other, hother, htouched⟩ => hpath ⟨other, List.mem_cons_of_mem _ hother, htouched⟩

/-- A directory stays one. -/
theorem execute_all_keeps_directory {effects : List Effect} (h : execute_all m effects = some m')
    {state : DirectoryState} (hdirectory : m path = some (.DirectoryState state)) :
    m' path = some (.DirectoryState state) := by
  induction effects generalizing m with
  | nil =>
    cases h
    exact hdirectory
  | cons effect rest ih =>
    obtain ⟨between, hstep, hrest⟩ := Option.bind_eq_some_iff.mp h
    exact ih hrest (execute_keeps_directory hstep hdirectory)

/-- Once its effect has been executed, a created directory is there. -/
theorem execute_all_creates {effects : List Effect} (h : execute_all m effects = some m') {e : CreateDirectory}
    (hmem : Effect.CreateDirectory e ∈ effects) : m' e.path = some (.DirectoryState e.post) := by
  obtain ⟨done, rest, rfl⟩ := List.append_of_mem hmem
  rw [execute_all_append] at h
  obtain ⟨between, _, hrest⟩ := Option.bind_eq_some_iff.mp h
  obtain ⟨after, hstep, hrest⟩ := Option.bind_eq_some_iff.mp hrest
  exact execute_all_keeps_directory hrest (execute_creates hstep)

/-- Effects that can all be executed can be executed up to any point. -/
theorem execute_all_take {effects : List Effect} (h : execute_all m effects = some m') (n : Nat) :
    ∃ between, execute_all m (effects.take n) = some between := by
  rw [← List.take_append_drop n effects, execute_all_append] at h
  obtain ⟨between, hdone, _⟩ := Option.bind_eq_some_iff.mp h
  exact ⟨between, hdone⟩

namespace CompiledSpec

variable [UnicodeData] (compiled : CompiledSpec)

/-- Both surfaces declare the paths that the effects touch. -/
theorem covers : Covers compiled.effects compiled.spec.initial_surface ∧
    Covers compiled.effects compiled.spec.final_surface := by
  obtain ⟨source, hphases, hspec, heffects⟩ := compiled.exists_phases
  have hcoverage := hphases.coverage_ok
  simp only [phase10_coverage, bind_eq_ok_iff] at hcoverage
  obtain ⟨_, hinitial, hfinal⟩ := hcoverage
  have hsorted : ∀ {surface : List SurfaceEntry} {label : String},
      require_coverage compiled.paths label surface = .ok () →
      Covers compiled.effects (sorted_by SurfaceEntry.path surface) := by
    intro surface label hcover path
    rw [((sorted_by_perm _ _).map _).mem_iff, ← require_coverage_eq_ok_iff.mp hcover path]
    exact compiled.mem_paths_iff
  rw [← hspec]
  exact ⟨hsorted hinitial, hsorted hfinal⟩

/-- The effects of a compiled spec execute from its initial surface to its final one. -/
theorem executes : execute_all (surface_map compiled.spec.initial_surface) compiled.effects =
    some (surface_map compiled.spec.final_surface) := by
  rw [execute_all_eq_some_iff fun _ hmem => compiled.move_distinct hmem]
  intro path
  by_cases hpath : Touched compiled.effects path
  · rw [meet_occurrences_iff (mem_grouped_iff.mpr hpath)]
    exact ⟨compiled.timeline_continuous path, compiled.surface_endpoints (compiled.mem_paths_iff.mpr hpath)⟩
  · rw [not_not.mp (mt mem_grouped_iff.mp hpath), surface_map_eq_none_iff.mpr (mt (compiled.covers.1 path).mp hpath),
      surface_map_eq_none_iff.mpr (mt (compiled.covers.2 path).mp hpath)]
    rfl

end CompiledSpec

end atoms.compiler
