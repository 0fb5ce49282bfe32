import Atoms.Core.Spec

open atoms.errors atoms.fingerprint atoms.effects atoms.spec checked

namespace atoms.timeline

/-- One effect's transition of one path, with its position in the effect order. -/
structure TimelineOccurrence where
  effect_id : String
  effect_index : Nat
  role : String
  pre : PathState
  post : PathState
  deriving DecidableEq

/-- Every occurrence touching one path, in authoritative order. -/
structure PathTimeline where
  path : RelPath
  occurrences : List TimelineOccurrence
  deriving DecidableEq

/-- The occurrences of one effect under their paths. -/
def effect_entries (index : Nat) (effect : Effect) : List (RelPath × TimelineOccurrence) :=
  (occurrences effect).map fun occurrence =>
    (occurrence.path,
      { effect_id := effect.effect_id, effect_index := index, role := occurrence.role,
        pre := occurrence.pre, post := occurrence.post })

/-- Every occurrence of the effects under its path, in effect order. -/
def timeline_entries (effects : List Effect) : List (RelPath × TimelineOccurrence) :=
  effects.zipIdx.flatMap fun (effect, index) => effect_entries index effect

/-- The list that grouping by path collects for `path`. -/
def grouped (effects : List Effect) (path : RelPath) : List TimelineOccurrence :=
  (timeline_entries effects).filterMap fun (owner, occurrence) =>
    if owner = path then some occurrence else none

variable [UnicodeData]

/-- Refuse the first pair of neighbours where the later one does not start where the earlier one ends. -/
def require_continuous (path : RelPath) : List TimelineOccurrence → Except AtomsError Unit
  | earlier :: later :: rest => do
    require (earlier.post = later.pre) (.SpecValidationError ("path " ++ py_repr path ++
      " has a discontinuous timeline: effect " ++ py_repr earlier.effect_id ++ " leaves it " ++
      earlier.post.py_repr ++ " but effect " ++ py_repr later.effect_id ++ " declares a precondition of " ++
      later.pre.py_repr))
    require_continuous path (later :: rest)
  | _ => .ok ()

/-- Group occurrences by path and require a continuous timeline for each. -/
def build_timelines (effects : List Effect) : Except AtomsError (List PathTimeline) :=
  (sorted_by id ((timeline_entries effects).map Prod.fst).dedup).mapM fun path => do
    require_continuous path (grouped effects path)
    pure { path := path, occurrences := grouped effects path }

theorem require_continuous_eq_ok_iff {path : RelPath} {items : List TimelineOccurrence} {u : Unit} :
    require_continuous path items = .ok u ↔ items.IsChain fun earlier later => earlier.post = later.pre := by
  induction items with
  | nil => simp [require_continuous]
  | cons earlier rest ih =>
    cases rest with
    | nil => simp [require_continuous]
    | cons later rest => simp [require_continuous, bind_eq_ok_iff, ih]

/-- The timelines that compilation returns: one for each touched path, each with its occurrences in effect order. -/
theorem build_timelines_eq_ok_iff {effects : List Effect} {timelines : List PathTimeline} :
    build_timelines effects = .ok timelines ↔
      (∀ path ∈ (timeline_entries effects).map Prod.fst,
        (grouped effects path).IsChain fun earlier later => earlier.post = later.pre) ∧
      (sorted_by id ((timeline_entries effects).map Prod.fst).dedup).map (fun path =>
        { path := path, occurrences := grouped effects path : PathTimeline }) = timelines := by
  rw [build_timelines, mapM_eq_ok_iff_map
    (C := fun path => (grouped effects path).IsChain fun earlier later => earlier.post = later.pre)
    (g := fun path => { path := path, occurrences := grouped effects path })]
  · simp only [mem_sorted_by, List.mem_dedup]
  · intro path timeline
    simp only [bind_eq_ok_iff, require_continuous_eq_ok_iff, exists_and_left, pure_eq_ok_iff, exists_const]

end atoms.timeline
