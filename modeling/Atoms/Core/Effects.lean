import Atoms.Core.Fingerprint

open atoms.fingerprint

namespace atoms.effects

abbrev RelPath := String

structure ReplaceFile where
  effect_id : String
  path : RelPath
  pre : FileState
  post : FileState
  deriving DecidableEq

structure CreateFileNoClobber where
  effect_id : String
  path : RelPath
  post : FileState
  deriving DecidableEq

/-- The two states a deletion may declare: `FileState | SymlinkState`. -/
inductive DeletableState
  | FileState (state : FileState)
  | SymlinkState (state : SymlinkState)
  deriving DecidableEq

def DeletableState.state : DeletableState → PathState
  | .FileState s => .FileState s
  | .SymlinkState s => .SymlinkState s

structure DeletePath where
  effect_id : String
  path : RelPath
  pre : DeletableState
  deriving DecidableEq

structure MoveNoClobber where
  effect_id : String
  source : RelPath
  destination : RelPath
  source_pre : FileState
  deriving DecidableEq

structure CreateDirectory where
  effect_id : String
  path : RelPath
  post : DirectoryState
  deriving DecidableEq

/-- The closed effect set. -/
inductive Effect
  | ReplaceFile (effect : ReplaceFile)
  | CreateFileNoClobber (effect : CreateFileNoClobber)
  | DeletePath (effect : DeletePath)
  | MoveNoClobber (effect : MoveNoClobber)
  | CreateDirectory (effect : CreateDirectory)
  deriving DecidableEq

def Effect.effect_id : Effect → String
  | .ReplaceFile e => e.effect_id
  | .CreateFileNoClobber e => e.effect_id
  | .DeletePath e => e.effect_id
  | .MoveNoClobber e => e.effect_id
  | .CreateDirectory e => e.effect_id

/-- One path's transition within a single effect. -/
structure Occurrence where
  path : RelPath
  pre : PathState
  post : PathState
  role : String
  deriving DecidableEq

def occurrences : Effect → List Occurrence
  | .ReplaceFile e => [{ path := e.path, pre := e.pre, post := e.post, role := "target" }]
  | .CreateFileNoClobber e => [{ path := e.path, pre := ABSENT, post := e.post, role := "target" }]
  | .DeletePath e => [{ path := e.path, pre := e.pre.state, post := ABSENT, role := "target" }]
  | .MoveNoClobber e =>
    [{ path := e.source, pre := e.source_pre, post := ABSENT, role := "source" },
      { path := e.destination, pre := ABSENT, post := e.source_pre, role := "destination" }]
  | .CreateDirectory e => [{ path := e.path, pre := ABSENT, post := e.post, role := "target" }]

/-- Every state an effect declares on a path has a kind of its own on each side, except for a replacement. -/
theorem occurrence_pre_ne_post {effect : Effect} {occurrence : Occurrence}
    (hmem : occurrence ∈ occurrences effect) (hreplace : ∀ e, effect ≠ .ReplaceFile e) :
    occurrence.pre ≠ occurrence.post := by
  cases effect with
  | ReplaceFile e => exact absurd rfl (hreplace e)
  | DeletePath e =>
    simp only [occurrences, List.mem_singleton] at hmem
    subst hmem
    cases hpre : e.pre <;> simp [DeletableState.state, ABSENT]
  | MoveNoClobber e =>
    simp only [occurrences, List.mem_cons, List.not_mem_nil, or_false] at hmem
    rcases hmem with rfl | rfl <;> simp [ABSENT]
  | _ =>
    simp only [occurrences, List.mem_singleton] at hmem
    subst hmem
    simp [ABSENT]

end atoms.effects
