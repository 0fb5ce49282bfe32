import Atoms.Core.Paths
import Atoms.Library.Keyed
import Mathlib.Data.List.Dedup
import Mathlib.Data.List.Sort

open atoms.errors atoms.fingerprint atoms.effects atoms.identifiers checked

namespace atoms.spec

def SCHEMA_VERSION : Int := 2

structure SurfaceEntry where
  path : RelPath
  state : PathState
  deriving DecidableEq

structure Dependency where
  before : String
  after : String
  deriving DecidableEq

structure TransactionSpec where
  schema_version : Int
  consumer_tag : String
  intent_digest : String
  initial_surface : List SurfaceEntry
  final_surface : List SurfaceEntry
  effects : List Effect
  dependencies : List Dependency
  fulfills : Option String
  registered_paths : List String
  deriving DecidableEq

/-- `sorted(values, key=key)`: stable, by the code points of the keys. -/
def sorted_by {α : Type} (key : α → String) (values : List α) : List α :=
  values.insertionSort fun left right => key left ≤ key right

/-- The order of `Dependency` values: by `before`, then by `after`. -/
def Dependency.le (left right : Dependency) : Prop :=
  left.before < right.before ∨ left.before = right.before ∧ left.after ≤ right.after

instance (left right : Dependency) : Decidable (left.le right) := inferInstanceAs (Decidable (_ ∨ _))

def validate_v2_members (spec : TransactionSpec) : Except AtomsError Unit := do
  require (∀ digest ∈ spec.fulfills, is_hex_digest digest)
    (.SpecValidationError "fulfills must match <64 lowercase hex>")
  require (spec.registered_paths = sorted_by id spec.registered_paths)
    (.SpecValidationError "registered_paths must be sorted")
  require spec.registered_paths.Nodup (.SpecValidationError "registered_paths must be duplicate-free")
  require (∀ path ∈ spec.registered_paths,
      path ∈ (spec.initial_surface ++ spec.final_surface).map SurfaceEntry.path)
    (.SpecValidationError "registered_paths must be a subset of the surfaces")

theorem mem_sorted_by {α : Type} (key : α → String) (values : List α) (value : α) :
    value ∈ sorted_by key values ↔ value ∈ values := List.mem_insertionSort _

theorem sorted_by_perm {α : Type} (key : α → String) (values : List α) :
    (sorted_by key values).Perm values := List.perm_insertionSort _ _

theorem pairwise_sorted_by {α : Type} (key : α → String) (values : List α) :
    (sorted_by key values).Pairwise fun left right => key left ≤ key right := by
  have htotal : Std.Total fun left right : α => key left ≤ key right := ⟨fun left right => String.le_total (key left) (key right)⟩
  have htrans : IsTrans α fun left right => key left ≤ key right := ⟨fun _ _ _ hleft hright => String.le_trans hleft hright⟩
  exact List.pairwise_insertionSort _ _

/-- Where keys are distinct, the order of the values does not show once they are sorted. -/
theorem sorted_by_congr {α : Type} {key : α → String} {left right : List α} (h : left.Perm right)
    (hnodup : (left.map key).Nodup) : sorted_by key left = sorted_by key right := by
  have hperm : (sorted_by key left).Perm (sorted_by key right) :=
    (sorted_by_perm key left).trans (h.trans (sorted_by_perm key right).symm)
  refine List.Perm.eq_of_pairwise ?_ (pairwise_sorted_by key left) (pairwise_sorted_by key right) hperm
  intro value other hvalue hother hle hge
  have hmem := (mem_sorted_by key left value).mp hvalue
  have hmem' := h.mem_iff.mpr ((mem_sorted_by key right other).mp hother)
  exact List.inj_on_of_nodup_map hnodup hmem hmem' (String.le_antisymm hle hge)

end atoms.spec
