import Atoms.Core.Compiler.Phases

open atoms.errors atoms.fingerprint atoms.effects atoms.spec atoms.timeline checked keyed

namespace atoms.compiler

variable [UnicodeData]

/-- The thirteen validation phases, in the order in which `compile_spec` runs them. -/
def compile_phases (spec : TransactionSpec) : Except AtomsError (List PathTimeline) := do
  phase1_structure spec
  phase2_fingerprints spec
  phase3_path_grammar spec
  phase4_alias_distinctness spec
  phase5_variant_shapes spec
  phase6_unique_effect_ids spec
  phase7_dependencies spec
  phase8_surface_shape spec
  phase9_registration spec
  let timelines ← build_timelines spec.effects
  phase10_coverage timelines spec
  phase11_endpoints timelines spec
  phase12_surface_tree spec.initial_surface "initial_surface"
  phase12_surface_tree spec.final_surface "final_surface"
  phase13_ancestor_ordering spec.effects
  pure timelines

/-- The compiler's factory-issued proof: no value exists that `compile_spec` has not issued. -/
structure CompiledSpec where
  spec : TransactionSpec
  timelines : List PathTimeline
  issued : ∃ source, compile_phases source = .ok timelines ∧ canonicalize source = spec

instance : DecidableEq CompiledSpec := fun left right =>
  decidable_of_iff (left.spec = right.spec ∧ left.timelines = right.timelines) (by cases left; cases right; simp)

/-- Validate `spec` and return the frozen filesystem-independent proof. -/
def compile_spec (spec : TransactionSpec) : Except AtomsError CompiledSpec :=
  match h : compile_phases spec with
  | .ok timelines => .ok { spec := canonicalize spec, timelines := timelines, issued := ⟨spec, h, rfl⟩ }
  | .error error => .error error

end atoms.compiler
