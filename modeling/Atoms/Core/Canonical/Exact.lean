import Atoms.Core.Canonical.RoundTrip
import Atoms.Core.Compiler.Reorder

open atoms.errors atoms.spec atoms.compiler checked

namespace atoms.canonical

variable [UnicodeData]

/-- The canonical bytes of a compiled spec are read back as its canonical form. -/
theorem from_canonical_bytes_compiled {spec : TransactionSpec} {compiled : CompiledSpec}
    (h : compile_spec spec = .ok compiled) :
    from_canonical_bytes (canonical_bytes compiled.spec) = .ok (canonicalize spec) := by
  obtain ⟨hphases, hspec⟩ := compile_spec_eq_ok h
  have hcanonical := hphases.reorder (reordered_canonicalize spec)
  have hagain : canonicalize (canonicalize spec) = canonicalize spec :=
    hphases.canonicalize_eq (reordered_canonicalize spec)
  have hversion : (canonicalize spec).schema_version = SCHEMA_VERSION := by
    have hstructure := hcanonical.structure_ok
    rw [phase1_structure, bind_eq_ok_iff] at hstructure
    obtain ⟨_, hversion, _⟩ := hstructure
    exact require_eq_ok_iff.mp hversion
  have hvalid : validate_v2_members (canonicalize (canonicalize spec)) = .ok () := by
    rw [hagain]
    exact hcanonical.registration_ok
  rw [hspec, from_canonical_bytes_written hversion hvalid, hagain]

/-- The canonical bytes of a compiled spec give back its canonical form, which compiles to the same; they do not depend on
the order of the set-like members, and tell canonical forms apart. -/
theorem spec_codec_exact :
    (∀ spec compiled, compile_spec spec = .ok compiled →
      from_canonical_bytes (canonical_bytes compiled.spec) = .ok (canonicalize spec) ∧
        compile_spec (canonicalize spec) = .ok compiled) ∧
    (∀ spec other compiled, compile_spec spec = .ok compiled → Reordered spec other →
      ∃ compiled', compile_spec other = .ok compiled' ∧
        canonical_bytes compiled'.spec = canonical_bytes compiled.spec) ∧
    ∀ spec other compiled compiled', compile_spec spec = .ok compiled → compile_spec other = .ok compiled' →
      canonicalize spec ≠ canonicalize other → canonical_bytes compiled.spec ≠ canonical_bytes compiled'.spec := by
  refine ⟨fun spec compiled h => ?_, fun spec other compiled h hother => ?_, ?_⟩
  · exact ⟨from_canonical_bytes_compiled h, compile_spec_reordered h (reordered_canonicalize spec)⟩
  · exact ⟨compiled, compile_spec_reordered h hother, rfl⟩
  · intro spec other compiled compiled' h h' hne hbytes
    have hread := from_canonical_bytes_compiled h
    rw [hbytes, from_canonical_bytes_compiled h', Except.ok.injEq] at hread
    exact hne hread.symm

end atoms.canonical
