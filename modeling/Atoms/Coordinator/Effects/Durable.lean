import Atoms.Coordinator.Effects
import Mathlib.Data.Set.Insert

open atoms.errors atoms.fingerprint atoms.effects atoms.fs crash writeback

namespace atoms.fs

/-- What a run of calls leaves pending that was not pending before: only writes to the `touched` objects. -/
structure Disk.Leaves (touched : Set Inode) (d d' : Disk) : Prop where
  entries : d.entries.Leaves {key | key.1 ∈ touched} d'.entries
  contents : d.contents.Leaves touched d'.contents
  modes : d.modes.Leaves touched d'.modes

namespace Disk.Leaves

variable {touched more : Set Inode} {d d' d'' : Disk}

theorem refl (touched : Set Inode) (d : Disk) : d.Leaves touched d := ⟨.refl _ _, .refl _ _, .refl _ _⟩

theorem mono (h : d.Leaves touched d') (hsub : touched ⊆ more) : d.Leaves more d' where
  entries := h.entries.mono fun _ hkey => hsub hkey
  contents := h.contents.mono hsub
  modes := h.modes.mono hsub

theorem trans (h : d.Leaves touched d') (h' : d'.Leaves touched d'') : d.Leaves touched d'' :=
  ⟨h.entries.trans h'.entries, h.contents.trans h'.contents, h.modes.trans h'.modes⟩

theorem set_entry (h : d.Leaves touched d') {parent : Inode} (hparent : parent ∈ touched) (leaf : String)
    (entry : Option Entry) : d.Leaves touched (d'.set_entry parent leaf entry) where
  entries := h.entries.set (by exact hparent) entry
  contents := h.contents
  modes := h.modes

/-- A flush of an object leaves nothing pending on it. -/
theorem fsync (h : d.Leaves touched d') (fd : Inode) : d.Leaves (touched \ {fd}) (d'.fsync fd) where
  entries := h.entries.flush fun key hkey hpick => ⟨hkey, by simpa using hpick⟩
  contents := h.contents.flush fun inode hinode hpick => ⟨hinode, by simpa using hpick⟩
  modes := h.modes.flush fun inode hinode hpick => ⟨hinode, by simpa using hpick⟩

end Disk.Leaves

section

variable {d d' : Disk} {parent fd : Inode} {name : String} {mode count : Nat} {data : List UInt8}

theorem unlink_child_leaves (h : (unlink_child parent name).Completes d () d') : d.Leaves {parent} d' := by
  rw [unlink_child, Prog.completes_call_iff] at h
  split at h
  · cases h
  · cases h
  · cases h
    exact (Disk.Leaves.refl _ d).set_entry (Set.mem_singleton parent) _ _

theorem rmdir_child_leaves (h : (rmdir_child parent name).Completes d () d') : d.Leaves {parent} d' := by
  rw [rmdir_child, Prog.completes_call_iff] at h
  split at h
  · cases h
  · split at h
    · cases h
      exact (Disk.Leaves.refl _ d).set_entry (Set.mem_singleton parent) _ _
    · cases h
  · cases h

end

end atoms.fs

namespace atoms.coordinator

open Disk

section

variable {α : Type} {d d' : Disk} {a : α}

end

section

variable {d d' : Disk}

variable [Sha256]

end

/-! Each executor that completes has flushed all that it changed. -/

variable [Sha256] {d d' : Disk}

end atoms.coordinator
