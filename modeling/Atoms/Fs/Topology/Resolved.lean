import Atoms.Fs.Resolve.Walk
import Atoms.Fs.Topology.Built
import Mathlib.Data.List.Induction

open atoms.errors atoms.effects atoms.paths atoms.spec atoms.recovery atoms.compiler checked dict

namespace atoms.fs

variable {tree : ProjectTree}

/-- Above what is there, there are directories. -/
theorem directory_above {parts : List String} (h : (tree.entry parts).isSome = true) {n : Nat} (hn : n < parts.length) :
    ∃ identity, DirectoryAt tree (parts.take n) identity := by
  induction parts using List.reverseRecOn with
  | nil => exact absurd hn (by simp)
  | append_singleton lead name ih =>
    have hparent := tree.parent_is_directory lead name h
    obtain ⟨entry, hentry, hkind⟩ := Option.map_eq_some_iff.mp hparent
    rw [List.length_append, List.length_singleton] at hn
    rw [List.take_append_of_le_length (by omega)]
    by_cases hlt : n < lead.length
    · exact ih (by rw [hentry]; rfl) hlt
    · rw [List.take_of_length_le (by omega)]
      exact ⟨_, entry, hentry, hkind, rfl⟩

theorem DirectoryAt.isSome {lead : List String} {identity : FilesystemIdentity} (h : DirectoryAt tree lead identity) :
    (tree.entry lead).isSome = true := by
  obtain ⟨entry, hentry, _⟩ := h
  rw [hentry]
  rfl

/-- The walk goes through every directory above its leaf. -/
theorem Resolves.le_hops {parts : List String} {found : ResolvedPrefix} (h : Resolves tree parts found) {n : Nat}
    (hn : n < parts.length) {identity : FilesystemIdentity} (hat : DirectoryAt tree (parts.take n) identity) :
    n ≤ found.hops.length := by
  by_contra hlt
  have hne : found.remainder ≠ [] := by
    rw [h.remainder, Ne, List.drop_eq_nil_iff]
    omega
  by_cases heq : found.hops.length + 1 = n
  · exact h.blocked hne identity (heq ▸ hat)
  · obtain ⟨above, habove⟩ := directory_above hat.isSome (show found.hops.length + 1 < _ by rw [List.length_take]; omega)
    rw [List.take_take, Nat.min_eq_left (by omega)] at habove
    exact h.blocked hne above habove

/-- Each path of the table has been resolved over the tree. -/
def ResolvedOver (tree : ProjectTree) (prefixes : Dict RelPath ResolvedPrefix) : Prop :=
  ∀ item ∈ prefixes, Resolves tree (components item.1) item.2

section

variable {prefixes : Dict RelPath ResolvedPrefix}

theorem Resolves.hops_of {path : RelPath} {found : ResolvedPrefix} (h : Resolves tree (components path) found)
    {hop : Prefix × DirectoryFacts} (hhop : hop ∈ hops_of path found) : DirectoryAt tree hop.1 hop.2.identity := by
  obtain rfl | ⟨index, hop', hget, rfl⟩ := mem_hops_of hhop
  · exact h.root
  · exact h.hop index hop' hget

/-- An observed identity is the directory's. -/
theorem directory_at_of_identity (htable : ResolvedOver tree prefixes) {lead : Prefix} {identity : FilesystemIdentity}
    (h : identity_at (observed_facts prefixes) lead = some identity) : DirectoryAt tree lead identity := by
  obtain ⟨item, hitem, hop, hhop, rfl, rfl⟩ := identity_at_observed h
  exact (htable item hitem).hops_of hhop

theorem consistent_of_resolved (htable : ResolvedOver tree prefixes) : Consistent prefixes where
  hops_lt item hitem := (htable item hitem).hops_lt
  one_name _ _ _ hleft hright :=
    (directory_at_of_identity htable hleft).unique (directory_at_of_identity htable hright)

/-- A directory above a declared path has been observed. -/
theorem observed_above (htable : ResolvedOver tree prefixes) {path : RelPath} (hpath : path ∈ prefixes.keys) {n : Nat}
    (hn : n < (components path).length) {identity : FilesystemIdentity}
    (hat : DirectoryAt tree ((components path).take n) identity) :
    (identity_at (observed_facts prefixes) ((components path).take n)).isSome = true := by
  obtain ⟨item, hitem, rfl⟩ := List.mem_map.mp hpath
  have hle := (htable item hitem).le_hops hn hat
  cases n with
  | zero =>
    have hroot : (ROOT_PREFIX, item.2.root) ∈ fs.hops_of item.1 item.2 := List.mem_cons_self
    exact identity_at_hop hitem hroot
  | succ n =>
    have hget : item.2.hops[n]? = some item.2.hops[n] := List.getElem?_eq_getElem hle
    have hhop : ((components item.1).take (n + 1), item.2.hops[n].facts) ∈ fs.hops_of item.1 item.2 :=
      List.mem_cons_of_mem _ (List.mem_map.mpr ⟨(item.2.hops[n], n), List.mk_mem_zipIdx_iff_getElem?.mpr hget, rfl⟩)
    exact identity_at_hop hitem hhop

/-- The directory above an observed one has been observed. -/
theorem observed_parent (htable : ResolvedOver tree prefixes) {lead : Prefix}
    (h : (identity_at (observed_facts prefixes) lead).isSome = true) :
    (identity_at (observed_facts prefixes) lead.dropLast).isSome = true := by
  obtain ⟨identity, hidentity⟩ := Option.isSome_iff_exists.mp h
  obtain ⟨item, hitem, hop, hhop, rfl, rfl⟩ := identity_at_observed hidentity
  obtain rfl | ⟨index, found, hget, rfl⟩ := mem_hops_of hhop
  · exact h
  · have hlt := (htable item hitem).hops_lt
    have hindex := (List.getElem?_eq_some_iff.mp hget).1
    have hat := (htable item hitem).hop index found hget
    have hdrop : ((components item.1).take (index + 1)).dropLast = (components item.1).take index := by
      rw [List.dropLast_take (by omega), Nat.add_sub_cancel]
    rw [hdrop]
    obtain ⟨above, habove⟩ := directory_above hat.isSome (show index < _ by rw [List.length_take]; omega)
    rw [List.take_take, Nat.min_eq_left (Nat.le_succ _)] at habove
    exact observed_above htable (List.mem_map_of_mem hitem) (by omega) habove

end

end atoms.fs
