import Atoms.Core.Paths.Components
import Atoms.Fs.Resolve

open atoms.errors atoms.effects atoms.paths checked

namespace atoms.fs

variable {tree : ProjectTree}

/-- A directory of the tree, with its identity. -/
def DirectoryAt (tree : ProjectTree) (lead : List String) (identity : FilesystemIdentity) : Prop :=
  ∃ entry, tree.entry lead = some entry ∧ entry.kind = .DIRECTORY ∧ entry.identity = identity

/-- What stands at the frontier of a walk. -/
def FrontierAt (tree : ProjectTree) (lead : List String) : Frontier → Prop
  | .AbsentFrontier => tree.entry lead = none
  | .PresentFrontier identity kind => ∃ entry, tree.entry lead = some entry ∧ entry.identity = identity ∧ entry.kind = kind

theorem DirectoryAt.unique {left right : List String} {identity : FilesystemIdentity}
    (hleft : DirectoryAt tree left identity) (hright : DirectoryAt tree right identity) : left = right := by
  obtain ⟨l, hl, hlkind, rfl⟩ := hleft
  obtain ⟨r, hr, hrkind, heq⟩ := hright
  exact tree.one_name left right l r hl hr hlkind hrkind heq.symm

/-- The walk along `parts` goes through directories and stops at its leaf, or where there is no directory. -/
structure Resolves (tree : ProjectTree) (parts : List String) (found : ResolvedPrefix) : Prop where
  hops_lt : found.hops.length < parts.length
  root : DirectoryAt tree [] found.root.identity
  hop : ∀ index hop, found.hops[index]? = some hop → DirectoryAt tree (parts.take (index + 1)) hop.facts.identity
  frontier : FrontierAt tree (parts.take (found.hops.length + 1)) found.frontier
  remainder : found.remainder = parts.drop (found.hops.length + 1)
  blocked : found.remainder ≠ [] → ∀ identity, ¬ DirectoryAt tree (parts.take (found.hops.length + 1)) identity

variable [UnicodeData] {metadata_identity : FilesystemIdentity} {rel_path : RelPath}

omit [UnicodeData] in
theorem facts_for_eq_ok [UnicodeData] {entry : TreeEntry} {facts : DirectoryFacts}
    (h : facts_for metadata_identity rel_path entry = .ok facts) : facts.identity = entry.identity := by
  unfold facts_for at h
  obtain ⟨_, _, h⟩ := bind_eq_ok_iff.mp h
  obtain ⟨_, _, h⟩ := bind_eq_ok_iff.mp h
  rw [pure_eq_ok_iff] at h
  rw [← h]

theorem observe_frontier_eq_ok {lead : List String} {frontier : Frontier}
    (h : observe_frontier metadata_identity rel_path (tree.entry lead) = .ok frontier) : FrontierAt tree lead frontier := by
  unfold observe_frontier at h
  cases hentry : tree.entry lead with
  | none =>
    rw [hentry, pure_eq_ok_iff] at h
    rw [← h]
    exact hentry
  | some entry =>
    rw [hentry] at h
    obtain ⟨_, _, h⟩ := bind_eq_ok_iff.mp h
    rw [pure_eq_ok_iff] at h
    rw [← h]
    exact ⟨entry, hentry, rfl, rfl⟩

/-- The walk keeps what it knows of its hops, and ends with what it finds. -/
theorem resolve_from_eq_ok {root : DirectoryFacts} {leaf : String} {lead rest : List String} {facts : DirectoryFacts}
    {hops : List ResolvedHop} {found : ResolvedPrefix}
    (hroot : DirectoryAt tree [] root.identity) (hlength : hops.length = lead.length)
    (hhops : ∀ index hop, hops[index]? = some hop → DirectoryAt tree (lead.take (index + 1)) hop.facts.identity)
    (h : resolve_from tree metadata_identity rel_path root leaf lead facts hops rest = .ok found) :
    Resolves tree (lead ++ rest ++ [leaf]) found := by
  have hpast : ∀ more, ∀ index hop, hops[index]? = some hop →
      DirectoryAt tree ((lead ++ more).take (index + 1)) hop.facts.identity := by
    intro more index hop hget
    have hindex := (List.getElem?_eq_some_iff.mp hget).1
    rw [List.take_append_of_le_length (by omega)]
    exact hhops index hop hget
  induction rest generalizing lead facts hops with
  | nil =>
    unfold resolve_from at h
    obtain ⟨_, _, h⟩ := bind_eq_ok_iff.mp h
    obtain ⟨frontier, hfrontier, h⟩ := bind_eq_ok_iff.mp h
    rw [pure_eq_ok_iff] at h
    subst h
    have htake : (lead ++ [] ++ [leaf]).take (hops.length + 1) = lead ++ [leaf] := by
      rw [List.append_nil]
      exact List.take_of_length_le (by simp [hlength])
    refine ⟨by simp [hlength], hroot, by simpa using hpast [leaf], ?_, ?_, fun hne => absurd rfl hne⟩
    · rw [htake]
      exact observe_frontier_eq_ok hfrontier
    · rw [List.append_nil, List.drop_of_length_le (by simp [hlength])]
  | cons component rest ih =>
    unfold resolve_from at h
    obtain ⟨_, _, h⟩ := bind_eq_ok_iff.mp h
    have htake : (lead ++ component :: rest ++ [leaf]).take (hops.length + 1) = lead ++ [component] := by
      rw [hlength, List.append_assoc, List.take_length_add_append]
      rfl
    split at h
    · rename_i identity constraints hentry
      obtain ⟨child, hchild, h⟩ := bind_eq_ok_iff.mp h
      have hat : DirectoryAt tree (lead ++ [component]) child.identity :=
        ⟨_, hentry, rfl, (facts_for_eq_ok hchild).symm⟩
      have hnext : ∀ index hop, (hops ++ [⟨component, child⟩])[index]? = some hop →
          DirectoryAt tree ((lead ++ [component]).take (index + 1)) hop.facts.identity := by
        intro index hop hget
        by_cases hindex : index < hops.length
        · rw [List.getElem?_append_left hindex] at hget
          exact hpast [component] index hop hget
        · have hlt := (List.getElem?_eq_some_iff.mp hget).1
          rw [List.length_append, List.length_singleton] at hlt
          obtain rfl : index = hops.length := by omega
          rw [List.getElem?_concat_length, Option.some.injEq] at hget
          rw [List.take_of_length_le (by simp [hlength]), ← hget]
          exact hat
      have hresolves : Resolves tree (lead ++ [component] ++ rest ++ [leaf]) found := by
        refine ih (by simp [hlength]) hnext h fun more index hop hget => ?_
        have hindex := (List.getElem?_eq_some_iff.mp hget).1
        rw [List.length_append, List.length_singleton] at hindex
        rw [List.take_append_of_le_length (by simp; omega)]
        exact hnext index hop hget
      rw [List.append_cons lead component rest]
      exact hresolves
    · rename_i hnot
      obtain ⟨frontier, hfrontier, h⟩ := bind_eq_ok_iff.mp h
      rw [pure_eq_ok_iff] at h
      subst h
      refine ⟨by simp [hlength], hroot, ?_, ?_, ?_, fun _ identity hat => ?_⟩
      · rw [List.append_assoc]
        exact hpast _
      · rw [htake]
        exact observe_frontier_eq_ok hfrontier
      · rw [hlength, List.append_assoc, List.drop_length_add_append]
        rfl
      · obtain ⟨entry, hentry, hkind, _⟩ := htake ▸ hat
        obtain ⟨kind, entry_identity, constraints⟩ := entry
        cases hkind
        exact hnot _ _ hentry

theorem resolve_eq_ok {path_max : Nat} {found : ResolvedPrefix}
    (h : resolve tree metadata_identity rel_path path_max = .ok found) : Resolves tree (components rel_path) found := by
  unfold resolve at h
  split at h
  · exact absurd h throw_ne_ok
  · exact absurd h throw_ne_ok
  · obtain ⟨_, _, h⟩ := bind_eq_ok_iff.mp h
    split at h
    · exact absurd h throw_ne_ok
    · rename_i entry hentry
      obtain ⟨root, hroot, h⟩ := bind_eq_ok_iff.mp h
      have hkind := tree.root_is_directory
      rw [hentry, Option.map_some, Option.some.injEq] at hkind
      have hne := components_ne_nil rel_path
      have hresolves : Resolves tree ([] ++ _ ++ [_]) found :=
        resolve_from_eq_ok ⟨entry, hentry, hkind, (facts_for_eq_ok hroot).symm⟩ rfl
          (fun index hop hget => absurd hget (by simp)) h
      rw [List.nil_append, List.getLast?_eq_some_getLast hne, Option.getD_some, List.dropLast_append_getLast] at hresolves
      exact hresolves

end atoms.fs
