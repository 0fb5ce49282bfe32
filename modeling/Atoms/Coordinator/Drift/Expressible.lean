import Atoms.Coordinator.Drift.Findings
import Atoms.Fs.Topology.Keys
import Atoms.Recovery.Journal.Authority
import Mathlib.Data.Prod.Lex
import Mathlib.Data.String.Basic

open atoms.errors atoms.paths atoms.store atoms.fs checked dict json

namespace atoms.paths

theorem Beneath.trans {path above other : String} (h : Beneath path above) (hother : Beneath above other) :
    Beneath path other := by
  obtain ⟨n, hn, habove⟩ := h
  obtain ⟨m, hm, hother⟩ := hother
  rw [habove, List.length_take] at hm
  refine ⟨m, by omega, ?_⟩
  rw [hother, habove, List.take_take, Nat.min_eq_left (by omega)]

end atoms.paths

namespace atoms.coordinator

section

variable [UnicodeData]

/-! What the findings of a pass are. -/

/-- The findings are of their constructor, and one of a sole kind is the only one at its path. -/
structure Collected (findings : List AssemblyFinding) : Prop where
  valid : ∀ item ∈ findings, item.Valid
  sole : ∀ item ∈ findings, item.kind ∈ sole_kinds → (findings.filter fun other => other.path = item.path).length ≤ 1

theorem Reports.collected {path : String} {found : List AssemblyFinding} (h : Reports path found) : Collected found where
  valid := h.valid
  sole item hitem hkind := (List.length_filter_le _ _).trans (Nat.le_of_eq (h.sole item hitem hkind))

/-- Findings at a path that has none yet. -/
theorem Collected.append {findings found : List AssemblyFinding} {path : String} (h : Collected findings)
    (hfound : Reports path found) (hfresh : ∀ item ∈ findings, item.path ≠ path) : Collected (findings ++ found) := by
  refine ⟨fun item hitem => (List.mem_append.mp hitem).elim (h.valid item) (hfound.valid item), fun item hitem hkind => ?_⟩
  rw [List.filter_append, List.length_append]
  obtain hitem | hitem := List.mem_append.mp hitem
  · have hnone : (found.filter fun other => other.path = item.path) = [] := by
      rw [List.filter_eq_nil_iff]
      intro other hother
      rw [hfound.path other hother, decide_eq_true_eq]
      exact fun heq => hfresh item hitem heq.symm
    rw [hnone]
    exact h.sole item hitem hkind
  · have hnone : (findings.filter fun other => other.path = item.path) = [] := by
      rw [List.filter_eq_nil_iff]
      intro other hother
      rw [hfound.path item hitem, decide_eq_true_eq]
      exact hfresh other hother
    rw [hnone, List.length_nil, Nat.zero_add]
    exact (List.length_filter_le _ _).trans (Nat.le_of_eq (hfound.sole item hitem hkind))

omit [UnicodeData] in
/-- A list is sorted after it has been sorted by a relation that compares keys. -/
theorem pairwise_sorted {α κ : Type} [LinearOrder κ] (key : α → κ) {r : α → α → Prop} [DecidableRel r]
    (hkey : ∀ left right, r left right ↔ key left ≤ key right) (items : List α) : (items.insertionSort r).Pairwise r := by
  have htotal : Std.Total r := ⟨fun left right => by
    rw [hkey, hkey]
    exact le_total _ _⟩
  have htrans : IsTrans α r := ⟨fun left middle right hleft hright => by
    rw [hkey] at hleft hright ⊢
    exact hleft.trans hright⟩
  exact List.pairwise_insertionSort r items

omit [UnicodeData] in
theorem sorted_findings_sorted_findings (findings : List AssemblyFinding) :
    sorted_findings (sorted_findings findings) = sorted_findings findings := by
  have hkey : ∀ left right : AssemblyFinding, left.le right ↔
      toLex (left.path, assembly_finding_kinds.idxOf left.kind) ≤
        toLex (right.path, assembly_finding_kinds.idxOf right.kind) := fun left right => by
    rw [Prod.Lex.toLex_le_toLex]
    exact Iff.rfl
  exact (pairwise_sorted (fun item : AssemblyFinding => toLex (item.path, assembly_finding_kinds.idxOf item.kind)) hkey
    findings).insertionSort_eq

omit [UnicodeData] in
theorem require_sole_of {findings : List AssemblyFinding}
    (h : ∀ item ∈ findings, item.kind ∈ sole_kinds → (findings.filter fun other => other.path = item.path).length ≤ 1) :
    require_sole findings = .ok () := by
  induction findings with
  | nil => rfl
  | cons left rest ih =>
    have hrest : require_sole rest = .ok () := by
      refine ih fun item hitem hkind => ?_
      have hle := h item (List.mem_cons_of_mem _ hitem) hkind
      have hsub := ((List.sublist_cons_self left rest).filter fun other => other.path = item.path).length_le
      omega
    cases rest with
    | nil => rfl
    | cons right rest =>
      have hapart : ¬ (left.path = right.path ∧ left.kind ∈ sole_kinds) := by
        rintro ⟨hpath, hkind⟩
        have hle := h left List.mem_cons_self hkind
        rw [List.filter_cons_of_pos (by simp), List.filter_cons_of_pos (by simp [hpath])] at hle
        simp at hle
      rw [require_sole, require_of hapart, ok_bind, hrest]

/-- The constructor of a halt accepts the findings of a pass, sorted, and what is written of the halt is read back. -/
theorem Collected.expressible {findings : List AssemblyFinding} (h : Collected findings) (hne : findings ≠ [])
    (txid expected : String) : ∃ halt, assembly_halt txid expected (sorted_findings findings) = .ok halt ∧
      (encode_assembly_halt halt >>= decode_assembly_halt) = .ok halt := by
  have hperm : (sorted_findings findings).Perm findings := List.perm_insertionSort _ _
  have hsorted : sorted_findings findings ≠ [] := fun hnil => hne (by simpa [hnil] using hperm.symm)
  have hsole : require_sole (sorted_findings findings) = .ok () := by
    refine require_sole_of fun item hitem hkind => ?_
    rw [(hperm.filter _).length_eq]
    exact h.sole item (hperm.mem_iff.mp hitem) hkind
  have hmade : assembly_halt txid expected (sorted_findings findings) =
      .ok { txid, expected, findings := sorted_findings findings } := by
    rw [assembly_halt, require_of hsorted, ok_bind, require_of (sorted_findings_sorted_findings findings), ok_bind, hsole]
    rfl
  exact ⟨_, hmade, decode_encode_assembly_halt (fun item hitem => h.valid item (hperm.mem_iff.mp hitem)) hmade⟩

/-! What the pass needs of a document and of the tree. -/

variable {Fd : Type}

/-- The directory that is reached by the names. -/
def CurrentTree.walk (tree : CurrentTree Fd) (names : List String) : Except Errno Fd :=
  names.foldlM tree.open_child_directory tree.project_root_fd

def Listed (document : ApprovalEvidence) (path : String) : Prop :=
  some path ∈ document.directories.map DirectoryEvidence.path

/-- The pass does not come to a path below a listed directory that does not open. -/
def Cut (tree : CurrentTree Fd) (document : ApprovalEvidence) (path : String) : Prop :=
  ∃ above, Listed document above ∧ Beneath path above ∧ ∀ fd, tree.walk (components above) ≠ .ok fd

/-- The pass can follow the document in the tree: each listed directory that it comes to has its parent listed, and each
name that it opens answers. -/
structure Followed (tree : CurrentTree Fd) (document : ApprovalEvidence) (txid : String) : Prop where
  ext4 : tree.filesystem_type = "ext4"
  work_base : document.work_root.isSome = true → tree.Answers tree.metadata_root_fd WORK_DIRECTORY
  work_root : ∀ fd, tree.work_base_fd document.work_root = some fd → tree.Answers fd txid
  directory : ∀ path, Listed document path → path ≠ "" → Cut tree document path ∨
    Listed document (parent_text path) ∧
      ∀ errno, tree.walk (components path) = .error errno → errno ∈ mismatch_errnos

/-! Paths of a document. -/

/-- What the constructor's rules ask of a path that is accepted. -/
theorem of_is_rel_path {path : String} (h : IsRelPath path) :
    (∀ component ∈ components path, component ≠ "") ∧ path ≠ WORK_BASE_PATH ∧ path ≠ WORK_ROOT_PATH := by
  unfold IsRelPath require_rel_path at h
  simp only [bind_eq_ok_iff, require_eq_ok_iff, forM_eq_ok_iff, exists_const] at h
  obtain ⟨_, _, _, _, hcomponents⟩ := h
  have hapart : ∀ leaf, components leaf = [leaf] → starts_with SCRATCH_SIGIL leaf = true → path ≠ leaf := by
    rintro leaf hleaf hsigil rfl
    have halias := (hcomponents path (by rw [hleaf]; exact List.mem_singleton_self path)).2.2
    rw [aliases_scratch_sigil, List.any_cons, hsigil] at halias
    exact halias rfl
  exact ⟨fun component hcomponent => (hcomponents component hcomponent).1, hapart WORK_BASE_PATH (by decide) (by decide),
    hapart WORK_ROOT_PATH (by decide) (by decide)⟩

/-- The path at which a directory is reported. -/
def reported (path : Option String) : String := path.getD WORK_ROOT_PATH

section

variable {document : ApprovalEvidence} (hdecoded : Decoded document)

include hdecoded

/-- A listed path is reported apart from the work base, and from every other listed path. -/
theorem reported_apart {path : Option String} (h : path ∈ document.directories.map DirectoryEvidence.path) :
    reported path ≠ WORK_BASE_PATH ∧ ∀ other ∈ document.directories.map DirectoryEvidence.path,
      reported other = reported path → other = path := by
  have hreal : ∀ text, some text ∈ document.directories.map DirectoryEvidence.path →
      text ≠ WORK_BASE_PATH ∧ text ≠ WORK_ROOT_PATH := by
    intro text htext
    by_cases hempty : text = ""
    · subst hempty
      exact ⟨by decide, by decide⟩
    · exact (of_is_rel_path (hdecoded.rel_path text htext hempty)).2
  cases path with
  | none =>
    refine ⟨by decide, fun other hother heq => ?_⟩
    cases other with
    | none => rfl
    | some text => exact absurd heq (hreal text hother).2
  | some text =>
    refine ⟨(hreal text h).1, fun other hother heq => ?_⟩
    cases other with
    | none => exact absurd heq.symm (hreal text h).2
    | some other => exact congrArg some heq

end

omit [UnicodeData] in
theorem CurrentTree.walk_concat (tree : CurrentTree Fd) (names : List String) (name : String) :
    tree.walk (names ++ [name]) = tree.walk names >>= fun fd => tree.open_child_directory fd name := by
  rw [walk, List.foldlM_append]
  simp only [List.foldlM_cons, List.foldlM_nil, bind_pure]
  rfl

/-- A directory is opened in its parent. -/
theorem CurrentTree.walk_path (tree : CurrentTree Fd) {path : String} (hrel : IsRelPath path) :
    parent_text path = "" ∧ tree.walk (components path) = tree.open_child_directory tree.project_root_fd (component_of path) ∨
      parent_text path ≠ "" ∧ Beneath path (parent_text path) ∧ tree.walk (components path) =
        tree.walk (components (parent_text path)) >>= fun fd => tree.open_child_directory fd (component_of path) := by
  have hne := components_ne_nil path
  have hparts : components path = (components path).dropLast ++ [component_of path] := by
    rw [component_of, List.getLastD_eq_getLast?, List.getLast?_eq_some_getLast hne, Option.getD_some,
      List.dropLast_append_getLast]
  have hwalk : tree.walk (components path) =
      tree.walk (components path).dropLast >>= fun fd => tree.open_child_directory fd (component_of path) :=
    (congrArg tree.walk hparts).trans (tree.walk_concat _ _)
  cases hlead : (components path).dropLast with
  | nil =>
    refine .inl ⟨?_, ?_⟩
    · rw [parent_text, hlead]
      rfl
    · rw [hwalk, hlead]
      rfl
  | cons head rest =>
    have hlead_ne : (components path).dropLast ≠ [] := by
      rw [hlead]
      exact List.cons_ne_nil _ _
    have hplain := (plain_components path).sublist (List.dropLast_sublist _)
    have hparent : components (parent_text path) = (components path).dropLast := components_joined hplain hlead_ne
    refine .inr ⟨fun hempty => ?_, ⟨(components path).length - 1, ?_, ?_⟩, ?_⟩
    · rw [hempty] at hparent
      have hmem : "" ∈ components path := List.dropLast_subset _ (hparent ▸ List.mem_singleton_self "")
      exact (of_is_rel_path hrel).1 "" hmem rfl
    · have hpos := List.length_pos_iff.mpr hne
      omega
    · rw [hparent, List.dropLast_eq_take]
    · rw [hparent, hwalk]

/-! The pass. -/

/-- What the pass has done once it has come past the items `done`. -/
structure Passed (tree : CurrentTree Fd) (done : List DirectoryEvidence) (pass : Pass Fd) : Prop where
  collected : Collected pass.findings
  reported : ∀ item ∈ pass.findings, item.path = WORK_BASE_PATH ∨
    ∃ path ∈ done.map DirectoryEvidence.path, item.path = reported path
  root : pass.project_fds.get "" = some tree.project_root_fd
  opened : ∀ path fd, path ≠ "" → pass.project_fds.get path = some fd →
    some path ∈ done.map DirectoryEvidence.path ∧ tree.walk (components path) = .ok fd
  blocked : ∀ above ∈ pass.blocked, some above ∈ done.map DirectoryEvidence.path ∧
    ∀ fd, tree.walk (components above) ≠ .ok fd
  settled : ∀ path, some path ∈ done.map DirectoryEvidence.path → path ≠ "" →
    (∃ above ∈ pass.blocked, path = above ∨ Beneath path above) ∨ ∃ fd, pass.project_fds.get path = some fd

/-- What the pass needs at an item. -/
def Reached (tree : CurrentTree Fd) (document : ApprovalEvidence) (txid : String) : Option String → Prop
  | none => ∀ fd, tree.work_base_fd document.work_root = some fd → tree.Answers fd txid
  | some path => path ≠ "" → Cut tree document path ∨
    Listed document (parent_text path) ∧ ∀ errno, tree.walk (components path) = .error errno → errno ∈ mismatch_errnos

section

variable {tree : CurrentTree Fd} {document : ApprovalEvidence} {txid : String} {done : List DirectoryEvidence}
  {pass pass' : Pass Fd} {item : DirectoryEvidence}

/-- Findings of an item that the pass has not come to. -/
theorem Passed.append (h : Passed tree done pass) (hdecoded : Decoded document)
    (hdone : ∀ other ∈ done, other ∈ document.directories) (hitem : item ∈ document.directories)
    (hfresh : item.path ∉ done.map DirectoryEvidence.path) {found : List AssemblyFinding}
    (hfound : Reports (atoms.coordinator.reported item.path) found) :
    Collected (pass.findings ++ found) ∧ ∀ other ∈ pass.findings ++ found, other.path = WORK_BASE_PATH ∨
      ∃ path ∈ (done ++ [item]).map DirectoryEvidence.path, other.path = atoms.coordinator.reported path := by
  obtain ⟨hbase, hapart⟩ := reported_apart hdecoded (List.mem_map_of_mem hitem)
  constructor
  · refine h.collected.append hfound fun other hother heq => ?_
    obtain hpath | ⟨path, hpath, hreported⟩ := h.reported other hother
    · exact hbase (heq.symm.trans hpath)
    · obtain ⟨directory, hdirectory, rfl⟩ := List.mem_map.mp hpath
      have hsame := hapart directory.path (List.mem_map_of_mem (hdone directory hdirectory)) (hreported.symm.trans heq)
      exact hfresh (hsame ▸ hpath)
  · intro other hother
    rw [List.map_append]
    obtain hother | hother := List.mem_append.mp hother
    · obtain hpath | ⟨path, hpath, hreported⟩ := h.reported other hother
      · exact .inl hpath
      · exact .inr ⟨path, List.mem_append_left _ hpath, hreported⟩
    · exact .inr ⟨item.path, List.mem_append_right _ (List.mem_singleton_self _), hfound.path other hother⟩

/-- The work root and the project root leave the descriptors and the blocked paths as they are. -/
theorem Passed.report (h : Passed tree done pass) (hdecoded : Decoded document)
    (hdone : ∀ other ∈ done, other ∈ document.directories) (hitem : item ∈ document.directories)
    (hfresh : item.path ∉ done.map DirectoryEvidence.path) (hpath : ∀ path, item.path = some path → path = "")
    {found : List AssemblyFinding} (hfound : Reports (atoms.coordinator.reported item.path) found) :
    Passed tree (done ++ [item]) { pass with findings := pass.findings ++ found } := by
  obtain ⟨hcollected, hreported⟩ := h.append hdecoded hdone hitem hfresh hfound
  have hmem : ∀ path, path ∈ done.map DirectoryEvidence.path → path ∈ (done ++ [item]).map DirectoryEvidence.path := by
    intro path hmem
    rw [List.map_append]
    exact List.mem_append_left _ hmem
  refine ⟨hcollected, hreported, h.root, fun path fd hne hget => ?_, fun above habove => ?_, fun path hlisted hne => ?_⟩
  · obtain ⟨hlisted, hwalk⟩ := h.opened path fd hne hget
    exact ⟨hmem _ hlisted, hwalk⟩
  · obtain ⟨hlisted, hclosed⟩ := h.blocked above habove
    exact ⟨hmem _ hlisted, hclosed⟩
  · rw [List.map_append, List.mem_append] at hlisted
    obtain hlisted | hlisted := hlisted
    · exact h.settled path hlisted hne
    · exact absurd (hpath path (List.mem_singleton.mp hlisted).symm) hne

theorem directory_changes_eq_ok {fd : Fd} {path : String} {expected : DirectoryEvidence} {found : List AssemblyFinding}
    (h : directory_changes tree fd path expected = .ok found) : Changes path found := by
  obtain ⟨other, hother, hchanges⟩ := directory_changes_eq (ext4_of_directory_changes h) fd path expected
  rw [h] at hother
  cases hother
  exact hchanges

theorem open_failure_eq_ok {parent_fd : Fd} {component pseudo : String} {planned : Bool} {errno : Errno}
    {found : List AssemblyFinding} (h : open_failure tree parent_fd component pseudo planned errno = .ok found) :
    Reports pseudo found := by
  obtain ⟨other, hother, hreports⟩ := open_failure_eq tree parent_fd component pseudo planned (open_failure_mismatch h)
  rw [h] at hother
  cases hother
  exact hreports

theorem diff_work_root_eq_ok {work_base_fd : Option Fd}
    (h : diff_work_root tree work_base_fd txid pass item = .ok pass') :
    (∀ fd, work_base_fd = some fd → tree.Answers fd txid) ∧
      ∃ found, Reports WORK_ROOT_PATH found ∧ pass' = { pass with findings := pass.findings ++ found } := by
  cases work_base_fd with
  | none =>
    cases h
    exact ⟨fun _ hfd => absurd hfd (by simp), [], (Changes.nil _).reports, by rw [List.append_nil]⟩
  | some parent_fd =>
    simp only [diff_work_root] at h
    cases hopen : tree.open_child_directory parent_fd txid with
    | error errno =>
      simp only [hopen] at h
      obtain ⟨found, hfound, h⟩ := bind_eq_ok_iff.mp h
      cases h
      refine ⟨?_, found, open_failure_eq_ok hfound, rfl⟩
      rintro fd hfd other hother
      cases hfd
      rw [hopen] at hother
      cases hother
      exact open_failure_mismatch hfound
    | ok fd =>
      simp only [hopen] at h
      obtain ⟨found, hfound, h⟩ := bind_eq_ok_iff.mp h
      cases h
      refine ⟨?_, found, (directory_changes_eq_ok hfound).reports, rfl⟩
      rintro other hother errno herror
      cases hother
      rw [hopen] at herror
      cases herror

theorem diff_work_root_returns (hext4 : tree.filesystem_type = "ext4") {work_base_fd : Option Fd}
    (h : ∀ fd, work_base_fd = some fd → tree.Answers fd txid) :
    ∃ pass', diff_work_root tree work_base_fd txid pass item = .ok pass' := by
  cases work_base_fd with
  | none => exact ⟨pass, rfl⟩
  | some parent_fd =>
    simp only [diff_work_root]
    cases hopen : tree.open_child_directory parent_fd txid with
    | error errno =>
      obtain ⟨found, hfound, _⟩ := open_failure_eq tree parent_fd txid WORK_ROOT_PATH false (h parent_fd rfl errno hopen)
      simp only [hfound, ok_bind]
      exact ⟨_, rfl⟩
    | ok fd =>
      obtain ⟨found, hfound, _⟩ := directory_changes_eq hext4 fd WORK_ROOT_PATH item
      simp only [hfound, ok_bind]
      exact ⟨_, rfl⟩

theorem mount_changed_valid (mount_id : Nat) :
    (⟨"", .MOUNT_CHANGED, [("mount_id", toString mount_id)]⟩ : AssemblyFinding).Valid := by
  refine valid_iff.mpr ⟨rfl, ?_⟩
  simp only [List.mem_singleton, forall_eq]
  exact require_decimal (by decide) _

theorem diff_project_root_eq_ok {mount_id : Nat} (h : diff_project_root tree mount_id pass item = .ok pass') :
    tree.filesystem_type = "ext4" ∧
      ∃ found, Reports "" found ∧ pass' = { pass with findings := pass.findings ++ found } := by
  unfold diff_project_root at h
  obtain ⟨changes, hchanges, h⟩ := bind_eq_ok_iff.mp h
  refine ⟨ext4_of_directory_changes hchanges, ?_⟩
  have hroot := directory_changes_eq_ok hchanges
  dsimp only at h
  split at h
  · cases h
    exact ⟨changes, hroot.reports, rfl⟩
  · have hvalid := mount_changed_valid (tree.read_mount_id tree.project_root_fd)
    rw [finding_of_valid hvalid] at h
    cases h
    refine ⟨changes ++ [_], (hroot.append (changes_singleton hvalid (by simp [sole_kinds]))).reports, ?_⟩
    rw [List.append_assoc]

theorem diff_project_root_returns (hext4 : tree.filesystem_type = "ext4") (mount_id : Nat) :
    ∃ pass', diff_project_root tree mount_id pass item = .ok pass' := by
  obtain ⟨changes, hchanges, _⟩ := directory_changes_eq hext4 tree.project_root_fd "" item
  simp only [diff_project_root, hchanges, ok_bind]
  split
  · exact ⟨_, rfl⟩
  · rw [finding_of_valid (mount_changed_valid _)]
    exact ⟨_, rfl⟩

/-- The descriptor of a directory's parent leads to the directory. -/
theorem Passed.walk_eq (h : Passed tree done pass) {path : String} (hrel : IsRelPath path) {parent_fd : Fd}
    (hget : pass.project_fds.get (parent_text path) = some parent_fd) :
    tree.walk (components path) = tree.open_child_directory parent_fd (component_of path) := by
  obtain ⟨hroot, hwalk⟩ | ⟨hne, _, hwalk⟩ := tree.walk_path hrel
  · rw [hroot, h.root, Option.some.injEq] at hget
    rw [hwalk, hget]
  · rw [hwalk, (h.opened _ _ hne hget).2]
    rfl

omit [UnicodeData] in
/-- A path is skipped where the pass has blocked a path above it. -/
theorem blocked_iff {path : String} : (∃ above ∈ pass.blocked, path = above ∨ starts_with (above ++ "/") path = true) ↔
    ∃ above ∈ pass.blocked, path = above ∨ Beneath path above := by
  simp only [beneath_iff_starts_with]

theorem diff_directory_eq_ok (h : Passed tree done pass) (hdecoded : Decoded document)
    (hdone : ∀ other ∈ done, other ∈ document.directories) {path : String} (hrel : IsRelPath path)
    (hfresh : some path ∉ done.map DirectoryEvidence.path) (hstep : diff_directory tree path pass item = .ok pass') :
    Cut tree document path ∨ Listed document (parent_text path) ∧
      ∀ errno, tree.walk (components path) = .error errno → errno ∈ mismatch_errnos := by
  have hlisted : ∀ other, some other ∈ done.map DirectoryEvidence.path → Listed document other := by
    intro other hother
    obtain ⟨directory, hdirectory, heq⟩ := List.mem_map.mp hother
    exact List.mem_map.mpr ⟨directory, hdone directory hdirectory, heq⟩
  unfold diff_directory at hstep
  split at hstep
  · rename_i hblocked
    obtain ⟨above, habove, heq | hbeneath⟩ := blocked_iff.mp hblocked
    · exact absurd (heq ▸ (h.blocked above habove).1) hfresh
    · exact .inl ⟨above, hlisted above (h.blocked above habove).1, hbeneath, (h.blocked above habove).2⟩
  · obtain ⟨parent_fd, hget, hstep⟩ := bind_eq_ok_iff.mp hstep
    rw [subscript_eq_ok_iff] at hget
    refine .inr ⟨?_, fun errno herror => ?_⟩
    · by_cases hroot : parent_text path = ""
      · rw [hroot]
        exact hdecoded.root
      · exact hlisted _ (h.opened _ _ hroot hget).1
    · rw [h.walk_eq hrel hget] at herror
      simp only [herror] at hstep
      obtain ⟨found, hfound, _⟩ := bind_eq_ok_iff.mp hstep
      exact open_failure_mismatch hfound

theorem diff_directory_returns (h : Passed tree done pass) (hext4 : tree.filesystem_type = "ext4") {path : String}
    (hrel : IsRelPath path)
    (habove : ∀ above, Listed document above → Beneath path above → some above ∈ done.map DirectoryEvidence.path)
    (hreached : Cut tree document path ∨ Listed document (parent_text path) ∧
      ∀ errno, tree.walk (components path) = .error errno → errno ∈ mismatch_errnos) :
    ∃ pass', diff_directory tree path pass item = .ok pass' := by
  unfold diff_directory
  split
  · exact ⟨pass, rfl⟩
  rename_i hblocked
  rw [blocked_iff] at hblocked
  -- a path that the pass has settled above this one is open
  have hsettled : ∀ above, Listed document above → Beneath path above → above ≠ "" →
      ∃ fd, pass.project_fds.get above = some fd := by
    intro above hlisted hbeneath hne
    obtain ⟨other, hother, heq | hunder⟩ | hopen := h.settled above (habove above hlisted hbeneath) hne
    · exact absurd ⟨other, hother, .inr (heq ▸ hbeneath)⟩ hblocked
    · exact absurd ⟨other, hother, .inr (hbeneath.trans hunder)⟩ hblocked
    · exact hopen
  have hnonempty : ∀ above, Beneath path above → above ≠ "" := by
    rintro _ ⟨n, _, htake⟩ rfl
    have hmem : "" ∈ components path := List.take_subset n _ (htake ▸ List.mem_singleton_self "")
    exact (of_is_rel_path hrel).1 "" hmem rfl
  obtain ⟨above, hlisted, hbeneath, hclosed⟩ | ⟨hparent, hmismatch⟩ := hreached
  · obtain ⟨fd, hget⟩ := hsettled above hlisted hbeneath (hnonempty above hbeneath)
    exact absurd (h.opened above fd (hnonempty above hbeneath) hget).2 (hclosed fd)
  have hget : ∃ parent_fd, pass.project_fds.get (parent_text path) = some parent_fd := by
    obtain ⟨hroot, _⟩ | ⟨hne, hbeneath, _⟩ := tree.walk_path hrel
    · exact ⟨tree.project_root_fd, hroot ▸ h.root⟩
    · exact hsettled _ hparent hbeneath hne
  obtain ⟨parent_fd, hget⟩ := hget
  rw [subscript_eq_ok_iff.mpr hget, ok_bind]
  cases hopen : tree.open_child_directory parent_fd (component_of path) with
  | error errno =>
    obtain ⟨found, hfound, _⟩ := open_failure_eq tree parent_fd (component_of path) path item.identity.isNone
      (hmismatch errno ((h.walk_eq hrel hget).trans hopen))
    simp only [hfound, ok_bind]
    exact ⟨_, rfl⟩
  | ok fd =>
    obtain ⟨found, hfound, _⟩ := directory_changes_eq hext4 fd path item
    simp only [hfound, ok_bind]
    exact ⟨_, rfl⟩

/-- A directory that the pass has come past is open, or a path at or above it is blocked. -/
theorem Passed.directory (h : Passed tree done pass) (hdecoded : Decoded document)
    (hdone : ∀ other ∈ done, other ∈ document.directories) (hitem : item ∈ document.directories) {path : String}
    (hpath : item.path = some path) (hrel : IsRelPath path) (hfresh : item.path ∉ done.map DirectoryEvidence.path)
    (hstep : diff_directory tree path pass item = .ok pass') : Passed tree (done ++ [item]) pass' := by
  have hnonempty : path ≠ "" := by
    rintro rfl
    exact (of_is_rel_path hrel).1 "" (List.mem_singleton_self "") rfl
  have hmem : ∀ other, other ∈ (done ++ [item]).map DirectoryEvidence.path ↔
      other ∈ done.map DirectoryEvidence.path ∨ other = some path := by
    intro other
    rw [List.map_append, List.mem_append, List.map_singleton, List.mem_singleton, hpath]
  have hreported : atoms.coordinator.reported item.path = path := by
    rw [hpath]
    rfl
  unfold diff_directory at hstep
  split at hstep
  · rename_i hblocked
    cases hstep
    have hnothing := h.append hdecoded hdone hitem hfresh (Changes.nil _).reports
    rw [List.append_nil] at hnothing
    refine ⟨hnothing.1, hnothing.2, h.root, fun other fd hne hget => ?_, fun above habove => ?_, fun other hlisted hne => ?_⟩
    · exact ⟨(hmem _).mpr (.inl (h.opened other fd hne hget).1), (h.opened other fd hne hget).2⟩
    · exact ⟨(hmem _).mpr (.inl (h.blocked above habove).1), (h.blocked above habove).2⟩
    · obtain hlisted | heq := (hmem _).mp hlisted
      · exact h.settled other hlisted hne
      · obtain rfl := Option.some.inj heq
        exact .inl (blocked_iff.mp hblocked)
  · obtain ⟨parent_fd, hget, hstep⟩ := bind_eq_ok_iff.mp hstep
    rw [subscript_eq_ok_iff] at hget
    have hwalk := h.walk_eq hrel hget
    cases hopen : tree.open_child_directory parent_fd (component_of path) with
    | error errno =>
      simp only [hopen] at hstep
      obtain ⟨found, hfound, hstep⟩ := bind_eq_ok_iff.mp hstep
      cases hstep
      have hfindings := h.append hdecoded hdone hitem hfresh (hreported.symm ▸ open_failure_eq_ok hfound)
      refine ⟨hfindings.1, hfindings.2, h.root, fun other fd hne hget => ?_, fun above habove => ?_,
        fun other hlisted hne => ?_⟩
      · exact ⟨(hmem _).mpr (.inl (h.opened other fd hne hget).1), (h.opened other fd hne hget).2⟩
      · obtain rfl | habove := List.mem_cons.mp habove
        · refine ⟨(hmem _).mpr (.inr rfl), fun fd hfd => ?_⟩
          rw [hwalk, hopen] at hfd
          cases hfd
        · exact ⟨(hmem _).mpr (.inl (h.blocked above habove).1), (h.blocked above habove).2⟩
      · obtain hlisted | heq := (hmem _).mp hlisted
        · obtain ⟨above, habove, hunder⟩ | hfd := h.settled other hlisted hne
          · exact .inl ⟨above, List.mem_cons_of_mem _ habove, hunder⟩
          · exact .inr hfd
        · exact .inl ⟨path, List.mem_cons_self, .inl (Option.some.inj heq)⟩
    | ok fd =>
      simp only [hopen] at hstep
      obtain ⟨found, hfound, hstep⟩ := bind_eq_ok_iff.mp hstep
      cases hstep
      have hfindings := h.append hdecoded hdone hitem hfresh (hreported.symm ▸ (directory_changes_eq_ok hfound).reports)
      refine ⟨hfindings.1, hfindings.2, ?_, fun other other_fd hne hget => ?_, fun above habove => ?_,
        fun other hlisted hne => ?_⟩
      · rw [Dict.get_put, if_neg hnonempty.symm]
        exact h.root
      · rw [Dict.get_put] at hget
        split at hget
        · rename_i heq
          cases hget
          exact ⟨(hmem _).mpr (.inr (congrArg some heq)), heq ▸ hwalk.trans hopen⟩
        · exact ⟨(hmem _).mpr (.inl (h.opened other other_fd hne hget).1), (h.opened other other_fd hne hget).2⟩
      · exact ⟨(hmem _).mpr (.inl (h.blocked above habove).1), (h.blocked above habove).2⟩
      · obtain hlisted | heq := (hmem _).mp hlisted
        · obtain hblocked | ⟨other_fd, hget⟩ := h.settled other hlisted hne
          · exact .inl hblocked
          · refine .inr ?_
            rw [Dict.get_put]
            split
            · exact ⟨fd, rfl⟩
            · exact ⟨other_fd, hget⟩
        · refine .inr ⟨fd, ?_⟩
          rw [Dict.get_put, if_pos (Option.some.inj heq)]

/-- One item: the pass comes past it exactly where it is reached. -/
theorem Passed.next (h : Passed tree done pass) (hdecoded : Decoded document) (mount_id : Nat)
    (hdone : ∀ other ∈ done, other ∈ document.directories) (hitem : item ∈ document.directories)
    (hfresh : item.path ∉ done.map DirectoryEvidence.path)
    (hstep : diff_item tree mount_id (tree.work_base_fd document.work_root) txid pass item = .ok pass') :
    Passed tree (done ++ [item]) pass' ∧ Reached tree document txid item.path := by
  cases hpath : item.path with
  | none =>
    simp only [diff_item, hpath] at hstep
    obtain ⟨hanswers, found, hfound, rfl⟩ := diff_work_root_eq_ok hstep
    refine ⟨h.report hdecoded hdone hitem hfresh (by simp [hpath]) ?_, hanswers⟩
    rw [hpath]
    exact hfound
  | some path =>
    simp only [diff_item, hpath] at hstep
    split at hstep
    · rename_i hempty
      subst hempty
      obtain ⟨_, found, hfound, rfl⟩ := diff_project_root_eq_ok hstep
      refine ⟨h.report hdecoded hdone hitem hfresh (by simp [hpath]) ?_, fun hne => absurd rfl hne⟩
      rw [hpath]
      exact hfound
    · rename_i hne
      have hrel := hdecoded.rel_path path (hpath ▸ List.mem_map_of_mem hitem) hne
      exact ⟨h.directory hdecoded hdone hitem hpath hrel hfresh hstep,
        fun _ => diff_directory_eq_ok h hdecoded hdone hrel (hpath ▸ hfresh) hstep⟩

theorem diff_item_returns (h : Passed tree done pass) (hdecoded : Decoded document)
    (hext4 : tree.filesystem_type = "ext4") (mount_id : Nat) (hitem : item ∈ document.directories)
    (habove : ∀ path above, item.path = some path → Listed document above → Beneath path above →
      some above ∈ done.map DirectoryEvidence.path)
    (hreached : Reached tree document txid item.path) :
    ∃ pass', diff_item tree mount_id (tree.work_base_fd document.work_root) txid pass item = .ok pass' := by
  cases hpath : item.path with
  | none =>
    simp only [diff_item, hpath]
    rw [hpath] at hreached
    exact diff_work_root_returns hext4 hreached
  | some path =>
    simp only [diff_item, hpath]
    rw [hpath] at hreached
    split
    · exact diff_project_root_returns hext4 mount_id
    · rename_i hne
      have hrel := hdecoded.rel_path path (hpath ▸ List.mem_map_of_mem hitem) hne
      exact diff_directory_returns h hext4 hrel (habove path · hpath) (hreached hne)

/-- The items from one on: the directories above a path come before it. -/
structure Ordered (document : ApprovalEvidence) (done rest : List DirectoryEvidence) : Prop where
  sorted : rest.Pairwise pass_le
  listed : ∀ item, item ∈ done ++ rest ↔ item ∈ document.directories
  paths_nodup : ((done ++ rest).map DirectoryEvidence.path).Nodup

omit [UnicodeData] in
theorem Ordered.tail {rest : List DirectoryEvidence} (h : Ordered document done (item :: rest)) :
    Ordered document (done ++ [item]) rest := by
  have happend : done ++ [item] ++ rest = done ++ item :: rest := by
    rw [List.append_assoc, List.singleton_append]
  exact ⟨(List.pairwise_cons.mp h.sorted).2, happend ▸ h.listed, happend ▸ h.paths_nodup⟩

omit [UnicodeData] in
theorem Ordered.fresh {rest : List DirectoryEvidence} (h : Ordered document done (item :: rest)) :
    item.path ∉ done.map DirectoryEvidence.path := by
  have hnodup := h.paths_nodup
  rw [List.map_append, List.map_cons, List.nodup_append] at hnodup
  exact fun hmem => hnodup.2.2 _ hmem _ List.mem_cons_self rfl

omit [UnicodeData] in
theorem Ordered.above {rest : List DirectoryEvidence} (h : Ordered document done (item :: rest)) {path above : String}
    (hpath : item.path = some path) (hlisted : Listed document above) (hbeneath : Beneath path above) :
    some above ∈ done.map DirectoryEvidence.path := by
  obtain ⟨directory, hdirectory, heq⟩ := List.mem_map.mp hlisted
  have hdepth : depth above < depth path := by
    have hlength := hbeneath.length_lt
    rw [length_components, length_components] at hlength
    exact Nat.lt_of_succ_lt_succ hlength
  obtain hmem | hmem := List.mem_append.mp ((h.listed directory).mpr hdirectory)
  · exact List.mem_map.mpr ⟨directory, hmem, heq⟩
  have hle : pass_depth item.path ≤ pass_depth directory.path := by
    obtain rfl | hmem := List.mem_cons.mp hmem
    · exact Int.le_refl _
    · obtain hlt | ⟨heq, _⟩ := (List.pairwise_cons.mp h.sorted).1 directory hmem
      · exact Int.le_of_lt hlt
      · exact Int.le_of_eq heq
  rw [hpath, heq, pass_depth, pass_depth] at hle
  omega

/-- The run of the pass. -/
theorem Passed.run (hdecoded : Decoded document) (mount_id : Nat) {rest : List DirectoryEvidence}
    (hordered : Ordered document done rest) (h : Passed tree done pass)
    (hrun : rest.foldlM (diff_item tree mount_id (tree.work_base_fd document.work_root) txid) pass = .ok pass') :
    Passed tree (done ++ rest) pass' ∧ ∀ item ∈ rest, Reached tree document txid item.path := by
  induction rest generalizing done pass with
  | nil =>
    cases hrun
    rw [List.append_nil]
    exact ⟨h, fun _ hmem => absurd hmem List.not_mem_nil⟩
  | cons item rest ih =>
    obtain ⟨middle, hstep, hrun⟩ := foldlM_cons_eq_ok_iff.mp hrun
    have hdone : ∀ other ∈ done, other ∈ document.directories := fun other hother =>
      (hordered.listed other).mp (List.mem_append_left _ hother)
    have hitem := (hordered.listed item).mp (List.mem_append_right _ List.mem_cons_self)
    obtain ⟨hmiddle, hreached⟩ := h.next hdecoded mount_id hdone hitem hordered.fresh hstep
    obtain ⟨hend, hrest⟩ := ih hordered.tail hmiddle hrun
    rw [List.append_assoc] at hend
    exact ⟨hend, List.forall_mem_cons.mpr ⟨hreached, hrest⟩⟩

theorem Passed.returns (hdecoded : Decoded document) (hext4 : tree.filesystem_type = "ext4") (mount_id : Nat)
    {rest : List DirectoryEvidence} (hordered : Ordered document done rest) (h : Passed tree done pass)
    (hreached : ∀ item ∈ rest, Reached tree document txid item.path) :
    ∃ pass', rest.foldlM (diff_item tree mount_id (tree.work_base_fd document.work_root) txid) pass = .ok pass' := by
  induction rest generalizing done pass with
  | nil => exact ⟨pass, rfl⟩
  | cons item rest ih =>
    have hdone : ∀ other ∈ done, other ∈ document.directories := fun other hother =>
      (hordered.listed other).mp (List.mem_append_left _ hother)
    have hitem := (hordered.listed item).mp (List.mem_append_right _ List.mem_cons_self)
    obtain ⟨middle, hstep⟩ := diff_item_returns h hdecoded hext4 mount_id hitem
      (fun path above hpath hlisted hbeneath => hordered.above hpath hlisted hbeneath) (hreached item List.mem_cons_self)
    obtain ⟨hmiddle, _⟩ := h.next hdecoded mount_id hdone hitem hordered.fresh hstep
    obtain ⟨pass', hrun⟩ := ih hordered.tail hmiddle fun other hother => hreached other (List.mem_cons_of_mem _ hother)
    exact ⟨pass', foldlM_cons_eq_ok_iff.mpr ⟨middle, hstep, hrun⟩⟩

theorem passed_start (tree : CurrentTree Fd) {found : List AssemblyFinding} (hfound : Reports WORK_BASE_PATH found) :
    Passed tree [] { findings := found, project_fds := [("", tree.project_root_fd)], blocked := [] } where
  collected := hfound.collected
  reported other hother := .inl (hfound.path other hother)
  root := rfl
  opened path fd hne hget := by
    have hsingle := Dict.get_append_singleton [] "" tree.project_root_fd path
    rw [List.nil_append, if_neg hne] at hsingle
    rw [hsingle] at hget
    cases hget
  blocked _ h := absurd h List.not_mem_nil
  settled _ h := absurd h List.not_mem_nil

theorem ordered_start (hdecoded : Decoded document) :
    Ordered document [] (document.directories.insertionSort pass_le) := by
  have hperm := List.perm_insertionSort pass_le document.directories
  refine ⟨?_, fun item => ?_, ?_⟩
  · refine pairwise_sorted (fun item => toLex (pass_depth item.path, item.path.getD "")) (fun left right => ?_) _
    rw [Prod.Lex.toLex_le_toLex]
    exact Iff.rfl
  · rw [List.nil_append, hperm.mem_iff]
  · rw [List.nil_append, (hperm.map _).nodup_iff]
    exact hdecoded.paths_nodup

end

/-- The pass over an accepted document ends, and what it found can be frozen, exactly where it can follow the document. -/
theorem assembly_halt_expressible_iff {text : String} {document : ApprovalEvidence}
    (h : decode_approval_evidence text = .ok document) (tree : CurrentTree Fd) (txid : String) :
    (∃ findings, diff_approved_topology tree document txid = .ok findings ∧
      (findings ≠ [] → ∃ halt, assembly_halt txid text findings = .ok halt ∧
        (encode_assembly_halt halt >>= decode_assembly_halt) = .ok halt)) ↔ Followed tree document txid := by
  have hdecoded := decoded_of_decode h
  have hordered := ordered_start hdecoded
  have hmem : ∀ path, path ∈ document.directories.map DirectoryEvidence.path ↔
      ∃ item ∈ document.directories.insertionSort pass_le, item.path = path := by
    intro path
    simp only [List.mem_map, List.mem_insertionSort]
  constructor
  · rintro ⟨findings, hdiff, _⟩
    obtain ⟨work, hwork, hdiff⟩ := bind_eq_ok_iff.mp hdiff
    obtain ⟨pass, hrun, _⟩ := bind_eq_ok_iff.mp hdiff
    have hext4 : tree.filesystem_type = "ext4" := by
      obtain ⟨item, hitem, hpath⟩ := (hmem (some "")).mp hdecoded.root
      obtain ⟨before, after, hstep⟩ := exists_step_of_foldlM hrun hitem
      simp only [diff_item, hpath, if_pos] at hstep
      exact (diff_project_root_eq_ok hstep).1
    have hanswers := answers_of_work_base_findings hwork
    obtain ⟨found, hfound, hreports⟩ := work_base_findings_eq hext4 hanswers
    rw [hwork] at hfound
    cases hfound
    obtain ⟨_, hreached⟩ := (passed_start tree hreports).run hdecoded document.mount_id hordered hrun
    refine ⟨hext4, hanswers, fun fd hfd => ?_, fun path hlisted hne => ?_⟩
    · have hsome : document.work_root.isSome = true := by
        cases hwork : document.work_root with
        | none =>
          rw [hwork] at hfd
          cases hfd
        | some _ => rfl
      obtain ⟨item, hitem, hpath⟩ := (hmem none).mp (hdecoded.work_root.mpr hsome)
      exact (hpath ▸ hreached item hitem) fd hfd
    · obtain ⟨item, hitem, hpath⟩ := (hmem (some path)).mp hlisted
      exact (hpath ▸ hreached item hitem) hne
  · intro hfollowed
    obtain ⟨found, hfound, hreports⟩ := work_base_findings_eq hfollowed.ext4 hfollowed.work_base
    have hstart := passed_start tree hreports
    have hreached : ∀ item ∈ document.directories.insertionSort pass_le, Reached tree document txid item.path := by
      intro item hitem
      cases hpath : item.path with
      | none => exact hfollowed.work_root
      | some path => exact hfollowed.directory path ((hmem (some path)).mpr ⟨item, hitem, hpath⟩)
    obtain ⟨pass, hrun⟩ := hstart.returns hdecoded hfollowed.ext4 document.mount_id hordered hreached
    obtain ⟨hend, _⟩ := hstart.run hdecoded document.mount_id hordered hrun
    refine ⟨sorted_findings pass.findings, ?_, fun hne => ?_⟩
    · rw [diff_approved_topology, hfound, ok_bind, hrun]
      rfl
    · refine hend.collected.expressible (fun hnil => hne ?_) txid text
      rw [hnil]
      rfl

end

section

attribute [local instance] atoms.recovery.journal.ascii

/-- A directory of the evidence. -/
def directory_obj (node path : String) (inode : Int) : Json :=
  .obj [("identity", .obj [("st_dev", .int 1), ("st_ino", .int inode)]), ("lookup_proof", .str "exact_bytes"),
    ("name_max", .int 255), ("node", .str node), ("path", .str path)]

/-- The evidence of a directory at `path` and of the project root. -/
def evidence_obj (path : String) : Json :=
  .obj [("directories", .arr [directory_obj ("persistent:" ++ path) path 3, directory_obj "project_root" "" 2]),
    ("mount_id", .int 7), ("work_root", .null)]

def evidence (path : String) : String := dumps false (evidence_obj path)

/-- What the evidence says. -/
def evidence_document (path : String) : ApprovalEvidence where
  directories :=
    [{ node := "persistent:" ++ path
       path := some path
       identity := some { device := 1, inode := 3 }
       constraints := { lookup_proof := .EXACT_BYTES, name_max := 255 } },
     { node := "project_root"
       path := some ""
       identity := some { device := 1, inode := 2 }
       constraints := { lookup_proof := .EXACT_BYTES, name_max := 255 } }]
  mount_id := 7
  work_root := none

theorem load_evidence_evidence (path : String) : load_evidence (evidence path) = .ok (sort_keys (evidence_obj path)) ∧
    dumps false (sort_keys (evidence_obj path)) = evidence path := by
  have hdirectory : ∀ node path inode, Plain (directory_obj node path inode) := by
    intro node path inode
    refine .obj (by simp) ?_
    simp only [List.forall_mem_cons, List.not_mem_nil, false_implies, implies_true, and_true]
    refine ⟨.obj (by simp) ?_, .str _, .int _, .str _, .str _⟩
    simp only [List.forall_mem_cons, List.not_mem_nil, false_implies, implies_true, and_true]
    exact ⟨.int _, .int _⟩
  have hplain : Plain (evidence_obj path) := by
    refine .obj (by simp) ?_
    simp only [List.forall_mem_cons, List.not_mem_nil, false_implies, implies_true, and_true]
    refine ⟨.arr ?_, .int _, .null⟩
    simp only [List.forall_mem_cons, List.not_mem_nil, false_implies, implies_true, and_true]
    exact ⟨hdirectory _ _ _, hdirectory _ _ _⟩
  constructor
  · rw [load_evidence, evidence, loads_dumps false hplain]
    rfl
  · rw [evidence, dumps, dumps, sort_keys_sort_keys hplain]

theorem decode_nested_evidence : decode_approval_evidence (evidence "a") = .ok (evidence_document "a") := by
  obtain ⟨hload, hcanonical⟩ := load_evidence_evidence "a"
  rw [decode_approval_evidence, hload]
  simp only [ok_bind, hcanonical, require_true]
  decide +kernel

theorem decode_orphan_evidence : decode_approval_evidence (evidence "a/b") = .ok (evidence_document "a/b") := by
  obtain ⟨hload, hcanonical⟩ := load_evidence_evidence "a/b"
  rw [decode_approval_evidence, hload]
  simp only [ok_bind, hcanonical, require_true]
  decide +kernel

/-- A project root that has been remounted, with nothing in it. -/
def emptied_tree : CurrentTree Nat where
  project_root_fd := 2
  metadata_root_fd := 1
  filesystem_type := "ext4"
  open_child_directory _ _ := .error .ENOENT
  fstat fd := { device := 1, inode := fd }
  constraints _ := { lookup_proof := .EXACT_BYTES, name_max := 255 }
  read_mount_id _ := 8
  stat _ _ := .OTHER

/-- The emptied root is reported as it is. -/
theorem emptied_tree_reported : (∃ findings, diff_approved_topology emptied_tree (evidence_document "a") "tx" = .ok findings ∧
    (findings ≠ [] → ∃ halt, assembly_halt "tx" (evidence "a") findings = .ok halt ∧
      (encode_assembly_halt halt >>= decode_assembly_halt) = .ok halt)) ∧
    diff_approved_topology emptied_tree (evidence_document "a") "tx" =
      .ok [⟨"", .MOUNT_CHANGED, [("mount_id", "8")]⟩, ⟨"a", .NODE_MISSING, []⟩] := by
  refine ⟨(assembly_halt_expressible_iff decode_nested_evidence emptied_tree "tx").mpr ?_, by decide +kernel⟩
  refine ⟨rfl, fun hsome => (by cases hsome), fun fd hfd => (by cases hfd), fun path hlisted hne => .inr ?_⟩
  simp only [Listed, evidence_document, List.map_cons, List.map_nil, List.mem_cons, Option.some.injEq, List.not_mem_nil,
    or_false] at hlisted ⊢
  obtain rfl := hlisted.resolve_right hne
  refine ⟨.inr (by decide), fun errno herror => ?_⟩
  have hopen : emptied_tree.walk (components "a") = .error .ENOENT := rfl
  rw [hopen] at herror
  cases herror
  decide

/-- The pass looks for the descriptor of a parent that the document does not list. -/
theorem orphan_directory_raises : decode_approval_evidence (evidence "a/b") = .ok (evidence_document "a/b") ∧
    diff_approved_topology emptied_tree (evidence_document "a/b") "tx" = .error .KeyError :=
  ⟨decode_orphan_evidence, by decide +kernel⟩

end

end atoms.coordinator
