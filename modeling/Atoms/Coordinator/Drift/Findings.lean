import Atoms.Coordinator.Drift
import Atoms.Store.Assembly.RoundTrip

open atoms.errors atoms.paths atoms.store atoms.fs checked dict json

namespace atoms.store

theorem mem_digits {c : Char} (h : c.isDigit = true) (hzero : c ≠ '0') : c ∈ "123456789".toList := by
  have hbounds : 48 ≤ c.toNat ∧ c.toNat ≤ 57 := by
    simp only [Char.isDigit, Bool.and_eq_true, decide_eq_true_eq, UInt32.le_iff_toNat_le] at h
    exact h
  have hne : c.toNat ≠ 48 := fun heq => hzero (by rw [← Char.ofNat_toNat c, heq])
  have hcases : c.toNat = 49 ∨ c.toNat = 50 ∨ c.toNat = 51 ∨ c.toNat = 52 ∨ c.toNat = 53 ∨ c.toNat = 54 ∨ c.toNat = 55 ∨
      c.toNat = 56 ∨ c.toNat = 57 := by omega
  rw [← Char.ofNat_toNat c]
  obtain heq | heq | heq | heq | heq | heq | heq | heq | heq := hcases <;> rw [heq] <;> decide

theorem is_decimal_toString (value : Nat) : is_decimal (toString value) = true := by
  obtain ⟨first, digits, hdigits, hfirst⟩ := exists_toDigits value
  have htext : (toString value).toList = first :: digits := by
    rw [← hdigits]
    exact String.toList_ofList
  by_cases hzero : first = '0'
  · have hvalue : value = 0 := head_toDigits (by rw [hdigits, hzero]; rfl)
    subst hvalue
    rfl
  · have hall : ∀ c ∈ first :: digits, c.isDigit = true := by
      intro c hc
      rw [← hdigits] at hc
      exact Nat.isDigit_of_mem_toDigits (by omega) (by omega) hc
    have hmem := mem_digits hfirst hzero
    rw [is_decimal, htext, Bool.or_eq_true, Bool.and_eq_true]
    exact .inr ⟨decide_eq_true hmem, List.all_eq_true.mpr hall⟩

end atoms.store

namespace atoms.coordinator

variable [UnicodeData]

/-- The findings are all of one path, and one of a sole kind stands alone. -/
structure Reports (path : String) (found : List AssemblyFinding) : Prop where
  path : ∀ item ∈ found, item.path = path
  valid : ∀ item ∈ found, item.Valid
  sole : ∀ item ∈ found, item.kind ∈ sole_kinds → found.length = 1

/-- The findings of a directory that is there. -/
structure Changes (path : String) (found : List AssemblyFinding) : Prop where
  path : ∀ item ∈ found, item.path = path
  valid : ∀ item ∈ found, item.Valid
  kind : ∀ item ∈ found, item.kind ∉ sole_kinds

theorem Changes.reports {path : String} {found : List AssemblyFinding} (h : Changes path found) : Reports path found :=
  ⟨h.path, h.valid, fun item hitem hkind => absurd hkind (h.kind item hitem)⟩

theorem Changes.nil (path : String) : Changes path [] :=
  ⟨fun _ h => absurd h List.not_mem_nil, fun _ h => absurd h List.not_mem_nil, fun _ h => absurd h List.not_mem_nil⟩

theorem Changes.append {path : String} {found more : List AssemblyFinding} (h : Changes path found)
    (hmore : Changes path more) : Changes path (found ++ more) where
  path item hitem := (List.mem_append.mp hitem).elim (h.path item) (hmore.path item)
  valid item hitem := (List.mem_append.mp hitem).elim (h.valid item) (hmore.valid item)
  kind item hitem := (List.mem_append.mp hitem).elim (h.kind item) (hmore.kind item)

theorem reports_singleton {item : AssemblyFinding} (h : item.Valid) : Reports item.path [item] where
  path _ hother := congrArg AssemblyFinding.path (List.mem_singleton.mp hother)
  valid _ hother := List.mem_singleton.mp hother ▸ h
  sole _ _ _ := rfl

theorem changes_singleton {item : AssemblyFinding} (h : item.Valid) (hkind : item.kind ∉ sole_kinds) :
    Changes item.path [item] where
  path _ hother := congrArg AssemblyFinding.path (List.mem_singleton.mp hother)
  valid _ hother := List.mem_singleton.mp hother ▸ h
  kind _ hother := List.mem_singleton.mp hother ▸ hkind

theorem finding_of_valid {item : AssemblyFinding} (h : item.Valid) : finding item.path item.kind item.observed = .ok item := by
  have hmade : assembly_finding item.path item.kind item.observed = .ok item := h
  rw [finding, hmade]
  rfl

theorem valid_iff {item : AssemblyFinding} : item.Valid ↔ item.observed.map Prod.fst = fact_keys item.kind ∧
    ∀ fact ∈ item.observed, require_fact fact = .ok () := by
  simp only [AssemblyFinding.Valid, assembly_finding, bind_eq_ok_iff, require_eq_ok_iff, forM_eq_ok_iff, pure_eq_ok_iff,
    exists_const, and_true]

/-- What the constructor accepts of facts with values of their domains. -/
theorem require_decimal {key : String} (hkey : key ∈ decimal_facts) (value : Nat) :
    require_fact (key, toString value) = .ok () := by
  rw [require_fact, if_pos hkey]
  exact require_of (is_decimal_toString value)

variable {Fd : Type} {tree : CurrentTree Fd}

theorem factless_eq (path : String) {kind : AssemblyFindingKind} (hkind : fact_keys kind = []) :
    factless path kind = .ok ⟨path, kind, []⟩ ∧ Reports path [⟨path, kind, []⟩] := by
  have hvalid : (⟨path, kind, []⟩ : AssemblyFinding).Valid := valid_iff.mpr ⟨hkind.symm, by simp⟩
  exact ⟨finding_of_valid hvalid, reports_singleton hvalid⟩

theorem wrong_kind_eq (tree : CurrentTree Fd) (parent_fd : Fd) (component path : String) :
    ∃ found, wrong_kind tree parent_fd component path = .ok found ∧ Reports path [found] := by
  have hvalid : ∀ kind ∈ ["file", "symlink", "other"],
      (⟨path, .WRONG_ENTRY_KIND, [("observed_kind", kind)]⟩ : AssemblyFinding).Valid := by
    intro kind hkind
    refine valid_iff.mpr ⟨rfl, ?_⟩
    simp only [List.mem_singleton, forall_eq]
    rw [require_fact, if_neg (by simp [decimal_facts]), if_pos rfl]
    exact require_of hkind
  have hfound : ∀ kind ∈ ["file", "symlink", "other"], ∃ found,
      finding path .WRONG_ENTRY_KIND [("observed_kind", kind)] = .ok found ∧ Reports path [found] := by
    intro kind hkind
    exact ⟨_, finding_of_valid (hvalid kind hkind), reports_singleton (hvalid kind hkind)⟩
  unfold wrong_kind
  split
  · exact hfound "file" (by simp)
  · exact hfound "symlink" (by simp)
  · exact hfound "other" (by simp)

theorem work_root_changed_eq {work_base : String} (h : work_base ∈ ["present", "absent"]) :
    ∃ found, work_root_changed work_base = .ok found ∧ Changes WORK_BASE_PATH [found] := by
  have hvalid : (⟨WORK_BASE_PATH, .WORK_ROOT_CHANGED, [("work_base", work_base)]⟩ : AssemblyFinding).Valid := by
    refine valid_iff.mpr ⟨rfl, ?_⟩
    simp only [List.mem_singleton, forall_eq]
    rw [require_fact, if_neg (by simp [decimal_facts]), if_neg (by simp), if_neg (by simp), if_pos rfl]
    exact require_of h
  exact ⟨_, finding_of_valid hvalid, changes_singleton hvalid (by simp [sole_kinds])⟩

theorem identity_changes_eq (tree : CurrentTree Fd) (fd : Fd) (path : String) (identity : Option FilesystemIdentity) :
    ∃ found, identity_changes tree fd path identity = .ok found ∧ Changes path found := by
  cases identity with
  | none => exact ⟨[], rfl, .nil path⟩
  | some identity =>
    rw [identity_changes]
    split
    · exact ⟨[], rfl, .nil path⟩
    · have hvalid : (⟨path, .IDENTITY_CHANGED, [("st_dev", toString (tree.fstat fd).device),
          ("st_ino", toString (tree.fstat fd).inode)]⟩ : AssemblyFinding).Valid := by
        refine valid_iff.mpr ⟨rfl, ?_⟩
        simp only [List.forall_mem_cons, List.not_mem_nil, false_implies, implies_true, and_true]
        exact ⟨require_decimal (by decide) _, require_decimal (by decide) _⟩
      rw [finding_of_valid hvalid]
      exact ⟨_, rfl, changes_singleton hvalid (by simp [sole_kinds])⟩

/-- The comparison of a directory needs the mechanism for its lookup relation, which there is for ext4, and no more. -/
theorem directory_changes_eq (hext4 : tree.filesystem_type = "ext4") (fd : Fd) (path : String) (expected : DirectoryEvidence) :
    ∃ found, directory_changes tree fd path expected = .ok found ∧ Changes path found := by
  obtain ⟨identity, hidentity, hchanges⟩ := identity_changes_eq tree fd path expected.identity
  have hread : read_lookup_constraints tree fd = .ok (tree.constraints fd) := by
    rw [read_lookup_constraints, require_supported, require_of hext4]
    rfl
  rw [directory_changes, hidentity, ok_bind, hread, ok_bind]
  split
  · exact ⟨identity, rfl, hchanges⟩
  · have hproof : (tree.constraints fd).lookup_proof.value ∈ lookup_proofs := by
      cases (tree.constraints fd).lookup_proof <;> decide
    have hvalid : (⟨path, .CONSTRAINTS_CHANGED, [("lookup_proof", (tree.constraints fd).lookup_proof.value),
        ("name_max", toString (tree.constraints fd).name_max)]⟩ : AssemblyFinding).Valid := by
      refine valid_iff.mpr ⟨rfl, ?_⟩
      simp only [List.forall_mem_cons, List.not_mem_nil, false_implies, implies_true, and_true]
      refine ⟨?_, require_decimal (by decide) _⟩
      rw [require_fact, if_neg (by simp [decimal_facts]), if_neg (by simp), if_pos rfl]
      exact require_of hproof
    rw [finding_of_valid hvalid]
    exact ⟨_, rfl, hchanges.append (changes_singleton hvalid (by simp [sole_kinds]))⟩

theorem ext4_of_directory_changes {fd : Fd} {path : String} {expected : DirectoryEvidence} {found : List AssemblyFinding}
    (h : directory_changes tree fd path expected = .ok found) : tree.filesystem_type = "ext4" := by
  rw [directory_changes] at h
  obtain ⟨_, _, h⟩ := bind_eq_ok_iff.mp h
  obtain ⟨_, hread, _⟩ := bind_eq_ok_iff.mp h
  obtain ⟨_, hsupported, _⟩ := bind_eq_ok_iff.mp hread
  exact require_eq_ok_iff.mp hsupported

/-- A directory that does not open is reported for the error numbers of a mismatch. -/
theorem open_failure_eq (tree : CurrentTree Fd) (parent_fd : Fd) (component pseudo : String) (planned : Bool) {errno : Errno}
    (h : errno ∈ mismatch_errnos) :
    ∃ found, open_failure tree parent_fd component pseudo planned errno = .ok found ∧ Reports pseudo found := by
  have hnothing : Reports pseudo [] := (Changes.nil pseudo).reports
  obtain ⟨wrong, hwrong, hreports⟩ := wrong_kind_eq tree parent_fd component pseudo
  have hmissing := factless_eq pseudo (show fact_keys .NODE_MISSING = [] from rfl)
  have hboundary := factless_eq pseudo (show fact_keys .MOUNT_BOUNDARY = [] from rfl)
  have hdenied := factless_eq pseudo (show fact_keys .ACCESS_DENIED = [] from rfl)
  simp only [mismatch_errnos, List.mem_cons, List.not_mem_nil, or_false] at h
  obtain rfl | rfl | rfl | rfl | rfl | rfl := h <;> simp only [open_failure]
  · split
    · exact ⟨_, rfl, hnothing⟩
    · rw [hmissing.1]
      exact ⟨_, rfl, hmissing.2⟩
  · split
    · exact ⟨_, rfl, hnothing⟩
    · rw [hwrong]
      exact ⟨_, rfl, hreports⟩
  · split
    · exact ⟨_, rfl, hnothing⟩
    · rw [hwrong]
      exact ⟨_, rfl, hreports⟩
  · rw [hboundary.1]
    exact ⟨_, rfl, hboundary.2⟩
  · rw [hdenied.1]
    exact ⟨_, rfl, hdenied.2⟩
  · rw [hdenied.1]
    exact ⟨_, rfl, hdenied.2⟩

theorem open_failure_mismatch {parent_fd : Fd} {component pseudo : String} {planned : Bool} {errno : Errno}
    {found : List AssemblyFinding} (h : open_failure tree parent_fd component pseudo planned errno = .ok found) :
    errno ∈ mismatch_errnos := by
  unfold open_failure at h
  split at h
  · decide
  · decide
  · decide
  · decide
  · decide
  · decide
  · cases h

/-- The work base, if it opens. -/
def CurrentTree.work_base_fd (tree : CurrentTree Fd) (expected : Option DirectoryFacts) : Option Fd :=
  expected.bind fun _ => (tree.open_child_directory tree.metadata_root_fd WORK_DIRECTORY).toOption

/-- A name is a directory, or the error number of its mismatch is one that is reported. -/
def CurrentTree.Answers (tree : CurrentTree Fd) (fd : Fd) (name : String) : Prop :=
  ∀ errno, tree.open_child_directory fd name = .error errno → errno ∈ mismatch_errnos

theorem work_base_failure_eq {errno : Errno} (h : errno ∈ mismatch_errnos) :
    ∃ found, work_base_failure errno = .ok found ∧ Reports WORK_BASE_PATH [found] := by
  obtain ⟨absent, habsent, hchanges⟩ := work_root_changed_eq (show "absent" ∈ ["present", "absent"] by simp)
  obtain ⟨present, hpresent, hchanges'⟩ := work_root_changed_eq (show "present" ∈ ["present", "absent"] by simp)
  have hboundary := factless_eq WORK_BASE_PATH (show fact_keys .MOUNT_BOUNDARY = [] from rfl)
  have hdenied := factless_eq WORK_BASE_PATH (show fact_keys .ACCESS_DENIED = [] from rfl)
  simp only [mismatch_errnos, List.mem_cons, List.not_mem_nil, or_false] at h
  obtain rfl | rfl | rfl | rfl | rfl | rfl := h
  · exact ⟨absent, habsent, hchanges.reports⟩
  · exact ⟨present, hpresent, hchanges'.reports⟩
  · exact ⟨present, hpresent, hchanges'.reports⟩
  · exact ⟨_, hboundary⟩
  · exact ⟨_, hdenied⟩
  · exact ⟨_, hdenied⟩

theorem work_base_failure_mismatch {errno : Errno} {found : AssemblyFinding} (h : work_base_failure errno = .ok found) :
    errno ∈ mismatch_errnos := by
  unfold work_base_failure at h
  split at h
  · decide
  · decide
  · decide
  · decide
  · decide
  · decide
  · cases h

theorem work_base_findings_eq (hext4 : tree.filesystem_type = "ext4") {expected : Option DirectoryFacts}
    (h : expected.isSome = true → tree.Answers tree.metadata_root_fd WORK_DIRECTORY) :
    ∃ found, work_base_findings tree expected = .ok (found, tree.work_base_fd expected) ∧ Reports WORK_BASE_PATH found := by
  have hnothing : Reports WORK_BASE_PATH [] := (Changes.nil WORK_BASE_PATH).reports
  cases expected with
  | none => exact ⟨[], rfl, hnothing⟩
  | some expected =>
    rw [work_base_findings, CurrentTree.work_base_fd, Option.bind_some]
    cases hopen : tree.open_child_directory tree.metadata_root_fd WORK_DIRECTORY with
    | error errno =>
      obtain ⟨found, hfound, hreports⟩ := work_base_failure_eq (h rfl errno hopen)
      simp only [hfound, ok_bind]
      exact ⟨[found], rfl, hreports⟩
    | ok fd =>
      have hread : read_lookup_constraints tree fd = .ok (tree.constraints fd) := by
        rw [read_lookup_constraints, require_supported, require_of hext4]
        rfl
      obtain ⟨present, hpresent, hchanges⟩ := work_root_changed_eq (show "present" ∈ ["present", "absent"] by simp)
      simp only [hread, ok_bind]
      split
      · exact ⟨[], rfl, hnothing⟩
      · rw [hpresent]
        exact ⟨[present], rfl, hchanges.reports⟩

theorem answers_of_work_base_findings {expected : Option DirectoryFacts} {work : List AssemblyFinding × Option Fd}
    (h : work_base_findings tree expected = .ok work) :
    expected.isSome = true → tree.Answers tree.metadata_root_fd WORK_DIRECTORY := by
  intro hsome errno hopen
  obtain ⟨facts, rfl⟩ := Option.isSome_iff_exists.mp hsome
  simp only [work_base_findings, hopen] at h
  obtain ⟨found, hfound, _⟩ := bind_eq_ok_iff.mp h
  exact work_base_failure_mismatch hfound

end atoms.coordinator
