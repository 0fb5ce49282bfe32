import Atoms.Coordinator.Copy.Tree

open atoms.errors atoms.fingerprint atoms.paths atoms.spec atoms.recovery atoms.fs atoms.store atoms.chain checked crash

namespace atoms.coordinator

/-! What a snapshot says of a tree. -/

variable [Sha256] {d d' : Disk} {root : Inode} {skipped : List String} {entries : List (String × PathState)}

/-- The entries are what is in the tree, each under its path and with its state, but for the names of the root that are
passed over. -/
def Lists (d : Disk) (root : Inode) (skipped : List String) (entries : List (String × PathState)) : Prop :=
  ∀ path state, (path, state) ∈ entries ↔
    ∃ name rest, name ∉ skipped ∧ path = joined (name :: rest) ∧ state_at d root (name :: rest) = some state

theorem realized_of_state_at {names : List String} {state : PathState} (h : state_at d root names = some state) :
    Realized state := by
  obtain ⟨entry, _, rfl⟩ := Option.map_eq_some_iff.mp h
  exact realized_entry_state d entry

/-- A snapshot lists the tree, in the order of its paths. -/
theorem snapshot_lists {depth : Nat} {chain_head : String} {exclude_chain : Bool} {snapshot : Snapshot}
    (hspelled : ∀ parent name entry, d.lookup parent name = some entry → name ≠ "" ∧ '/' ∉ name.toList)
    (h : snapshot_of d depth root chain_head exclude_chain = .ok snapshot) : snapshot.chain_head = chain_head ∧
      Lists d root (passed_over exclude_chain) snapshot.entries ∧ Listing (passed_over exclude_chain) snapshot.entries := by
  obtain ⟨found, hfound, h⟩ := bind_eq_ok_iff.mp h
  obtain rfl := pure_eq_ok_iff.mp h
  have hnil : Spelled [] := fun name hname => absurd hname List.not_mem_nil
  have hlists : Lists d root (passed_over exclude_chain) (sorted_by Prod.fst found) := by
    intro path state
    rw [(sorted_by_perm Prod.fst found).mem_iff]
    exact mem_walk_tree hspelled hnil hfound path state
  have hcomponents : ∀ item ∈ sorted_by Prod.fst found, ∃ name rest, name ∉ passed_over exclude_chain ∧
      components item.1 = name :: rest ∧ state_at d root (name :: rest) = some item.2 := by
    intro item hitem
    obtain ⟨name, rest, hname, hpath, hstate⟩ := (hlists item.1 item.2).mp hitem
    refine ⟨name, rest, hname, ?_, hstate⟩
    rw [hpath, components_spelled (spelled_of_state_at hspelled hstate) (List.cons_ne_nil _ _)]
  refine ⟨rfl, hlists, ?_, pairwise_sorted_by Prod.fst found, fun item hitem => ?_, fun item hitem => ?_, fun item hitem => ?_⟩
  · exact ((sorted_by_perm Prod.fst found).map Prod.fst).nodup_iff.mpr (walk_tree_nodup hspelled hnil hfound)
  · obtain ⟨name, rest, _, hpath, hstate⟩ := hcomponents item hitem
    exact hpath ▸ spelled_of_state_at hspelled hstate
  · obtain ⟨name, rest, hname, hpath, _⟩ := hcomponents item hitem
    rw [hpath]
    rintro first ⟨rfl⟩
    exact hname
  · obtain ⟨name, rest, _, _, hstate⟩ := hcomponents item hitem
    exact realized_of_state_at hstate

omit [Sha256] in
theorem filter_paths_eq_nil {paths others : List String} : paths.filter (fun path => path ∉ others) = [] ↔ paths ⊆ others := by
  rw [List.filter_eq_nil_iff]
  simp only [decide_eq_true_eq, not_not]
  exact Iff.rfl

section

variable [UnicodeData]

theorem reads_prove_destination (depth : Nat) (plan : CopyPlan) (dest_root_fd : Inode) (source_paths : List String)
    (genesis_digest : Option String) : (prove_destination depth plan dest_root_fd source_paths genesis_digest).Reads :=
  .bind (.read _) fun _ => .bind (.read _) fun _ => .pure _

/-- A proof lists the destination, which has the paths that are expected and no others. -/
theorem prove_destination_completes {depth : Nat} {plan : CopyPlan} {source_paths : List String}
    {genesis_digest : Option String} {snapshot : Snapshot} {t : Disk}
    (hspelled : ∀ parent name entry, d.lookup parent name = some entry → name ≠ "" ∧ '/' ∉ name.toList)
    (h : (prove_destination depth plan root source_paths genesis_digest).Completes d snapshot t) :
    Lists d root [ROOT_CLAIM_LEAF] snapshot.entries ∧
      ∀ path, path ∈ snapshot.entries.map Prod.fst ↔ path ∈ expected_paths plan.args source_paths genesis_digest := by
  obtain ⟨found, hfound, h⟩ := Prog.Reads.completes_bind (.read _) h
  obtain ⟨hfound, _⟩ := Prog.completes_read_iff.mp hfound
  obtain ⟨_, hchecked, h⟩ := Prog.Reads.completes_bind (.read _) h
  obtain ⟨rfl, _⟩ := Prog.completes_pure_iff.mp h
  obtain ⟨hextras, hmissing⟩ := require_eq_ok_iff.mp (Prog.completes_read_iff.mp hchecked).1
  exact ⟨(snapshot_lists hspelled hfound).2.1, fun path =>
    ⟨fun hpath => filter_paths_eq_nil.mp hextras hpath, fun hpath => filter_paths_eq_nil.mp hmissing hpath⟩⟩

end

/-! What a baseline says of a tree. -/

/-- The state that a name is observed with. -/
def observed_state (d : Disk) (entry : fs.Entry) : PathState :=
  match entry.kind with
  | .directory => .DirectoryState { mode := d.modes.get entry.inode }
  | .symlink target => .SymlinkState { target, mode := d.modes.get entry.inode }
  | .file => .FileState (file_state d entry.inode)

/-- The state that a path of a surface is observed with; a path that leads nowhere is absent. -/
def observed_at (d : Disk) (root : Inode) (path : String) : PathState :=
  ((d.entry_at root (components path)).map (observed_state d)).getD ABSENT

omit [Sha256] in
/-- The directories of a path are opened as far as they lead. -/
theorem open_parents_returns (d : Disk) (parent_fd : Inode) (names : List String) :
    (open_parents parent_fd names).Returns d (d.directory_at parent_fd names) := by
  induction names generalizing parent_fd with
  | nil => exact .pure
  | cons name rest ih =>
    rw [Disk.directory_at_cons, open_parents]
    have hopen : ∀ inode, d.child parent_fd name = some inode → (open_child_directory parent_fd name).Returns d inode := by
      intro inode hchild
      refine .read ?_
      rw [Disk.child_eq_some_iff.mp hchild]
    have hfails : d.child parent_fd name = none → ∃ errno ∈ [Errno.ENOENT, .ENOTDIR, .ELOOP],
        (open_child_directory parent_fd name).Fails d (.OSError errno) := by
      intro hchild
      unfold Disk.child at hchild
      split at hchild
      · cases hchild
      · rename_i hnot
        cases hentry : d.lookup parent_fd name with
        | none => exact ⟨.ENOENT, by decide, .read (by rw [hentry])⟩
        | some entry =>
          obtain ⟨kind, inode⟩ := entry
          cases kind with
          | directory => exact absurd hentry (hnot inode)
          | symlink target => exact ⟨.ELOOP, by decide, .read (by rw [hentry])⟩
          | file => exact ⟨.ENOTDIR, by decide, .read (by rw [hentry])⟩
    cases hchild : d.child parent_fd name with
    | some inode => exact .bind (.try_ok (.bind (hopen inode hchild) .pure)) (ih inode)
    | none =>
      obtain ⟨errno, hmem, hfail⟩ := hfails hchild
      refine .bind (a := none) (.try_error hfail.bind ?_) .pure
      simp only [if_pos hmem]
      exact .pure

variable [UnicodeData]

theorem capture_path_returns (d : Disk) (root : Inode) (path : String) :
    (capture_path root path).Returns d (observed_at d root path) := by
  refine .bind (open_parents_returns d root _) ?_
  have hstate : d.entry_at root (components path) = (d.directory_at root (components path).dropLast).bind fun parent =>
      d.lookup parent ((components path).getLast?.getD "") := by
    rw [← Disk.entry_at_concat, ← components_eq_concat]
  rw [observed_at, hstate]
  cases d.directory_at root (components path).dropLast with
  | none => exact .pure
  | some parent =>
    refine .bind (.read rfl) ?_
    rw [Option.bind_some, observe_entry]
    cases d.lookup parent ((components path).getLast?.getD "") with
    | none => exact .read rfl
    | some entry =>
      obtain ⟨kind, inode⟩ := entry
      cases kind <;> exact .read rfl

/-- A baseline states the paths of a surface, in their order. -/
def Baseline (d : Disk) (root : Inode) (paths : List String) (baseline : List (String × PathStateJSON)) : Prop :=
  List.Forall₂ (fun path item => item.1 = path ∧ state_to_json (observed_at d root path) = .ok item.2) paths baseline

theorem reads_capture_baseline (root : Inode) (paths : List String) : (capture_baseline root paths).Reads := by
  induction paths with
  | nil => exact .pure _
  | cons path rest ih =>
    have hpath : (capture_path root path).Reads := fun d => by
      rw [capture_path_returns d root path]
      exact ⟨rfl, rfl⟩
    rw [capture_baseline]
    exact .bind hpath fun _ => .bind (.read _) fun _ => .bind ih fun _ => .pure _

theorem capture_baseline_completes {paths : List String} {baseline : List (String × PathStateJSON)} {t : Disk}
    (h : (capture_baseline root paths).Completes d baseline t) : Baseline d root paths baseline := by
  induction paths generalizing baseline t with
  | nil =>
    obtain ⟨rfl, _⟩ := Prog.completes_pure_iff.mp h
    exact .nil
  | cons path rest ih =>
    rw [capture_baseline] at h
    have h := (capture_path_returns d root path).completes_bind h
    obtain ⟨facts, hfacts, h⟩ := Prog.Reads.completes_bind (.read _) h
    obtain ⟨hfacts, _⟩ := Prog.completes_read_iff.mp hfacts
    obtain ⟨found, hfound, h⟩ := (reads_capture_baseline root rest).completes_bind h
    obtain ⟨rfl, _⟩ := Prog.completes_pure_iff.mp h
    exact .cons ⟨rfl, hfacts⟩ (ih hfound)

/-! What agrees on a part of the tree is seen alike in it. -/

section

variable {part : List String → Prop} {names : List String}

omit [UnicodeData] in
theorem state_at_agrees (h : d.Agrees root part d') (hnames : part names) : state_at d' root names = state_at d root names := by
  unfold state_at
  rw [h.entry_at names hnames]
  cases hentry : d.entry_at root names with
  | none => rfl
  | some entry =>
    rw [Option.map_some, Option.map_some, entry_state_congr (h.contents names entry hnames hentry) (h.modes names entry hnames hentry)]

omit [UnicodeData] in
theorem observed_at_agrees {path : String} (h : d.Agrees root part d') (hpath : part (components path)) :
    observed_at d' root path = observed_at d root path := by
  unfold observed_at
  rw [h.entry_at _ hpath]
  cases hentry : d.entry_at root (components path) with
  | none => rfl
  | some entry =>
    rw [Option.map_some, Option.map_some]
    unfold observed_state file_state
    rw [h.contents _ entry hpath hentry, h.modes _ entry hpath hentry]

omit [UnicodeData] in
theorem Baseline.agrees {paths : List String} {baseline : List (String × PathStateJSON)} (h : Baseline d root paths baseline)
    (hagrees : d.Agrees root part d') (hpaths : ∀ path ∈ paths, part (components path)) : Baseline d' root paths baseline := by
  induction h with
  | nil => exact .nil
  | cons hitem _ ih =>
    obtain ⟨hpath, hrest⟩ := List.forall_mem_cons.mp hpaths
    exact .cons ⟨hitem.1, by rw [observed_at_agrees hagrees hpath, hitem.2]⟩ (ih hrest)

end

end atoms.coordinator
