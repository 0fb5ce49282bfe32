import Atoms.Chain.Directory
import Atoms.Coordinator.Lifecycle
import Atoms.Fs.Names

open atoms.errors atoms.fingerprint atoms.spec atoms.fs atoms.store atoms.chain checked crash

namespace atoms.coordinator

/-! What the walk of a tree depends on. -/

/-- The sorted names that are not passed over depend only on which names there are. -/
theorem sorted_names_congr {left right skipped : List String} (hleft : left.Nodup) (hright : right.Nodup)
    (h : ∀ name, name ∉ skipped → (name ∈ left ↔ name ∈ right)) :
    (sorted_by id left).filter (fun name => name ∉ skipped) = (sorted_by id right).filter fun name => name ∉ skipped := by
  have hnodup : ∀ names : List String, names.Nodup → ((sorted_by id names).filter fun name => name ∉ skipped).Nodup :=
    fun names hnames => ((sorted_by_perm id names).nodup_iff.mpr hnames).filter _
  refine List.Perm.eq_of_pairwise (fun _ _ _ _ hle hge => String.le_antisymm hle hge)
    ((pairwise_sorted_by id left).filter _) ((pairwise_sorted_by id right).filter _) ?_
  refine (List.perm_ext_iff_of_nodup (hnodup left hleft) (hnodup right hright)).mpr fun name => ?_
  simp only [List.mem_filter, decide_eq_true_eq, (sorted_by_perm id _).mem_iff]
  exact ⟨fun hname => ⟨(h name hname.2).mp hname.1, hname.2⟩, fun hname => ⟨(h name hname.2).mpr hname.1, hname.2⟩⟩

variable [Sha256] {d d' : Disk}

/-- Two volumes hold the same tree on a part that no name leads out of. -/
structure Disk.Same (part : Inode → Prop) (d d' : Disk) : Prop where
  closed : ∀ parent name entry, part parent → d.lookup parent name = some entry → part entry.inode
  lookup : ∀ parent name, part parent → d'.lookup parent name = d.lookup parent name
  contents : ∀ inode, part inode → d'.contents.get inode = d.contents.get inode
  modes : ∀ inode, part inode → d'.modes.get inode = d.modes.get inode

theorem state_of_entry_congr {parent_fd : Inode} {name : String}
    (hlookup : d'.lookup parent_fd name = d.lookup parent_fd name)
    (hheld : ∀ entry, d.lookup parent_fd name = some entry → d'.contents.get entry.inode = d.contents.get entry.inode ∧
      d'.modes.get entry.inode = d.modes.get entry.inode) :
    state_of_entry d' parent_fd name = state_of_entry d parent_fd name := by
  unfold state_of_entry file_state
  rw [hlookup]
  cases hentry : d.lookup parent_fd name with
  | none => rfl
  | some entry =>
    obtain ⟨kind, inode⟩ := entry
    obtain ⟨hcontents, hmodes⟩ := hheld _ hentry
    simp only at hcontents hmodes
    cases kind <;> simp only [hcontents, hmodes]

/-- The object that a walk goes into. -/
theorem directory_of_state {parent_fd child_fd : Inode} {name : String} {state : PathState}
    (h : state_of_entry d parent_fd name = .ok (state, some child_fd)) :
    d.lookup parent_fd name = some ⟨.directory, child_fd⟩ := by
  unfold state_of_entry at h
  split at h
  · cases h
  · cases h
    assumption
  · cases h
  · cases h

/-- A name is walked alike where its entry and what is below it are the same. -/
theorem walk_name_congr {walk walk' : Inode → String → Except Raised (List (String × PathState))} {parent_fd : Inode}
    {lead name : String} (hstate : state_of_entry d' parent_fd name = state_of_entry d parent_fd name)
    (hbelow : ∀ child_fd, d.lookup parent_fd name = some ⟨.directory, child_fd⟩ →
      walk' child_fd (join_path lead name) = walk child_fd (join_path lead name)) :
    walk_name walk' d' parent_fd lead name = walk_name walk d parent_fd lead name := by
  unfold walk_name
  rw [hstate]
  cases hentry : state_of_entry d parent_fd name with
  | error e => rfl
  | ok found =>
    obtain ⟨state, directory⟩ := found
    cases directory with
    | none => rfl
    | some child_fd => simp only [ok_bind, Option.map_some, Option.getD_some, hbelow child_fd (directory_of_state hentry)]

omit [Sha256] in
theorem listdir_mem_congr {parent_fd : Inode} {name : String} (h : d'.lookup parent_fd name = d.lookup parent_fd name) :
    name ∈ d'.listdir parent_fd ↔ name ∈ d.listdir parent_fd := by
  rw [Disk.mem_listdir, Disk.mem_listdir, h]

/-- Below a directory of the part, a walk finds the same. -/
theorem walk_tree_congr {part : Inode → Prop} (h : Disk.Same part d d') (depth : Nat) {parent_fd : Inode} (lead : String)
    (skipped : List String) (hpart : part parent_fd) :
    walk_tree d' depth parent_fd lead skipped = walk_tree d depth parent_fd lead skipped := by
  induction depth generalizing parent_fd lead skipped with
  | zero => rfl
  | succ depth ih =>
    rw [walk_tree, walk_tree, sorted_names_congr (d'.listdir_nodup parent_fd) (d.listdir_nodup parent_fd)
      fun name _ => listdir_mem_congr (h.lookup parent_fd name hpart)]
    have hname : walk_name (fun child_fd path => walk_tree d' depth child_fd path []) d' parent_fd lead =
        walk_name (fun child_fd path => walk_tree d depth child_fd path []) d parent_fd lead := by
      funext name
      refine walk_name_congr (state_of_entry_congr (h.lookup parent_fd name hpart) fun entry hentry => ?_) ?_
      · have hin := h.closed parent_fd name entry hpart hentry
        exact ⟨h.contents _ hin, h.modes _ hin⟩
      · exact fun child_fd hchild => ih _ _ (h.closed parent_fd name _ hpart hchild)
    rw [hname]

/-- Two volumes that differ at names that are passed over hold the same snapshot. -/
theorem snapshot_of_congr {root_fd : Inode} (hroot : d.Unreached root_fd)
    (hlookup : ∀ parent name, (parent, name) ≠ (root_fd, ROOT_CLAIM_LEAF) → d'.lookup parent name = d.lookup parent name)
    (hcontents : ∀ inode, d'.contents.get inode = d.contents.get inode)
    (hmodes : ∀ inode, d'.modes.get inode = d.modes.get inode) (depth : Nat) (chain_head : String) (exclude_chain : Bool) :
    snapshot_of d' depth root_fd chain_head exclude_chain = snapshot_of d depth root_fd chain_head exclude_chain := by
  have hsame : Disk.Same (· ≠ root_fd) d d' :=
    ⟨fun parent name entry _ hentry => hroot parent name entry hentry,
      fun parent name hparent => hlookup parent name fun heq => hparent (Prod.mk.inj heq).1,
      fun inode _ => hcontents inode, fun inode _ => hmodes inode⟩
  have hname : ∀ name, name ∉ passed_over exclude_chain → d'.lookup root_fd name = d.lookup root_fd name := by
    intro name hnot
    refine hlookup root_fd name fun heq => hnot ?_
    rw [(Prod.mk.inj heq).2]
    cases exclude_chain <;> exact List.mem_cons_self
  unfold snapshot_of
  cases depth with
  | zero => rfl
  | succ depth =>
    rw [walk_tree, walk_tree, sorted_names_congr (d'.listdir_nodup root_fd) (d.listdir_nodup root_fd)
      fun name hnot => listdir_mem_congr (hname name hnot)]
    have hnames : ∀ name ∈ (sorted_by id (d.listdir root_fd)).filter fun name => name ∉ passed_over exclude_chain,
        walk_name (fun child_fd path => walk_tree d' depth child_fd path []) d' root_fd "" name =
          walk_name (fun child_fd path => walk_tree d depth child_fd path []) d root_fd "" name := by
      intro name hmem
      have hpassed : name ∉ passed_over exclude_chain := of_decide_eq_true (List.mem_filter.mp hmem).2
      refine walk_name_congr (state_of_entry_congr (hname name hpassed) fun entry _ => ⟨hcontents _, hmodes _⟩) ?_
      exact fun child_fd hchild => walk_tree_congr hsame depth _ _ (hroot _ _ _ hchild)
    rw [mapM_congr hnames]

/-- A walk succeeds exactly when it succeeds at every name. -/
theorem walk_tree_succeeds_iff {depth : Nat} {parent_fd : Inode} {lead : String} {skipped : List String} :
    (∃ found, walk_tree d (depth + 1) parent_fd lead skipped = .ok found) ↔
      ∀ name ∉ skipped, name ∈ d.listdir parent_fd →
        ∃ found, walk_name (fun child_fd path => walk_tree d depth child_fd path []) d parent_fd lead name = .ok found := by
  rw [walk_tree]
  have hmap : ∀ names : Except Raised (List (List (String × PathState))),
      (∃ found, (names >>= fun found => pure found.flatten) = .ok found) ↔ ∃ found, names = .ok found := by
    intro names
    cases names with
    | error e => simp
    | ok found => simp
  rw [hmap, exists_mapM_iff]
  simp only [List.mem_filter, decide_eq_true_eq, (sorted_by_perm id _).mem_iff]
  exact ⟨fun h name hnot hmem => h name ⟨hmem, hnot⟩, fun h name hmem => h name hmem.2 hmem.1⟩

/-- A name of a file or a symlink is walked without going deeper. -/
theorem walk_name_file {walk : Inode → String → Except Raised (List (String × PathState))} {parent_fd : Inode}
    {lead name : String} {entry : fs.Entry} (hentry : d.lookup parent_fd name = some entry) (hkind : entry.kind ≠ .directory) :
    ∃ found, walk_name walk d parent_fd lead name = .ok found := by
  unfold walk_name state_of_entry
  rw [hentry]
  obtain ⟨kind, inode⟩ := entry
  cases kind with
  | directory => exact absurd rfl hkind
  | file => exact ⟨_, rfl⟩
  | symlink target => exact ⟨_, rfl⟩

theorem walk_name_directory {walk : Inode → String → Except Raised (List (String × PathState))} {parent_fd child_fd : Inode}
    {lead name : String} (hentry : d.lookup parent_fd name = some ⟨.directory, child_fd⟩) :
    (∃ found, walk_name walk d parent_fd lead name = .ok found) ↔ ∃ below, walk child_fd (join_path lead name) = .ok below := by
  unfold walk_name state_of_entry
  rw [hentry]
  have hbelow : ∀ below : Except Raised (List (String × PathState)),
      (∃ found, (below >>= fun below =>
        pure ((join_path lead name, PathState.DirectoryState { mode := d.modes.get child_fd }) :: below)) = .ok found) ↔
      ∃ found, below = .ok found := by
    intro below
    cases below with
    | error e => simp
    | ok found => simp
  exact hbelow _

end atoms.coordinator
