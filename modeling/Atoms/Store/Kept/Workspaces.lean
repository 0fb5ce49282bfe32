import Atoms.Store.Kept

open atoms.errors atoms.identifiers atoms.fs atoms.spec checked keyed crash writeback

namespace atoms.store

/-! What the calls of a workspace find. -/

section

variable {dirs : Directories} {d : Disk}

theorem open_child_returns {fd inode : Inode} {parent txid : String} (h : d.lookup fd txid = some ⟨.directory, inode⟩) :
    (open_child fd parent txid).Returns d (some inode) := by
  refine .try_ok (Prog.Returns.bind (a := inode) (.read ?_) .pure)
  rw [h]

/-- An opened directory of the workspace, or none. -/
def found (fd : Option Inode) : Option Entry := fd.map fun fd => ⟨.directory, fd⟩

theorem open_child_completes {fd : Inode} {parent txid : String} {opened : Option Inode} {d' : Disk}
    (h : (open_child fd parent txid).Completes d opened d') : d.lookup fd txid = found opened := by
  cases hentry : d.lookup fd txid with
  | none =>
    have hread : (open_child_directory fd txid).Fails d (.OSError .ENOENT) := .read (by rw [hentry])
    have hreturns : (open_child fd parent txid).Returns d none := .try_error hread.bind .pure
    obtain ⟨rfl, _⟩ := hreturns.completes h
    rfl
  | some entry =>
    obtain ⟨kind, inode⟩ := entry
    cases kind with
    | directory =>
      obtain ⟨rfl, _⟩ := (open_child_returns hentry).completes h
      rfl
    | symlink target =>
      have hread : (open_child_directory fd txid).Fails d (.OSError .ELOOP) := .read (by rw [hentry])
      exact absurd h (Prog.Fails.not_completes (.try_error hread.bind .throw))
    | file =>
      have hread : (open_child_directory fd txid).Fails d (.OSError .ENOTDIR) := .read (by rw [hentry])
      exact absurd h (Prog.Fails.not_completes (.try_error hread.bind .throw))

theorem Laid.parent_staging (h : Laid dirs d) : (parent_fd dirs.root STAGING_PARENT).Returns d dirs.staging := by
  refine .read ?_
  rw [h.staging.lookup]

theorem Laid.parent_work (h : Laid dirs d) : (parent_fd dirs.root WORK_PARENT).Returns d dirs.work := by
  refine .read ?_
  rw [h.work.lookup]

theorem require_no_survivor_completes {fd : Inode} {parent txid : String} {d' : Disk}
    (h : (require_no_survivor fd parent txid).Completes d () d') : d.lookup fd txid = none := by
  obtain ⟨survivor, _, hstat, hrequire⟩ := Prog.completes_bind_iff.mp h
  obtain ⟨hsurvivor, rfl⟩ := Prog.completes_read_iff.mp hstat
  obtain rfl := Except.ok.inj hsurvivor
  exact (Prog.completes_guard hrequire).1

theorem reads_require_no_survivor (fd : Inode) (parent txid : String) : (require_no_survivor fd parent txid).Reads :=
  .bind (.read _) fun _ => .ite (.pure _) (.throw _)

theorem reads_open_child (fd : Inode) (parent txid : String) : (open_child fd parent txid).Reads := by
  refine .tryCatch (.bind (.read _) fun _ => .pure _) fun e => ?_
  split
  · exact .pure _
  · exact .throw _
  · exact .throw _
  · exact .throw _

theorem reads_open_both (txid : String) (staging_parent work_parent : Inode) :
    (open_both txid staging_parent work_parent).Reads :=
  .bind (reads_open_child _ _ _) fun _ => .bind (reads_open_child _ _ _) fun _ => .pure _

theorem reads_require_permitted_children [UnicodeData] (fd : Inode) (parent : String) : (require_permitted_children fd parent).Reads :=
  .bind (.read _) fun _ => .bind
    (.forM fun _ => .bind (.read _) fun _ => .bind (.ite (.pure _) (.throw _)) fun _ => .ite (.pure _) (.throw _)) fun _ => .pure _

theorem reads_list_workspaces [UnicodeData] (root : Inode) : (list_workspaces root).Reads :=
  .bind (.read _) fun _ => .bind (reads_require_permitted_children _ _) fun _ => .bind (.read _) fun _ =>
    .bind (reads_require_permitted_children _ _) fun _ => .pure _

theorem reads_reopen_workspace [UnicodeData] (root : Inode) (txid : String) : (reopen_workspace root txid).Reads :=
  .bind (.ite (.pure _) (.throw _)) fun _ => .bind (.read _) fun _ => .bind (.read _) fun _ =>
    .bind (reads_open_both _ _ _) fun _ => .bind (.ite (.pure _) (.throw _)) fun _ => .pure _

theorem require_permitted_children_completes [UnicodeData] {fd : Inode} {parent : String} {names : List String} {d' : Disk}
    (h : (require_permitted_children fd parent).Completes d names d') (name : String)
    (hname : (d.lookup fd name).isSome = true) : name ∈ names := by
  obtain ⟨listed, hlist, hrest⟩ := (Prog.Reads.read _).completes_bind h
  obtain rfl := Except.ok.inj (Prog.completes_read_iff.mp hlist).1
  obtain ⟨_, _, _, hpure⟩ := Prog.completes_bind_iff.mp hrest
  obtain ⟨rfl, _⟩ := Prog.completes_pure_iff.mp hpure
  exact (mem_sorted_by _ _ _).mpr (Disk.mem_listdir.mpr hname)

/-- The workspaces listed are all that have a name. -/
theorem list_workspaces_completes [UnicodeData] (h : Laid dirs d) {txids : List String} {d' : Disk}
    (hlist : (list_workspaces dirs.root).Completes d txids d') (txid : String)
    (hname : (d.lookup dirs.staging txid).isSome = true ∨ (d.lookup dirs.work txid).isSome = true) : txid ∈ txids := by
  have hlist := h.parent_staging.completes_bind hlist
  obtain ⟨staged, hstaged, hlist⟩ := (reads_require_permitted_children _ _).completes_bind hlist
  have hlist := h.parent_work.completes_bind hlist
  obtain ⟨worked, hworked, hlist⟩ := (reads_require_permitted_children _ _).completes_bind hlist
  obtain ⟨rfl, _⟩ := Prog.completes_pure_iff.mp hlist
  rw [mem_sorted_by, List.mem_dedup, List.mem_append]
  exact hname.imp (require_permitted_children_completes hstaged txid) (require_permitted_children_completes hworked txid)

theorem reopen_workspace_completes [UnicodeData] (h : Laid dirs d) {txid : String} {workspace : Workspace} {d' : Disk}
    (hopen : (reopen_workspace dirs.root txid).Completes d workspace d') : workspace.txid = txid ∧
      d.lookup dirs.staging txid = found workspace.staging_fd ∧ d.lookup dirs.work txid = found workspace.work_fd := by
  obtain ⟨_, _, hopen⟩ := (Prog.Reads.ite (.pure _) (.throw _)).completes_bind hopen
  have hopen := h.parent_work.completes_bind (h.parent_staging.completes_bind hopen)
  obtain ⟨opened, hboth, hopen⟩ := (reads_open_both _ _ _).completes_bind hopen
  obtain ⟨staging_fd, hstaging, hboth⟩ := (reads_open_child _ _ _).completes_bind hboth
  obtain ⟨work_fd, hwork, hboth⟩ := (reads_open_child _ _ _).completes_bind hboth
  obtain ⟨rfl, _⟩ := Prog.completes_pure_iff.mp hboth
  obtain ⟨_, _, hopen⟩ := (Prog.Reads.ite (.pure _) (.throw _)).completes_bind hopen
  obtain ⟨rfl, _⟩ := Prog.completes_pure_iff.mp hopen
  exact ⟨rfl, open_child_completes hstaging, open_child_completes hwork⟩

theorem reads_staging_names (txid : String) (staging_fd : Option Inode) : (staging_names txid staging_fd).Reads := by
  cases staging_fd with
  | none => exact .pure _
  | some fd => exact .bind (.read _) fun _ => .bind (.forM fun _ => .bind (.read _) fun _ => .ite (.pure _) (.throw _)) fun _ => .pure _

theorem reads_require_no_work (txid : String) (work_fd : Option Inode) : (require_no_work txid work_fd).Reads := by
  cases work_fd with
  | none => exact .pure _
  | some fd => exact .bind (.read _) fun _ => .ite (.pure _) (.throw _)

end

section

variable [UnicodeData] [Sha256] {dirs : Directories} {captured : List (List UInt8)} {db : Database} {d : Disk}

/-! The calls, where they keep what every state has. -/

theorem keeps_unlink_child {fd : Inode} (hfd : fd ∉ dirs.all) (name : String) :
    Prog.Keeps (Kept dirs captured db) (unlink_child fd name) := by
  obtain ⟨hroot, hstaging, hwork, hblobs, hsha256⟩ := Directories.ne_of_not_mem hfd
  refine .call fun d _ t h hcall => ?_
  split at hcall
  · cases hcall
  · cases hcall
  · rename_i entry _ hentry
    cases hcall
    exact h.set_entry (h.named.lookup hentry).1 hroot hblobs (fun _ hnone => nomatch hnone)
      (fun heq => absurd heq hsha256) fun heq => heq.elim (absurd · hstaging) (absurd · hwork)

/-- The directory of a transaction without a record may go. -/
theorem keeps_rmdir_child {parent : Inode} {txid : String} (hparent : parent = dirs.staging ∨ parent = dirs.work)
    (hrecord : db.record? txid = none) : Prog.Keeps (Kept dirs captured db) (rmdir_child parent txid) := by
  have hne : parent ≠ dirs.root ∧ parent ≠ dirs.blobs ∧ parent ≠ dirs.sha256 := by
    rcases hparent with rfl | rfl
    · exact ⟨dirs.staging_ne.1, dirs.staging_ne.2.1, dirs.staging_ne.2.2.1⟩
    · exact dirs.work_ne
  refine .call fun d _ t h hcall => ?_
  split at hcall
  · cases hcall
  · rename_i inode hentry
    split at hcall
    · cases hcall
      exact h.set_entry (h.named.lookup hentry).1 hne.1 hne.2.1 (fun _ hnone => nomatch hnone)
        (fun heq => absurd heq hne.2.2) fun _ => hrecord
    · cases hcall
  · cases hcall

theorem keeps_flush_directory (fd : Inode) : Prog.Keeps (Kept dirs captured db) (flush_directory fd) := by
  refine .call fun d _ t h hcall => ?_
  cases hcall
  exact h.fsync fd

/-! A workspace. -/

/-- A capture is under way: the transaction has no record yet, and its two directories are in place. -/
structure Working (dirs : Directories) (captured : List (List UInt8)) (db : Database) (txid : String) (staging_fd : Inode)
    (d : Disk) : Prop extends Kept dirs captured db d where
  staging : d.lookup dirs.staging txid = some ⟨.directory, staging_fd⟩
  work : ∃ fd, d.Holds dirs.work txid (some ⟨.directory, fd⟩)
  record : db.record? txid = none

theorem create_workspace_ensures (h : Kept dirs captured db d) (txid : String) :
    (create_workspace dirs.root txid).Ensures d (Kept dirs captured db)
      (Prog.ends (fun workspace t => ∃ staging_fd, workspace.txid = txid ∧ workspace.staging_fd = some staging_fd ∧
        Working dirs captured db txid staging_fd t ∧ ∀ name, t.lookup staging_fd name = none) (Kept dirs captured db)) := by
  have hstaging := h.below dirs.staging dirs.staging_mem
  have hwork := h.below dirs.work dirs.work_mem
  obtain ⟨hroot, hblobs, hsha256, hne⟩ := dirs.staging_ne
  obtain ⟨hroot', hblobs', hsha256'⟩ := dirs.work_ne
  refine .guard_bind (fun _ => ?_) fun _ => h
  refine h.laid.parent_staging.ensures_bind (h.laid.parent_work.ensures_bind ?_)
  refine (reads_require_no_survivor _ _ _).ensures_bind (fun _ hfree => ?_) fun _ => h
  refine (reads_require_no_survivor _ _ _).ensures_bind (fun _ hfree' => ?_) fun _ => h
  have hfree := require_no_survivor_completes hfree
  have hfree' := require_no_survivor_completes hfree'
  have hrecord := h.no_record hfree'
  -- the two directories
  have hmade : Kept dirs captured db (d.allocate .directory dirs.staging txid 0o700) :=
    h.allocate hstaging hroot hblobs hsha256 (fun _ => hrecord) .directory 0o700
  refine .call_ok_bind (a := ()) (by rw [hfree]) hmade ?_
  have hmade' : Kept dirs captured db
      ((d.allocate .directory dirs.staging txid 0o700).allocate .directory dirs.work txid 0o700) :=
    hmade.allocate (Nat.lt_succ_of_lt hwork) hroot' hblobs' hsha256' (fun _ => hrecord) .directory 0o700
  have hfree' : (d.allocate .directory dirs.staging txid 0o700).lookup dirs.work txid = none := by
    rw [Disk.lookup_allocate, if_neg (fun heq => hne (congrArg Prod.fst heq)), hfree']
  refine .call_ok_bind (a := ()) (by rw [hfree']) hmade' ?_
  generalize hd' : (d.allocate .directory dirs.staging txid 0o700).allocate .directory dirs.work txid 0o700 = d' at hmade'
  have hflushed := (hmade'.fsync dirs.staging).fsync dirs.work
  refine .call_ok_bind (a := ()) rfl (hmade'.fsync dirs.staging) (.call_ok_bind (a := ()) rfl hflushed ?_)
  -- where they are
  have hlookup : d'.lookup dirs.staging txid = some ⟨.directory, d.next⟩ := by
    rw [← hd', Disk.lookup_allocate, if_neg (fun heq => hne (congrArg Prod.fst heq).symm), Disk.lookup_allocate, if_pos rfl]
  have hlookup' : d'.lookup dirs.work txid = some ⟨.directory, d.next + 1⟩ := by
    rw [← hd', Disk.lookup_allocate, if_pos rfl]
    rfl
  have hempty : ∀ name, d'.lookup d.next name = none := by
    intro name
    rw [← hd', Disk.lookup_allocate, if_neg (fun heq => absurd (congrArg Prod.fst heq) (Nat.ne_of_lt hwork)),
      Disk.lookup_allocate, if_neg (fun heq => absurd (congrArg Prod.fst heq) (Nat.ne_of_lt hstaging))]
    exact h.unnamed name
  have hholds : ((d'.fsync dirs.staging).fsync dirs.work).Holds dirs.work txid (some ⟨.directory, d.next + 1⟩) :=
    .of_fsync (by rw [Disk.lookup_fsync, hlookup'])
  have hlookup : ((d'.fsync dirs.staging).fsync dirs.work).lookup dirs.staging txid = some ⟨.directory, d.next⟩ := by
    rw [Disk.lookup_fsync, Disk.lookup_fsync, hlookup]
  refine Prog.Returns.ensures (a := { txid, staging_fd := some d.next, work_fd := some (d.next + 1) }) ?_ ?_
  · exact (open_child_returns hlookup).bind ((open_child_returns hholds.lookup).bind .pure)
  · refine ⟨d.next, rfl, rfl, ⟨hflushed, hlookup, ⟨_, hholds⟩, hrecord⟩, fun name => ?_⟩
    rw [Disk.lookup_fsync, Disk.lookup_fsync, hempty]

/-! The removal of a workspace. -/

/-- In the directories of the root, only one name may have changed. -/
def Beside (dirs : Directories) (key : Inode × String) (d t : Disk) : Prop :=
  ∀ parent ∈ dirs.all, ∀ leaf, (parent, leaf) ≠ key → t.lookup parent leaf = d.lookup parent leaf

/-- In the directories of the root, no name has changed. -/
def Untouched (dirs : Directories) (d t : Disk) : Prop := ∀ parent ∈ dirs.all, ∀ leaf, t.lookup parent leaf = d.lookup parent leaf

omit [UnicodeData] [Sha256] in
theorem untouched_unlink_child {fd : Inode} (hfd : fd ∉ dirs.all) (name : String) (d : Disk) :
    Prog.Keeps (Untouched dirs d) (unlink_child fd name) := by
  refine .call fun t _ t' h hcall parent hparent leaf => ?_
  have hset : t'.lookup parent leaf = t.lookup parent leaf := by
    split at hcall
    · cases hcall
    · cases hcall
    · cases hcall
      refine t.lookup_set_entry_of_ne (fun heq => hfd ?_) none
      rw [(Prod.mk.inj heq).1]
      exact hparent
  exact hset.trans (h parent hparent leaf)

/-- A directory of a workspace without a record goes, and nothing else does. -/
theorem rmdir_child_ensures (h : Kept dirs captured db d) {parent : Inode} {txid : String}
    (hparent : parent = dirs.staging ∨ parent = dirs.work) (hrecord : db.record? txid = none) :
    (rmdir_child parent txid).Ensures d (Kept dirs captured db) (Prog.ends
      (fun _ t => Kept dirs captured db t ∧ t.lookup parent txid = none ∧ Beside dirs (parent, txid) d t)
      (Kept dirs captured db)) := by
  have hgone : (rmdir_child parent txid).Ensures d (fun _ => True)
      (Prog.ends (fun _ t => t.lookup parent txid = none ∧ Beside dirs (parent, txid) d t) fun _ => True) := by
    refine .call (fun _ t hcall => ⟨trivial, ?_⟩) fun _ _ => trivial
    split at hcall
    · cases hcall
    · split at hcall
      · cases hcall
        exact ⟨d.lookup_set_entry_self parent txid none, fun other _ leaf hne =>
          d.lookup_set_entry_of_ne (Ne.symm hne) none⟩
      · cases hcall
    · cases hcall
  refine ((keeps_rmdir_child hparent hrecord d h).and hgone).mono (fun _ => And.left) ?_
  rintro (e | u) t ⟨ht, hgone⟩
  · exact ht
  · exact ⟨ht, hgone⟩

theorem flush_directory_ensures (h : Kept dirs captured db d) (fd : Inode) {P : Disk → Prop}
    (hP : ∀ t : Disk, (∀ parent leaf, t.lookup parent leaf = d.lookup parent leaf) → P t) :
    (flush_directory fd).Ensures d (Kept dirs captured db) (Prog.ends (fun _ t => Kept dirs captured db t ∧ P t)
      (Kept dirs captured db)) :=
  .call_ok rfl (h.fsync fd) ⟨h.fsync fd, hP _ fun parent leaf => d.lookup_fsync fd parent leaf⟩

/-- The directory of a workspace without a record goes, with what is done before. -/
theorem remove_directory_ensures (h : Kept dirs captured db d) {parent : Inode} {txid : String}
    (hparent : parent = dirs.staging ∨ parent = dirs.work) (hrecord : db.record? txid = none) :
    (do
      rmdir_child parent txid
      flush_directory parent : Call Unit).Ensures d (Kept dirs captured db) (Prog.ends
        (fun _ t => Kept dirs captured db t ∧ t.lookup parent txid = none ∧ Beside dirs (parent, txid) d t)
        (Kept dirs captured db)) := by
  refine .bind (rmdir_child_ensures h hparent hrecord) (fun _ t ht => ?_) fun _ _ ht => ht
  obtain ⟨ht, hgone, hbeside⟩ := ht
  refine flush_directory_ensures ht parent fun t' hsame => ⟨(hsame _ _).trans hgone, ?_⟩
  exact fun other hother leaf hne => (hsame other leaf).trans (hbeside other hother leaf hne)

theorem remove_staging_ensures (h : Kept dirs captured db d) {txid : String} {staging_fd : Option Inode}
    (hopened : d.lookup dirs.staging txid = found staging_fd) (hrecord : db.record? txid = none) (names : List String) :
    (remove_staging dirs.staging txid names staging_fd).Ensures d (Kept dirs captured db) (Prog.ends
      (fun _ t => Kept dirs captured db t ∧ t.lookup dirs.staging txid = none ∧ Beside dirs (dirs.staging, txid) d t)
      (Kept dirs captured db)) := by
  cases staging_fd with
  | none => exact .pure ⟨h, hopened, fun _ _ _ _ => rfl⟩
  | some fd =>
    have hfd : fd ∉ dirs.all := h.outside hopened dirs.staging_ne.1 dirs.staging_ne.2.1
    have hloop : Prog.Keeps (fun t => Kept dirs captured db t ∧ Untouched dirs d t) (names.forM (unlink_child fd)) :=
      .forM fun name _ => (keeps_unlink_child hfd name).and (untouched_unlink_child hfd name d)
    refine .bind ((hloop d ⟨h, fun _ _ _ => rfl⟩).mono (fun _ => And.left) fun _ _ => id) (fun _ t ht => ?_) fun _ _ ht => ht.1
    obtain ⟨ht, hsame⟩ := ht
    refine .call_ok_bind (a := ()) rfl (ht.fsync fd) ?_
    refine (remove_directory_ensures (ht.fsync fd) (.inl rfl) hrecord).mono (fun _ => id) ?_
    rintro (e | u) t' ht'
    · exact ht'
    · refine ⟨ht'.1, ht'.2.1, fun parent hparent leaf hne => ?_⟩
      rw [ht'.2.2 parent hparent leaf hne, Disk.lookup_fsync, hsame parent hparent leaf]

theorem remove_work_ensures (h : Kept dirs captured db d) {txid : String} {work_fd : Option Inode}
    (hopened : d.lookup dirs.work txid = found work_fd) (hrecord : db.record? txid = none) :
    (remove_work dirs.work txid work_fd).Ensures d (Kept dirs captured db) (Prog.ends
      (fun _ t => Kept dirs captured db t ∧ t.lookup dirs.work txid = none ∧ Beside dirs (dirs.work, txid) d t)
      (Kept dirs captured db)) := by
  cases work_fd with
  | none => exact .pure ⟨h, hopened, fun _ _ _ _ => rfl⟩
  | some fd => exact remove_directory_ensures h (.inr rfl) hrecord

/-- What is left of the workspace of a transaction without a record goes, and no other name of the root does. -/
theorem remove_workspace_ensures (h : Kept dirs captured db d) {workspace : Workspace}
    (hstaging : d.lookup dirs.staging workspace.txid = found workspace.staging_fd)
    (hwork : d.lookup dirs.work workspace.txid = found workspace.work_fd) (hrecord : db.record? workspace.txid = none) :
    (remove_workspace dirs.root workspace).Ensures d (Kept dirs captured db) (Prog.ends
      (fun _ t => Kept dirs captured db t ∧ t.lookup dirs.staging workspace.txid = none ∧
        t.lookup dirs.work workspace.txid = none ∧ ∀ parent ∈ dirs.all, ∀ leaf, (parent, leaf) ≠ (dirs.staging, workspace.txid) →
          (parent, leaf) ≠ (dirs.work, workspace.txid) → t.lookup parent leaf = d.lookup parent leaf)
      (Kept dirs captured db)) := by
  have hne : ∀ leaf, (dirs.work, leaf) ≠ (dirs.staging, workspace.txid) := fun leaf heq =>
    dirs.staging_ne.2.2.2 (congrArg Prod.fst heq).symm
  refine h.laid.parent_staging.ensures_bind (h.laid.parent_work.ensures_bind ?_)
  refine (reads_staging_names _ _).ensures_bind (fun names _ => ?_) fun _ => h
  refine (reads_require_no_work _ _).ensures_bind (fun _ _ => ?_) fun _ => h
  refine .bind (remove_staging_ensures h hstaging hrecord names) (fun _ t ht => ?_) fun _ _ ht => ht
  obtain ⟨ht, hgone, hbeside⟩ := ht
  have hwork' : t.lookup dirs.work workspace.txid = found workspace.work_fd :=
    (hbeside _ dirs.work_mem _ (hne _)).trans hwork
  refine (remove_work_ensures ht hwork' hrecord).mono (fun _ => id) ?_
  rintro (e | u) t' ht'
  · exact ht'
  · obtain ⟨ht', hgone', hbeside'⟩ := ht'
    refine ⟨ht', (hbeside' _ dirs.staging_mem _ ?_).trans hgone, hgone', fun parent hparent leaf hstaging hwork => ?_⟩
    · exact fun heq => dirs.staging_ne.2.2.2 (congrArg Prod.fst heq)
    · rw [hbeside' parent hparent leaf hwork, hbeside parent hparent leaf hstaging]

end

end atoms.store
