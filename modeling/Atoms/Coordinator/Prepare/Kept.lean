import Atoms.Coordinator.Prepare
import Atoms.Store.Kept.Promotion
import Atoms.Store.Kept.Tables

open atoms.errors atoms.identifiers atoms.fs atoms.spec atoms.store checked keyed crash writeback

namespace atoms.coordinator

section

variable [UnicodeData] [Sha256]

/-! The rows of a preparation. -/

omit [UnicodeData] [Sha256] in
theorem select_promoted {blobs : List BlobRow} {manifest : List StagedBlob} {digest : String} {row : BlobRow}
    (h : find_key BlobRow.digest (manifest.foldl (fun blobs entry =>
      if (find_key BlobRow.digest blobs entry.digest).isSome then blobs
      else blobs ++ [⟨entry.digest, entry.byte_len⟩]) blobs) digest = some row) :
    find_key BlobRow.digest blobs digest = some row ∨
      ∃ entry ∈ manifest, entry.digest = digest ∧ entry.byte_len = row.byte_len := by
  induction manifest generalizing blobs with
  | nil => exact .inl h
  | cons entry rest ih =>
    rw [List.foldl_cons] at h
    rcases ih h with hblobs | ⟨other, hother, hdigest⟩
    · by_cases hsome : (find_key BlobRow.digest blobs entry.digest).isSome
      · rw [if_pos hsome] at hblobs
        exact .inl hblobs
      · rw [if_neg hsome, find_key_append, Option.or_eq_some_iff] at hblobs
        rcases hblobs with hnew | ⟨_, hold⟩
        · obtain ⟨hmem, hkey⟩ := find_key_some hnew
          obtain rfl := List.mem_singleton.mp hmem
          exact .inr ⟨entry, List.mem_cons_self, hkey, rfl⟩
        · exact .inl hold
    · exact .inr ⟨other, List.mem_cons_of_mem _ hother, hdigest⟩

omit [Sha256] in
/-- A preparation that commits adds its record, and rows of its manifest. -/
theorem prepare_body_run {db db' : Database} {txid approval_evidence : String} {spec : TransactionSpec}
    {manifest : List StagedBlob} {refused : Option Raised}
    (h : db.run (prepare_body txid spec approval_evidence manifest) refused = (.ok (), db')) :
    (∀ other, (db'.record? other).isSome = true ↔ other = txid ∨ (db.record? other).isSome = true) ∧
      ∀ digest byte_len, select_blob db' digest = some byte_len → select_blob db digest = some byte_len ∨
        ∃ entry ∈ manifest, entry.digest = digest ∧ entry.byte_len = byte_len := by
  obtain ⟨hended, _, _, rfl⟩ := run_eq_ok h
  cases hinsert : (OpenTransaction.start db).txn.promote_staging txid manifest |>.insert_record txid spec approval_evidence with
  | error error =>
    simp only [prepare_body, Body.run, OpenTransaction.mutating, Operation.attempt, Operation.apply, pure, Except.pure,
      hinsert] at hended
    cases hended
  | ok txn =>
    cases hactive : txn.set_active (some txid) with
    | error error =>
      simp only [prepare_body, Body.run, OpenTransaction.mutating, Operation.attempt, Operation.apply, pure, Except.pure,
        hinsert, hactive] at hended
      cases hended
    | ok txn' =>
      have hrun : ((prepare_body txid spec approval_evidence manifest).run (.start db)).2.txn = txn' := by
        simp only [prepare_body, Body.run, OpenTransaction.mutating, Operation.attempt, Operation.apply, pure, Except.pure,
          hinsert, hactive]
      rw [hrun]
      obtain ⟨_, row, rows, hrow, _, rfl⟩ := insert_record_ok hinsert
      obtain ⟨_, _, hactive⟩ := bind_eq_ok_iff.mp hactive
      obtain rfl := pure_eq_ok_iff.mp hactive
      refine ⟨fun other => ?_, fun digest byte_len hselect => ?_⟩
      · rw [Database.record?, find_key_append, find_key, find_key, Option.none_or]
        by_cases heq : row.txid = other
        · rw [if_pos heq]
          exact ⟨fun _ => .inl (heq.symm.trans hrow), fun _ => rfl⟩
        · rw [if_neg heq, Option.none_or]
          exact ⟨.inr, fun hother => hother.resolve_left fun hother => heq (hrow.trans hother.symm)⟩
      · obtain ⟨found, hfound, rfl⟩ := Option.map_eq_some_iff.mp hselect
        refine (select_promoted hfound).imp (fun hold => ?_) id
        have hrow : find_key BlobRow.digest db.blobs digest = some found := hold
        rw [select_blob, hrow]
        rfl

variable {dirs : Directories} {captured : List (List UInt8)} {m : Metadata}

/-- The commit of a preparation, once the blobs are in place and the staging directory is gone. -/
theorem commit_database_ensures {txid approval_evidence : String} {spec : TransactionSpec} {manifest : List StagedBlob}
    (h : Ready dirs captured m.db txid manifest m.disk) (refused : Option Raised) :
    (commit_database (prepare_body txid spec approval_evidence manifest) refused).Ensures m (Sound dirs captured)
      fun _ => Sound dirs captured := by
  refine .call (fun _ t hcall => ?_) fun _ _ => h.toKept
  cases hrun : m.db.run (prepare_body txid spec approval_evidence manifest) refused with
  | mk result db' =>
    rw [hrun] at hcall
    cases result with
    | error error => cases hcall
    | ok _ =>
      cases hcall
      obtain ⟨hrecords, hblobs⟩ := prepare_body_run hrun
      have hcoherent : ∀ other, coherence_findings db' other = .ok [] := by
        intro other
        have hcoherent := run_coherent h.coherent (prepare_body txid spec approval_evidence manifest) refused other
        rwa [hrun] at hcoherent
      have hsound : Sound dirs captured { m with db := db' } :=
        { h.toKept with
          indexed := fun digest byte_len hselect => by
            rcases hblobs digest byte_len hselect with hold | ⟨entry, hentry, rfl, rfl⟩
            · exact h.indexed digest byte_len hold
            · exact h.blobs entry hentry
          recorded := fun other hsome => by
            rcases (hrecords other).mp hsome with rfl | hold
            · exact ⟨h.work, h.staging⟩
            · exact h.recorded other hold
          coherent := hcoherent }
      exact ⟨hsound, hsound⟩

/-! A preparation, from the state in which its capture has ended. -/

theorem promote_staging_ensures {workspace : Workspace} {staging_fd : Inode} {manifest : List StagedBlob}
    (hfd : workspace.staging_fd = some staging_fd) (h : Working dirs captured m.db workspace.txid staging_fd m.disk)
    (hstaged : Staged captured m.disk staging_fd) :
    (promote_staging dirs.root workspace manifest).Ensures m (Sound dirs captured) (Prog.ends
      (fun _ t => t.db = m.db ∧ Ready dirs captured m.db workspace.txid manifest t.disk) (Sound dirs captured)) := by
  refine (reads_preflight _ _ _).ensures_bind (fun _ hpreflight => ?_) fun _ => h.toKept
  obtain ⟨hnames, hdescribed⟩ := preflight_completes hfd hpreflight
  exact in_tree_ensures (promote_leaves_ensures hfd ⟨h, hstaged, hnames, hdescribed, fun _ => .inl⟩)

theorem prepare_transaction_ensures {workspace : Workspace} {staging_fd : Inode} (request : Request) (refused : Option Raised)
    (hfd : workspace.staging_fd = some staging_fd) (h : Working dirs captured m.db workspace.txid staging_fd m.disk)
    (hstaged : Staged captured m.disk staging_fd) :
    (prepare_transaction dirs.root workspace request refused).Ensures m (Sound dirs captured) fun _ => Sound dirs captured := by
  refine (Prog.Reads.zoom (.ite (.pure _) (.throw _))).ensures_bind (fun _ hsame => ?_) fun _ => h.toKept
  obtain ⟨_, hsame, _⟩ := Prog.completes_zoom_iff.mp hsame
  have htxid := (Prog.completes_guard hsame).1
  refine .bind (promote_staging_ensures hfd h hstaged) (fun _ t ht => ?_) fun _ _ ht => ht
  obtain ⟨hdb, ht⟩ := ht
  rw [← hdb, htxid] at ht
  exact commit_database_ensures ht refused

/-! A capture. -/

/-- An object that no blob's name was ever given to. -/
def Unfiled (dirs : Directories) (inode : Inode) (d : Disk) : Prop :=
  d.Named fun parent _ entry => parent = dirs.sha256 → entry.inode ≠ inode

/-- Since `d` only the content of one object has changed. -/
structure Written (d : Disk) (inode : Inode) (t : Disk) : Prop where
  entries : t.entries = d.entries
  contents : ∀ other ≠ inode, ∀ content, d.contents.Holds other content → t.contents.Holds other content

/-- Writes to an object that was never filed keep what every state has. -/
theorem keeps_write {db : Database} {d : Disk} {inode : Inode} (hunfiled : Unfiled dirs inode d) (data : List UInt8) :
    Prog.Keeps (fun t => Kept dirs captured db t ∧ Written d inode t) (write inode data) := by
  refine .call fun t _ t' ht hcall => ?_
  cases hcall
  have hunfiled' : Unfiled dirs inode t := by
    rw [Unfiled, Disk.Named, ht.2.entries]
    exact hunfiled
  exact ⟨ht.1.set_contents hunfiled' _ _, ht.2.entries, fun other hother content hcontent =>
    Cache.Holds.set (ht.2.contents other hother content hcontent) (Ne.symm hother) _⟩

omit [UnicodeData] [Sha256] in
theorem keeps_write_all {I : Disk → Prop} {inode : Inode} (h : ∀ data, Prog.Keeps I (write inode data)) (fuel : Nat)
    (data : List UInt8) : Prog.Keeps I (chain.write_all inode fuel data) := by
  induction fuel generalizing data with
  | zero =>
    cases data with
    | nil => exact .pure _
    | cons byte rest => exact .throw _
  | succ fuel ih =>
    cases data with
    | nil => exact .pure _
    | cons byte rest => exact .bind (h _) fun taken => .bind (.ite (.pure _) (.throw _)) fun _ => ih _

theorem working_congr {db : Database} {txid : String} {staging_fd : Inode} {d t : Disk}
    (h : Working dirs captured db txid staging_fd d) (ht : Kept dirs captured db t) (hentries : t.entries = d.entries) :
    Working dirs captured db txid staging_fd t where
  toKept := ht
  staging := by
    rw [Disk.lookup, hentries]
    exact h.staging
  work := by
    obtain ⟨fd, hholds⟩ := h.work
    refine ⟨fd, ?_⟩
    rw [Disk.Holds, hentries]
    exact hholds
  record := h.record

theorem stage_leaf_ensures {db : Database} {txid : String} {staging_fd : Inode} {d : Disk} {leaf : String × List UInt8}
    (h : Working dirs captured db txid staging_fd d) (hstaged : Staged captured d staging_fd) (hmem : leaf.2 ∈ captured) :
    (stage_leaf staging_fd leaf).Ensures d (Kept dirs captured db) (Prog.ends
      (fun _ t => Working dirs captured db txid staging_fd t ∧ Staged captured t staging_fd) (Kept dirs captured db)) := by
  obtain ⟨hroot, hstaging, hwork, hblobs, hsha256⟩ := Directories.ne_of_not_mem h.outside
  have hbelow := (h.named.lookup h.staging).2.1
  have hmade : Kept dirs captured db (d.allocate .file staging_fd leaf.1 0o600) :=
    h.toKept.allocate hbelow hroot hblobs hsha256 (fun heq => heq.elim (absurd · hstaging) (absurd · hwork)) .file 0o600
  generalize hd' : d.allocate .file staging_fd leaf.1 0o600 = d' at hmade
  have hworking : Working dirs captured db txid staging_fd d' := by
    obtain ⟨fd, hholds⟩ := h.work
    rw [← hd'] at hmade ⊢
    refine ⟨hmade, ?_, ⟨fd, hholds.allocate (fun heq => hwork (congrArg Prod.fst heq)) .file 0o600⟩, h.record⟩
    rw [Disk.lookup_allocate, if_neg (fun heq => hstaging (congrArg Prod.fst heq))]
    exact h.staging
  have hunfiled : Unfiled dirs d.next d' := by
    rw [← hd']
    exact Disk.Named.allocate (P := fun parent _ entry => parent = dirs.sha256 → entry.inode ≠ d.next)
      (h.named.mono fun _ _ entry hentry _ => Nat.ne_of_lt hentry.2.1) (fun heq => absurd heq hsha256) 0o600
  have hempty : d'.contents.get d.next = [] := by
    rw [← hd', Disk.get_contents_allocate, if_pos rfl]
  have hstaged' : ∀ name entry, d'.lookup staging_fd name = some entry → entry.inode = d.next ∨
      entry.inode ≠ d.next ∧ ∃ content ∈ captured, d'.contents.Holds entry.inode content := by
    intro name entry hentry
    rw [← hd', Disk.lookup_allocate] at hentry
    split at hentry
    · exact .inl (Option.some.inj hentry ▸ rfl)
    · obtain ⟨content, hcontent, hholds⟩ := hstaged name entry hentry
      have hne := Nat.ne_of_lt (h.named.lookup hentry).2.1
      exact .inr ⟨hne, content, hcontent, hd' ▸ Cache.Holds.set hholds (Ne.symm hne) []⟩
  -- the leaf is created
  refine .bind (Q := Prog.ends (fun inode t => inode = d.next ∧ t = d') fun t => t = d) ?_ ?_ ?_
  · refine .call (fun inode t hcall => ?_) fun _ _ => rfl
    split at hcall
    · cases hcall
    · cases hcall
      exact ⟨hd' ▸ hmade, rfl, hd'⟩
  · rintro _ d' ⟨rfl, rfl⟩
    -- it is written
    have hkeeps := keeps_write_all (fun data => keeps_write hunfiled data) leaf.2.length leaf.2 d'
      ⟨hmade, rfl, fun _ _ _ => id⟩
    refine .bind ((hkeeps.and (chain.write_all_ensures (Nat.le_refl _) d')).mono (fun _ ht => ht.1.1) fun _ _ => id)
      (fun _ t ht => ?_) fun _ _ ht => ht.1.1
    obtain ⟨⟨ht, hwritten⟩, hgrown⟩ := ht
    have hcontent : t.contents.get d.next = leaf.2 := by
      rw [hgrown.contents, if_pos rfl, hempty, List.nil_append]
    -- and flushed
    have hflushed := ht.fsync d.next
    have hsame := working_congr hworking ht hwritten.entries
    refine .call_ok rfl hflushed ⟨⟨hflushed, ?_, ?_, h.record⟩, fun name entry hentry => ?_⟩
    · rw [Disk.lookup_fsync]
      exact hsame.staging
    · obtain ⟨fd, hholds⟩ := hsame.work
      exact ⟨fd, hholds.fsync _⟩
    · rw [Disk.lookup_fsync, Disk.lookup, hwritten.entries] at hentry
      rcases hstaged' name entry hentry with heq | ⟨hne, content, hcontent, hholds⟩
      · exact ⟨leaf.2, hmem, Cache.Holds.of_flush (decide_eq_true heq) (heq ▸ hcontent)⟩
      · exact ⟨content, hcontent, Cache.Holds.flush (hwritten.contents _ hne content hholds) _⟩
  · rintro _ _ rfl
    exact h.toKept

theorem stage_leaves_ensures {db : Database} {txid : String} {staging_fd : Inode} {leaves : List (String × List UInt8)}
    (hcaptured : leaves.map Prod.snd ⊆ captured) {d : Disk} (h : Working dirs captured db txid staging_fd d)
    (hstaged : Staged captured d staging_fd) :
    (leaves.forM (stage_leaf staging_fd)).Ensures d (Kept dirs captured db) (Prog.ends
      (fun _ t => Working dirs captured db txid staging_fd t ∧ Staged captured t staging_fd) (Kept dirs captured db)) := by
  induction leaves generalizing d with
  | nil => exact .pure ⟨h, hstaged⟩
  | cons leaf rest ih =>
    refine .bind (stage_leaf_ensures h hstaged (hcaptured List.mem_cons_self)) (fun _ t ht => ?_) fun _ _ ht => ht
    exact ih (fun _ hcontent => hcaptured (List.mem_cons_of_mem _ hcontent)) ht.1 ht.2

/-- Whatever a transaction captures, and wherever it ends on the way to its record, the metadata root is as every state
of it is. -/
theorem begin_transaction_ensures (h : Sound dirs captured m) (request : Request) (refused : Option Raised)
    (hcaptured : request.staged.map Prod.snd ⊆ captured) :
    (begin_transaction dirs.root request refused).Ensures m (Sound dirs captured) fun _ => Sound dirs captured := by
  refine .bind (in_tree_ensures (create_workspace_ensures h request.txid)) (fun workspace t ht => ?_) fun _ _ ht => ht
  obtain ⟨hdb, staging_fd, htxid, hfd, hworking, hempty⟩ := ht
  have hworking : Working dirs captured t.db request.txid staging_fd t.disk := hdb ▸ hworking
  have hstaged : Staged captured t.disk staging_fd := by
    intro name entry hentry
    rw [hempty name] at hentry
    cases hentry
  have hcapture : (do
      let staging_fd ← require_staging workspace
      request.staged.forM (stage_leaf staging_fd) : Call Unit).Ensures t.disk (Kept dirs captured t.db) (Prog.ends
        (fun _ d => Working dirs captured t.db request.txid staging_fd d ∧ Staged captured d staging_fd)
        (Kept dirs captured t.db)) :=
    (require_staging_returns hfd).ensures_bind (stage_leaves_ensures hcaptured hworking hstaged)
  refine .bind (in_tree_ensures hcapture) (fun _ t' ht' => ?_) fun _ _ ht' => ht'
  obtain ⟨hdb', hworking', hstaged⟩ := ht'
  rw [← hdb', ← htxid] at hworking'
  exact prepare_transaction_ensures request refused hfd hworking' hstaged

end

end atoms.coordinator
