import Atoms.Store.Kept.Blobs

open atoms.errors atoms.identifiers atoms.fs atoms.spec checked keyed crash writeback

namespace atoms.store

section

variable [UnicodeData] [Sha256] {dirs : Directories} {captured : List (List UInt8)} {db : Database} {d : Disk}

/-! What the preflight finds. -/

/-- Every file in the staging directory is one of the captured contents, on disk. -/
def Staged (captured : List (List UInt8)) (d : Disk) (staging_fd : Inode) : Prop :=
  ∀ name entry, d.lookup staging_fd name = some entry → ∃ content ∈ captured, d.contents.Holds entry.inode content

/-- The staged leaf of a manifest entry is there and is what the entry says. -/
def Described (d : Disk) (staging_fd : Inode) (entry : StagedBlob) : Prop :=
  is_sha256_digest entry.digest = true ∧
    ∃ fd, d.lookup staging_fd entry.name = some fd ∧ Verified d fd entry.digest (some entry.byte_len)

omit [Sha256] in
theorem reads_preflight_entry (seen : Preflight) (entry : StagedBlob) : (preflight_entry seen entry).Reads :=
  .bind (.ite (.pure _) (.throw _)) fun _ => .bind (reads_require_digest _) fun _ =>
    .bind (.ite (.pure _) (.throw _)) fun _ => .bind (.ite (.pure _) (.throw _)) fun _ =>
      .bind (.ite (.pure _) (.throw _)) fun _ => .pure _

omit [UnicodeData] in
theorem reads_preflight_leaf (staging_fd : Inode) (txid : String) (entry : StagedBlob) :
    (preflight_leaf staging_fd txid entry).Reads :=
  .bind (reads_open_entry_nofollow _ _ _) fun _ => .bind (reads_verify_leaf _ _ _) fun _ => .pure _

theorem reads_preflight_row (parent : Inode) (item : String × Int) : (preflight_row parent item).Reads := by
  refine .bind (.read _) fun row => .zoom ?_
  cases row with
  | none => exact .pure _
  | some byte_len =>
    exact .bind (.ite (.pure _) (.throw _)) fun _ => .bind (reads_digest_to_leaf _) fun _ =>
      .bind (reads_open_leaf _ _ _ _) fun _ => .bind (reads_verify_leaf _ _ _) fun _ => .pure _

omit [Sha256] in
theorem reads_require_staging (workspace : Workspace) : (require_staging workspace).Reads := by
  unfold require_staging
  split
  · exact .pure _
  · exact .throw _

theorem reads_preflight (root : Inode) (workspace : Workspace) (manifest : List StagedBlob) :
    (preflight root workspace manifest).Reads :=
  .bind (.zoom (.foldlM reads_preflight_entry _)) fun _ => .bind (.zoom (reads_require_staging _)) fun _ =>
    .bind (.zoom (.bind (.read _) fun _ => .ite (.pure _) (.throw _))) fun _ =>
      .bind (.zoom (.forM (reads_preflight_leaf _ _))) fun _ =>
        .bind (.zoom (.bind (.read _) fun _ => .read _)) fun _ => .forM (reads_preflight_row _)

omit [Sha256] in
/-- The entries that were seen have digests and names of their own. -/
theorem preflight_entries_completes {manifest : List StagedBlob} {seen after : Preflight} {d' : Disk}
    (h : (manifest.foldlM preflight_entry seen).Completes d after d') :
    (∀ entry ∈ manifest, is_sha256_digest entry.digest = true ∧ entry.name ∉ seen.names) ∧
      (manifest.map StagedBlob.name).Nodup := by
  induction manifest generalizing seen with
  | nil => exact ⟨fun _ hentry => (nomatch hentry), List.nodup_nil⟩
  | cons entry rest ih =>
    obtain ⟨next, hentry, h⟩ := (reads_preflight_entry _ _).completes_bind h
    obtain ⟨hrest, hnodup⟩ := ih h
    obtain ⟨_, _, hentry⟩ := (Prog.Reads.ite (.pure _) (.throw _)).completes_bind hentry
    obtain ⟨_, hdigest, hentry⟩ := (reads_require_digest _).completes_bind hentry
    obtain ⟨_, _, hentry⟩ := (Prog.Reads.ite (.pure _) (.throw _)).completes_bind hentry
    obtain ⟨_, hname, hentry⟩ := (Prog.Reads.ite (.pure _) (.throw _)).completes_bind hentry
    obtain ⟨_, _, hentry⟩ := (Prog.Reads.ite (.pure _) (.throw _)).completes_bind hentry
    obtain ⟨rfl, _⟩ := Prog.completes_pure_iff.mp hentry
    refine ⟨fun other hother => ?_, ?_⟩
    · rcases List.mem_cons.mp hother with rfl | hother
      · exact ⟨(Prog.completes_guard hdigest).1, (Prog.completes_guard hname).1⟩
      · exact ⟨(hrest other hother).1, fun hmem => (hrest other hother).2 (List.mem_cons_of_mem _ hmem)⟩
    · rw [List.map_cons, List.nodup_cons]
      refine ⟨fun hmem => ?_, hnodup⟩
      obtain ⟨other, hother, heq⟩ := List.mem_map.mp hmem
      exact (hrest other hother).2 (heq ▸ List.mem_cons_self)

omit [UnicodeData] in
theorem preflight_leaves_completes {staging_fd : Inode} {txid : String} {manifest : List StagedBlob} {d' : Disk}
    (h : (manifest.forM (preflight_leaf staging_fd txid)).Completes d () d') (entry : StagedBlob) (hentry : entry ∈ manifest) :
    ∃ fd, d.lookup staging_fd entry.name = some fd ∧ Verified d fd entry.digest (some entry.byte_len) := by
  induction manifest with
  | nil => cases hentry
  | cons first rest ih =>
    obtain ⟨_, hfirst, h⟩ := (reads_preflight_leaf _ _ _).completes_bind h
    rcases List.mem_cons.mp hentry with rfl | hentry
    · obtain ⟨fd, hfd, hfirst⟩ := (reads_open_entry_nofollow _ _ _).completes_bind hfirst
      obtain ⟨_, hverify, _⟩ := (reads_verify_leaf _ _ _).completes_bind hfirst
      exact ⟨fd, open_entry_nofollow_completes hfd, verify_leaf_completes hverify⟩
    · exact ih h hentry

/-- A manifest that passes the preflight describes what is staged. -/
theorem preflight_completes {root : Inode} {workspace : Workspace} {staging_fd : Inode} {manifest : List StagedBlob}
    {m m' : Metadata} (hfd : workspace.staging_fd = some staging_fd) (h : (preflight root workspace manifest).Completes m () m') :
    (manifest.map StagedBlob.name).Nodup ∧ ∀ entry ∈ manifest, Described m.disk staging_fd entry := by
  obtain ⟨seen, hseen, h⟩ := (Prog.Reads.zoom (.foldlM reads_preflight_entry _)).completes_bind h
  obtain ⟨_, hseen, _⟩ := Prog.completes_zoom_iff.mp hseen
  obtain ⟨hentries, hnodup⟩ := preflight_entries_completes hseen
  have hstaging : (in_tree (require_staging workspace)).Returns m staging_fd := by
    refine .zoom ?_
    rw [require_staging, hfd]
    exact .pure
  have h := hstaging.completes_bind h
  obtain ⟨_, _, h⟩ := (Prog.Reads.zoom (.bind (.read _) fun _ => .ite (.pure _) (.throw _))).completes_bind h
  obtain ⟨_, hleaves, _⟩ := (Prog.Reads.zoom (.forM (reads_preflight_leaf _ _))).completes_bind h
  obtain ⟨_, hleaves, _⟩ := Prog.completes_zoom_iff.mp hleaves
  exact ⟨hnodup, fun entry hentry => ⟨(hentries entry hentry).1, preflight_leaves_completes hleaves entry hentry⟩⟩

/-! The renames. -/

/-- The blob of a manifest entry has its name. -/
def Promoted (dirs : Directories) (d : Disk) (entry : StagedBlob) : Prop :=
  is_sha256_digest entry.digest = true ∧ ∃ fd, d.lookup dirs.sha256 (leaf_of entry.digest) = some fd ∧
    ((d.contents.get fd.inode).length : Int) = entry.byte_len

/-- The entries but the `rest` are promoted, and the rest is staged. -/
structure Promoting (dirs : Directories) (captured : List (List UInt8)) (db : Database) (txid : String) (staging_fd : Inode)
    (manifest rest : List StagedBlob) (d : Disk) : Prop extends Working dirs captured db txid staging_fd d where
  staged : Staged captured d staging_fd
  names : (rest.map StagedBlob.name).Nodup
  described : ∀ entry ∈ rest, Described d staging_fd entry
  promoted : ∀ entry ∈ manifest, entry ∈ rest ∨ Promoted dirs d entry

variable {txid : String} {staging_fd : Inode} {manifest rest : List StagedBlob} {entry : StagedBlob}

theorem Working.outside (h : Working dirs captured db txid staging_fd d) : staging_fd ∉ dirs.all :=
  h.toKept.outside h.staging dirs.staging_ne.1 dirs.staging_ne.2.1

/-- One staged leaf is gone, and its blob has its name. -/
theorem Promoting.advance (h : Promoting dirs captured db txid staging_fd manifest (entry :: rest) d) {d' : Disk}
    (hworking : Working dirs captured db txid staging_fd d') (hcontents : d'.contents = d.contents)
    (hgone : d'.lookup staging_fd entry.name = none)
    (hothers : ∀ name ≠ entry.name, d'.lookup staging_fd name = d.lookup staging_fd name)
    (hblobs : ∀ leaf fd, d.lookup dirs.sha256 leaf = some fd → d'.lookup dirs.sha256 leaf = some fd)
    (hentry : Promoted dirs d' entry) : Promoting dirs captured db txid staging_fd manifest rest d' where
  toWorking := hworking
  staged name fd hfd := by
    have hname : name ≠ entry.name := by
      rintro rfl
      rw [hgone] at hfd
      cases hfd
    rw [hothers name hname] at hfd
    rw [hcontents]
    exact h.staged name fd hfd
  names := (List.nodup_cons.mp h.names).2
  described other hother := by
    obtain ⟨hdigest, fd, hfd, hverified⟩ := h.described other (List.mem_cons_of_mem _ hother)
    have hname : other.name ≠ entry.name := fun heq =>
      (List.nodup_cons.mp h.names).1 (heq ▸ List.mem_map_of_mem hother)
    refine ⟨hdigest, fd, (hothers _ hname).trans hfd, hverified.kind, ?_, ?_⟩
    · rw [hcontents]
      exact hverified.digest
    · rw [hcontents]
      exact hverified.byte_len
  promoted other hother := by
    rcases h.promoted other hother with hrest | ⟨hdigest, fd, hfd, hlength⟩
    · rcases List.mem_cons.mp hrest with rfl | hrest
      · exact .inr hentry
      · exact .inl hrest
    · exact .inr ⟨hdigest, fd, hblobs _ fd hfd, by rwa [hcontents]⟩

/-- A name of the staging directory goes. -/
theorem Working.unstage (h : Working dirs captured db txid staging_fd d) {name : String} {fd : Entry}
    (hfd : d.lookup staging_fd name = some fd) : Working dirs captured db txid staging_fd (d.set_entry staging_fd name none) := by
  obtain ⟨hroot, hstaging, hwork, hblobs, hsha256⟩ := Directories.ne_of_not_mem h.outside
  refine ⟨?_, ?_, ?_, h.record⟩
  · exact h.set_entry (h.named.lookup hfd).1 hroot hblobs (fun _ hnone => nomatch hnone) (fun heq => absurd heq hsha256)
      fun heq => heq.elim (absurd · hstaging) (absurd · hwork)
  · rw [Disk.lookup_set_entry_of_ne _ (fun heq => hstaging (congrArg Prod.fst heq))]
    exact h.staging
  · obtain ⟨work, hholds⟩ := h.work
    exact ⟨work, hholds.set_entry (fun heq => hwork (congrArg Prod.fst heq)) none⟩

/-- A blob of a captured content gets its name. -/
theorem Working.file (h : Working dirs captured db txid staging_fd d) {leaf : String} {fd : Entry}
    (hfree : d.lookup dirs.sha256 leaf = none) (hbelow : fd.inode < d.next) (houtside : fd.inode ∉ dirs.all)
    (hfiled : Filed captured d leaf fd) : Working dirs captured db txid staging_fd (d.set_entry dirs.sha256 leaf (some fd)) := by
  refine ⟨?_, ?_, ?_, h.record⟩
  · refine h.set_entry (h.below _ dirs.sha256_mem) dirs.sha256_ne.1 dirs.sha256_ne.2 ?_ (fun _ => ⟨?_, ?_⟩) ?_
    · exact fun _ heq => Option.some.inj heq ▸ ⟨hbelow, houtside⟩
    · exact fun _ heq => Option.some.inj heq ▸ hfiled
    · rintro digest hrow rfl
      obtain ⟨byte_len, hrow⟩ := Option.isSome_iff_exists.mp hrow
      obtain ⟨_, entry, hholds, _⟩ := h.indexed digest byte_len hrow
      rw [hholds.lookup] at hfree
      cases hfree
    · rintro (heq | heq)
      · exact absurd heq.symm dirs.staging_ne.2.2.1
      · exact absurd heq.symm dirs.work_ne.2.2
  · rw [Disk.lookup_set_entry_of_ne _ (fun heq => dirs.staging_ne.2.2.1 (congrArg Prod.fst heq).symm)]
    exact h.staging
  · obtain ⟨work, hholds⟩ := h.work
    exact ⟨work, hholds.set_entry (fun heq => dirs.work_ne.2.2 (congrArg Prod.fst heq).symm) _⟩

theorem promote_leaf_ensures (h : Promoting dirs captured db txid staging_fd manifest (entry :: rest) d) :
    (promote_leaf staging_fd dirs.sha256 entry).Ensures d (Kept dirs captured db)
      (Prog.ends (fun _ => Promoting dirs captured db txid staging_fd manifest rest) (Kept dirs captured db)) := by
  obtain ⟨hdigest, fd, hfd, hverified⟩ := h.described entry List.mem_cons_self
  obtain ⟨_, _, _, _, hsha256⟩ := Directories.ne_of_not_mem h.outside
  have hgone : (d.set_entry staging_fd entry.name none).lookup staging_fd entry.name = none := d.lookup_set_entry_self _ _ _
  have hblobs : ∀ leaf, (d.set_entry staging_fd entry.name none).lookup dirs.sha256 leaf = d.lookup dirs.sha256 leaf :=
    fun leaf => d.lookup_set_entry_of_ne (fun heq => hsha256 (congrArg Prod.fst heq)) none
  have hunstaged := h.toWorking.unstage hfd
  refine (digest_to_leaf_returns hdigest).ensures_bind ?_
  refine .tryCatch (Q := Prog.ends (fun _ => Promoting dirs captured db txid staging_fd manifest rest) fun t => t = d) ?_
    (fun _ _ ht => ht) fun e t ht => ?_
  · -- the blob is not there yet
    refine .call (fun _ t hcall => ?_) fun _ _ => rfl
    simp only [hfd] at hcall
    cases hleaf : d.lookup dirs.sha256 (leaf_of entry.digest) with
    | some existing =>
      rw [hleaf] at hcall
      cases hcall
    | none =>
      rw [hleaf] at hcall
      cases hcall
      obtain ⟨content, hmem, hholds⟩ := h.staged _ fd hfd
      have hfiled : Filed captured (d.set_entry staging_fd entry.name none) (leaf_of entry.digest) fd := by
        refine ⟨hverified.kind, content, hmem, hholds, ?_⟩
        rw [append_leaf_of hdigest, ← hverified.digest, hholds.2]
      have hworking := hunstaged.file ((hblobs _).trans hleaf) (h.named.lookup hfd).2.1
        (h.toKept.outside hfd (Directories.ne_of_not_mem h.outside).1 (Directories.ne_of_not_mem h.outside).2.2.2.1) hfiled
      refine ⟨hworking.toKept, h.advance hworking rfl ?_ (fun name hname => ?_) (fun leaf other hother => ?_) ?_⟩
      · rw [Disk.lookup_set_entry_of_ne _ (fun heq => hsha256 (congrArg Prod.fst heq).symm)]
        exact hgone
      · rw [Disk.lookup_set_entry_of_ne _ (fun heq => hsha256 (congrArg Prod.fst heq).symm),
          Disk.lookup_set_entry_of_ne _ (fun heq => hname (congrArg Prod.snd heq).symm)]
      · have hne : leaf_of entry.digest ≠ leaf := by
          rintro rfl
          rw [hleaf] at hother
          cases hother
        have hpair : (dirs.sha256, leaf_of entry.digest) ≠ (dirs.sha256, leaf) := fun heq => hne (congrArg Prod.snd heq)
        rw [Disk.lookup_set_entry_of_ne _ hpair, hblobs]
        exact hother
      · exact ⟨hdigest, fd, Disk.lookup_set_entry_self _ _ _ _, hverified.byte_len _ rfl⟩
  · -- it is, and must be the same
    obtain rfl : t = d := ht
    split
    · refine (reads_open_entry_nofollow _ _ _).ensures_bind (fun existing hexisting => ?_) fun _ => h.toKept
      refine (reads_verify_leaf _ _ _).ensures_bind (fun _ hsame => ?_) fun _ => h.toKept
      have hexisting := open_entry_nofollow_completes hexisting
      have hsame := verify_leaf_completes hsame
      refine .call (fun _ t' hcall => ?_) fun _ _ => h.toKept
      have ht' : t' = t.set_entry staging_fd entry.name none := by
        rw [hfd] at hcall
        split at hcall
        · cases hcall
        · cases hcall
        · cases hcall
          rfl
      subst ht'
      refine ⟨hunstaged.toKept, h.advance hunstaged rfl hgone (fun name hname => ?_) (fun leaf other hother => ?_) ?_⟩
      · exact t.lookup_set_entry_of_ne (fun heq => hname (congrArg Prod.snd heq).symm) none
      · exact (hblobs leaf).trans hother
      · exact ⟨hdigest, existing, (hblobs _).trans hexisting, hsame.byte_len _ rfl⟩
    · exact .throw h.toKept

/-- A promotion is done: the rows and the record may be written. -/
structure Ready (dirs : Directories) (captured : List (List UInt8)) (db : Database) (txid : String)
    (manifest : List StagedBlob) (d : Disk) : Prop extends Kept dirs captured db d where
  record : db.record? txid = none
  work : ∃ fd, d.Holds dirs.work txid (some ⟨.directory, fd⟩)
  staging : d.Holds dirs.staging txid none
  blobs : ∀ entry ∈ manifest, Indexed dirs d entry.digest entry.byte_len

omit [Sha256] in
theorem require_staging_returns {workspace : Workspace} (h : workspace.staging_fd = some staging_fd) :
    (require_staging workspace).Returns d staging_fd := by
  rw [require_staging, h]
  exact .pure

omit [UnicodeData] [Sha256] in
theorem Laid.open_staging (h : Laid dirs d) : (open_child_directory dirs.root STAGING_PARENT).Returns d dirs.staging :=
  h.parent_staging

theorem promote_leaves_ensures {workspace : Workspace} (hfd : workspace.staging_fd = some staging_fd)
    (h : Promoting dirs captured db workspace.txid staging_fd manifest manifest d) :
    (promote_leaves dirs.root workspace manifest).Ensures d (Kept dirs captured db)
      (Prog.ends (fun _ => Ready dirs captured db workspace.txid manifest) (Kept dirs captured db)) := by
  refine (require_staging_returns hfd).ensures_bind (h.laid.blobs_fd.ensures_bind ?_)
  refine .bind (.forM (J := Promoting dirs captured db workspace.txid staging_fd manifest)
    (fun entry rest t ht => promote_leaf_ensures ht) h) (fun _ t ht => ?_) fun _ _ ht => ht
  -- the blobs are settled
  have hsettled : ∀ entry ∈ manifest, Indexed dirs (t.fsync dirs.sha256) entry.digest entry.byte_len := by
    intro entry hentry
    obtain ⟨hdigest, fd, hfd, hlength⟩ := (ht.promoted entry hentry).resolve_left List.not_mem_nil
    refine ⟨hdigest, fd, .of_fsync hfd, ?_⟩
    rw [Disk.get_contents_fsync]
    exact hlength
  refine .call_ok_bind (a := ()) rfl (ht.fsync _) ?_
  refine .call_ok_bind (a := ()) rfl ((ht.fsync _).fsync _) ?_
  generalize hd' : (t.fsync dirs.sha256).fsync staging_fd = d'
  have hkept : Kept dirs captured db d' := hd' ▸ (ht.fsync _).fsync _
  have hblobs : ∀ entry ∈ manifest, Indexed dirs d' entry.digest entry.byte_len := by
    intro entry hentry
    obtain ⟨hdigest, fd, hholds, hlength⟩ := hsettled entry hentry
    rw [← hd']
    refine ⟨hdigest, fd, hholds.fsync _, ?_⟩
    rw [Disk.get_contents_fsync]
    exact hlength
  obtain ⟨work, hwork⟩ := ht.work
  have hwork : d'.Holds dirs.work workspace.txid (some ⟨.directory, work⟩) := hd' ▸ (hwork.fsync _).fsync _
  refine (Prog.Reads.read _).ensures_bind (fun remaining _ => ?_) fun _ => hkept
  refine .guard_bind (fun _ => ?_) fun _ => hkept
  refine hkept.laid.open_staging.ensures_bind ?_
  -- the staging directory goes
  have hrmdir : (rmdir_child dirs.staging workspace.txid).Ensures d' (Kept dirs captured db)
      (Prog.ends (fun _ t => t = d'.set_entry dirs.staging workspace.txid none ∧ Kept dirs captured db t)
        (Kept dirs captured db)) := by
    have hset : (rmdir_child dirs.staging workspace.txid).Ensures d' (fun _ => True)
        (Prog.ends (fun _ t => t = d'.set_entry dirs.staging workspace.txid none) fun _ => True) := by
      refine .call (fun _ t hcall => ⟨trivial, ?_⟩) fun _ _ => trivial
      split at hcall
      · cases hcall
      · split at hcall
        · cases hcall
          rfl
        · cases hcall
      · cases hcall
    refine ((keeps_rmdir_child (.inl rfl) ht.record d' hkept).and hset).mono (fun _ => And.left) ?_
    rintro (e | u) t ⟨ht, heq⟩
    · exact ht
    · exact ⟨heq, ht⟩
  refine .bind hrmdir (fun _ t ht' => ?_) fun _ _ ht' => ht'
  obtain ⟨rfl, hkept'⟩ := ht'
  refine .call_ok rfl (hkept'.fsync _) ⟨hkept'.fsync _, ht.record, ⟨work, ?_⟩, ?_, fun entry hentry => ?_⟩
  · exact (hwork.set_entry (fun heq => dirs.staging_ne.2.2.2 (congrArg Prod.fst heq)) none).fsync _
  · exact .of_fsync (Disk.lookup_set_entry_self _ _ _ _)
  · obtain ⟨hdigest, fd, hholds, hlength⟩ := hblobs entry hentry
    refine ⟨hdigest, fd, (hholds.set_entry (fun heq => dirs.staging_ne.2.2.1 (congrArg Prod.fst heq)) none).fsync _, ?_⟩
    rw [Disk.get_contents_fsync]
    exact hlength

end

end atoms.store
