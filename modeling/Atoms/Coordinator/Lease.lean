import Atoms.Store.Kept.Blobs

open atoms.errors atoms.identifiers atoms.fs atoms.spec atoms.store checked keyed crash

namespace atoms.coordinator

section

variable [UnicodeData] [Sha256]

/-- One workspace of `_reclaim_orphans`. -/
def reclaim_workspace (metadata_root_fd : Inode) (removed : List String) (txid : String) : Storing (List String) := do
  let record ← query fun db => load_record db txid
  match record with
  | some _ => pure removed
  | none => do
    in_tree do
      let workspace ← reopen_workspace metadata_root_fd txid
      remove_workspace metadata_root_fd workspace
    pure (removed ++ [txid])

/-- One blob of `_reclaim_orphans`. -/
def reclaim_blob (metadata_root_fd : Inode) (removed : List String) (digest : String) : Storing (List String) := do
  remove_unindexed_blob metadata_root_fd digest
  pure (removed ++ [digest])

/-- `_reclaim_orphans` -/
def reclaim_orphans (metadata_root_fd : Inode) : Storing (List String × List String) := do
  let txids ← in_tree (list_workspaces metadata_root_fd)
  let removed_workspaces ← txids.foldlM (reclaim_workspace metadata_root_fd) []
  let digests ← list_unindexed_blobs metadata_root_fd
  let removed_blobs ← digests.foldlM (reclaim_blob metadata_root_fd) []
  pure (removed_workspaces, removed_blobs)

/-- What every state of a metadata root has, once these contents have been captured under it. -/
def Sound (dirs : Directories) (captured : List (List UInt8)) (m : Metadata) : Prop := Kept dirs captured m.db m.disk

variable {dirs : Directories} {captured : List (List UInt8)} {m : Metadata}

/-- Calls on the tree leave the tables alone. -/
theorem in_tree_ensures {α : Type} {p : Call α} {ok : α → Disk → Prop}
    (h : p.Ensures m.disk (Kept dirs captured m.db) (Prog.ends ok (Kept dirs captured m.db))) :
    (in_tree p).Ensures m (Sound dirs captured) (Prog.ends (fun a t => t.db = m.db ∧ ok a t.disk) (Sound dirs captured)) := by
  refine .zoom (h.mono (fun _ => id) ?_)
  rintro (e | a) t ht
  · exact ht
  · exact ⟨rfl, ht⟩

/-- No staging directory is left, and a directory for work only to the transactions that have a record. -/
structure Swept (dirs : Directories) (db : Database) (d : Disk) : Prop where
  staging : ∀ txid, d.lookup dirs.staging txid = none
  work : ∀ txid, (d.lookup dirs.work txid).isSome = true ↔ (db.record? txid).isSome = true

/-- What is left of a transaction without a record goes, and nothing of another does. -/
theorem sweep_workspace_ensures {db : Database} {d : Disk} (h : Kept dirs captured db d) {txid : String}
    (hrecord : db.record? txid = none) :
    (do
      let workspace ← reopen_workspace dirs.root txid
      remove_workspace dirs.root workspace : Call Unit).Ensures d (Kept dirs captured db) (Prog.ends
        (fun _ t => Kept dirs captured db t ∧
          (∀ parent, parent = dirs.staging ∨ parent = dirs.work → t.lookup parent txid = none) ∧
          ∀ parent, parent = dirs.staging ∨ parent = dirs.work → ∀ other ≠ txid, t.lookup parent other = d.lookup parent other)
        (Kept dirs captured db)) := by
  refine (reads_reopen_workspace _ _).ensures_bind (fun workspace hopen => ?_) fun _ => h
  obtain ⟨rfl, hstaging, hwork⟩ := reopen_workspace_completes h.laid hopen
  refine (remove_workspace_ensures h hstaging hwork hrecord).mono (fun _ => id) ?_
  rintro (e | u) t ht
  · exact ht
  · obtain ⟨ht, hstaging, hwork, hsame⟩ := ht
    refine ⟨ht, ?_, fun parent hparent other hother => hsame parent ?_ other ?_ ?_⟩
    · rintro _ (rfl | rfl)
      · exact hstaging
      · exact hwork
    · rcases hparent with rfl | rfl
      · exact dirs.staging_mem
      · exact dirs.work_mem
    · exact fun heq => hother (congrArg Prod.snd heq)
    · exact fun heq => hother (congrArg Prod.snd heq)

/-- What is still to be swept is among the `rest`. -/
structure Sweeping (dirs : Directories) (captured : List (List UInt8)) (db : Database) (rest : List String) (m : Metadata) :
    Prop where
  sound : Sound dirs captured m
  tables : m.db = db
  named : ∀ txid ∉ rest, m.disk.lookup dirs.staging txid = none ∧
    (db.record? txid = none → m.disk.lookup dirs.work txid = none)

/-- One workspace is swept, unless it belongs to a record. -/
theorem reclaim_workspace_ensures {db : Database} {txid : String} {rest : List String}
    (h : Sweeping dirs captured db (txid :: rest) m) (removed : List String) :
    (reclaim_workspace dirs.root removed txid).Ensures m (Sound dirs captured)
      (Prog.ends (fun _ => Sweeping dirs captured db rest) (Sound dirs captured)) := by
  obtain ⟨hsound, rfl, hnamed⟩ := h
  refine .read_bind (fun record hload => ?_) fun _ _ => hsound
  cases record with
  | some record =>
    refine .pure ⟨hsound, rfl, fun other hother => ?_⟩
    by_cases heq : other = txid
    · subst heq
      have hsome := load_record_some hload
      refine ⟨(hsound.recorded other hsome).2.lookup, fun hnone => ?_⟩
      rw [hnone] at hsome
      cases hsome
    · exact hnamed other (fun hmem => (List.mem_cons.mp hmem).elim heq hother)
  | none =>
    have hrecord := load_record_none hload
    refine .bind (in_tree_ensures (sweep_workspace_ensures hsound hrecord)) (fun _ t ht => .pure ?_) fun _ _ ht => ht
    obtain ⟨hdb, ht, hgone, hsame⟩ := ht
    refine ⟨?_, hdb, fun other hother => ?_⟩
    · rw [Sound, hdb]
      exact ht
    · by_cases heq : other = txid
      · rw [heq]
        exact ⟨hgone _ (.inl rfl), fun _ => hgone _ (.inr rfl)⟩
      · rw [hsame _ (.inl rfl) other heq, hsame _ (.inr rfl) other heq]
        exact hnamed other fun hmem => (List.mem_cons.mp hmem).elim heq hother

/-! The blobs. -/

/-- The blobs that are on disk and that no row names are among the `rest`. -/
structure Unindexed (dirs : Directories) (captured : List (List UInt8)) (db : Database) (rest : List String) (m : Metadata) :
    Prop where
  sound : Sound dirs captured m
  tables : m.db = db
  swept : Swept dirs db m.disk
  listed : ∀ leaf, (m.disk.lookup dirs.sha256 leaf).isSome = true →
    (select_blob db ("sha256:" ++ leaf)).isSome = true ∨ "sha256:" ++ leaf ∈ rest

theorem reads_list_leaf (parent : Inode) (orphans : List String) (leaf : String) : (list_leaf parent orphans leaf).Reads :=
  .bind (.zoom (reads_leaf_to_digest_or_refuse _)) fun _ => .bind (.read _) fun _ =>
    .zoom (.bind (reads_open_leaf _ _ _ _) fun _ => .bind (reads_verify_leaf _ _ _) fun _ => .pure _)

theorem reads_list_unindexed_blobs (root : Inode) : (list_unindexed_blobs root).Reads :=
  .bind (.zoom (.bind (.read _) fun _ => .read _)) fun _ => .bind (.zoom (.read _)) fun _ =>
    .foldlM (fun orphans leaf => reads_list_leaf _ orphans leaf) _

/-- A leaf that was listed is the leaf of a row, or among the orphans with those that were. -/
theorem list_leaf_completes {parent : Inode} {orphans listed : List String} {leaf : String} {m' : Metadata}
    (h : (list_leaf parent orphans leaf).Completes m listed m') : orphans ⊆ listed ∧
      ((select_blob m.db ("sha256:" ++ leaf)).isSome = true ∨ "sha256:" ++ leaf ∈ listed) := by
  obtain ⟨digest, hdigest, h⟩ := (Prog.Reads.zoom (reads_leaf_to_digest_or_refuse _)).completes_bind h
  obtain ⟨_, hdigest, _⟩ := Prog.completes_zoom_iff.mp hdigest
  obtain ⟨_, rfl⟩ := leaf_to_digest_or_refuse_completes hdigest
  obtain ⟨row, hrow, h⟩ := (Prog.Reads.read _).completes_bind h
  obtain rfl := Except.ok.inj (Prog.completes_read_iff.mp hrow).1
  obtain ⟨_, h, _⟩ := Prog.completes_zoom_iff.mp h
  obtain ⟨_, _, h⟩ := (reads_open_leaf _ _ _ _).completes_bind h
  obtain ⟨_, _, h⟩ := (reads_verify_leaf _ _ _).completes_bind h
  obtain ⟨rfl, _⟩ := Prog.completes_pure_iff.mp h
  by_cases hnone : select_blob m.db ("sha256:" ++ leaf) = none
  · rw [if_pos hnone]
    exact ⟨List.subset_append_left _ _, .inr (List.mem_append_right _ (List.mem_singleton_self _))⟩
  · rw [if_neg hnone]
    exact ⟨fun _ => id, .inl (Option.isSome_iff_ne_none.mpr hnone)⟩

theorem list_leaves_completes {parent : Inode} {leaves orphans listed : List String} {m' : Metadata}
    (h : (leaves.foldlM (list_leaf parent) orphans).Completes m listed m') : orphans ⊆ listed ∧
      ∀ leaf ∈ leaves, (select_blob m.db ("sha256:" ++ leaf)).isSome = true ∨ "sha256:" ++ leaf ∈ listed := by
  induction leaves generalizing orphans with
  | nil =>
    obtain ⟨rfl, _⟩ := Prog.completes_pure_iff.mp h
    exact ⟨fun _ => id, fun _ hleaf => nomatch hleaf⟩
  | cons leaf rest ih =>
    obtain ⟨more, hleaf, h⟩ := (reads_list_leaf _ _ _).completes_bind h
    obtain ⟨hsub, hleaf⟩ := list_leaf_completes hleaf
    obtain ⟨hsub', hrest⟩ := ih h
    refine ⟨fun _ hmem => hsub' (hsub hmem), fun other hother => ?_⟩
    rcases List.mem_cons.mp hother with rfl | hother
    · exact hleaf.imp id fun hmem => hsub' hmem
    · exact hrest other hother

theorem list_unindexed_blobs_completes (h : Laid dirs m.disk) {digests : List String} {m' : Metadata}
    (hlist : (list_unindexed_blobs dirs.root).Completes m digests m') (leaf : String)
    (hleaf : (m.disk.lookup dirs.sha256 leaf).isSome = true) :
    (select_blob m.db ("sha256:" ++ leaf)).isSome = true ∨ "sha256:" ++ leaf ∈ digests := by
  have hblobs : (in_tree (blobs_fd dirs.root)).Returns m dirs.sha256 := .zoom h.blobs_fd
  have hlist := hblobs.completes_bind hlist
  obtain ⟨leaves, hleaves, hlist⟩ := (Prog.Reads.zoom (.read _)).completes_bind hlist
  obtain ⟨_, hleaves, _⟩ := Prog.completes_zoom_iff.mp hleaves
  obtain rfl := Except.ok.inj (Prog.completes_read_iff.mp hleaves).1
  exact (list_leaves_completes hlist).2 leaf ((mem_sorted_by _ _ _).mpr (Disk.mem_listdir.mpr hleaf))

/-- One blob without a row goes. -/
theorem reclaim_blob_ensures {db : Database} {digest : String} {rest : List String}
    (h : Unindexed dirs captured db (digest :: rest) m) (removed : List String) :
    (reclaim_blob dirs.root removed digest).Ensures m (Sound dirs captured)
      (Prog.ends (fun _ => Unindexed dirs captured db rest) (Sound dirs captured)) := by
  obtain ⟨hsound, rfl, hswept, hlisted⟩ := h
  refine .bind (Q := Prog.ends (fun _ => Unindexed dirs captured m.db rest) (Sound dirs captured)) ?_
    (fun _ t ht => .pure ht) fun _ _ ht => ht
  refine (Prog.Reads.zoom (reads_require_digest _)).ensures_bind (fun _ _ => ?_) fun _ => hsound
  refine .read_bind (fun _ hnone => ?_) fun _ _ => hsound
  have hrow : select_blob m.db digest = none := by
    cases hrow : select_blob m.db digest with
    | none => rfl
    | some byte_len =>
      simp only [hrow] at hnone
      cases hnone
  refine (in_tree_ensures (remove_leaf_ensures hsound hrow)).mono (fun _ => id) ?_
  rintro (e | u) t ht
  · exact ht
  · obtain ⟨hdb, ht, hgone, hbeside⟩ := ht
    have hne : ∀ leaf, (dirs.staging, leaf) ≠ (dirs.sha256, leaf_of digest) := fun leaf heq =>
      dirs.staging_ne.2.2.1 (congrArg Prod.fst heq)
    have hne' : ∀ leaf, (dirs.work, leaf) ≠ (dirs.sha256, leaf_of digest) := fun leaf heq =>
      dirs.work_ne.2.2 (congrArg Prod.fst heq)
    refine ⟨?_, hdb, ⟨fun txid => ?_, fun txid => ?_⟩, fun leaf hleaf => ?_⟩
    · rw [Sound, hdb]
      exact ht
    · rw [hbeside _ dirs.staging_mem _ (hne _), hswept.staging txid]
    · rw [hbeside _ dirs.work_mem _ (hne' _), hswept.work txid]
    · have hother : leaf ≠ leaf_of digest := by
        rintro rfl
        rw [hgone] at hleaf
        cases hleaf
      rw [hbeside _ dirs.sha256_mem _ (fun heq => hother (congrArg Prod.snd heq))] at hleaf
      refine (hlisted leaf hleaf).imp id fun hmem => (List.mem_cons.mp hmem).resolve_left ?_
      intro heq
      rw [← heq, leaf_of_append] at hother
      exact hother rfl

/-- A reclamation leaves no staging directory, a directory for work to each record and to nothing else, and the blobs
that have a row. -/
theorem reclaim_orphans_ensures (h : Sound dirs captured m) :
    (reclaim_orphans dirs.root).Ensures m (Sound dirs captured) (Prog.ends
      (fun _ t => t.db = m.db ∧ Sound dirs captured t ∧ Swept dirs m.db t.disk ∧
        ∀ leaf, (t.disk.lookup dirs.sha256 leaf).isSome = true ↔ (select_blob m.db ("sha256:" ++ leaf)).isSome = true)
      (Sound dirs captured)) := by
  refine (Prog.Reads.zoom (reads_list_workspaces _)).ensures_bind (fun txids hlist => ?_) fun _ => h
  obtain ⟨_, hlist, _⟩ := Prog.completes_zoom_iff.mp hlist
  have hstart : Sweeping dirs captured m.db txids m := by
    refine ⟨h, rfl, fun txid htxid => ⟨?_, fun _ => ?_⟩⟩
    · by_contra hsome
      exact htxid (list_workspaces_completes h.laid hlist txid (.inl (Option.isSome_iff_ne_none.mpr hsome)))
    · by_contra hsome
      exact htxid (list_workspaces_completes h.laid hlist txid (.inr (Option.isSome_iff_ne_none.mpr hsome)))
  refine .bind (.foldlM (fun txid rest removed t ht => reclaim_workspace_ensures ht removed) [] hstart)
    (fun removed t ht => ?_) fun _ _ ht => ht
  obtain ⟨ht, hdb, hnamed⟩ := ht
  have hswept : Swept dirs m.db t.disk := by
    refine ⟨fun txid => (hnamed txid List.not_mem_nil).1, fun txid => ⟨fun hwork => ?_, fun hrecord => ?_⟩⟩
    · by_contra hnone
      rw [(hnamed txid List.not_mem_nil).2 (by simpa using hnone)] at hwork
      cases hwork
    · obtain ⟨⟨fd, hholds⟩, _⟩ := ht.recorded txid (hdb ▸ hrecord)
      rw [hholds.lookup]
      rfl
  refine (reads_list_unindexed_blobs _).ensures_bind (fun digests hlist => ?_) fun _ => ht
  have hstart : Unindexed dirs captured m.db digests t := by
    refine ⟨ht, hdb, hswept, fun leaf hleaf => ?_⟩
    rw [← hdb]
    exact list_unindexed_blobs_completes ht.laid hlist leaf hleaf
  refine .bind (.foldlM (fun digest rest removed t ht => reclaim_blob_ensures ht removed) [] hstart)
    (fun removed t ht => .pure ?_) fun _ _ ht => ht
  obtain ⟨ht, hdb, hswept, hlisted⟩ := ht
  refine ⟨hdb, ht, hswept, fun leaf => ⟨fun hleaf => (hlisted leaf hleaf).resolve_right List.not_mem_nil, fun hrow => ?_⟩⟩
  obtain ⟨byte_len, hrow⟩ := Option.isSome_iff_exists.mp hrow
  obtain ⟨_, entry, hholds, _⟩ := ht.indexed _ byte_len (hdb ▸ hrow)
  rw [leaf_of_append] at hholds
  rw [hholds.lookup]
  rfl

end

end atoms.coordinator
