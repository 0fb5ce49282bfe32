import Atoms.Store.Kept.Workspaces

open atoms.errors atoms.identifiers atoms.fs atoms.spec checked keyed crash writeback

namespace atoms.store

/-! What the calls of the blobs find. -/

section

variable {dirs : Directories} {d : Disk}

theorem leaf_of_append (leaf : String) : leaf_of ("sha256:" ++ leaf) = leaf := by
  rw [leaf_of, String.toList_append]
  exact (String.toList_inj.mp (by rw [String.toList_ofList]; rfl))

theorem append_leaf_of {digest : String} (h : is_sha256_digest digest = true) : "sha256:" ++ leaf_of digest = digest :=
  (sha256_digest_eq h).1

/-- Two digests of one leaf are one. -/
theorem digest_inj {left right : String} (hleft : is_sha256_digest left = true) (hright : is_sha256_digest right = true)
    (h : leaf_of left = leaf_of right) : left = right := by
  rw [← append_leaf_of hleft, h, append_leaf_of hright]

theorem Laid.blobs_fd (h : Laid dirs d) : (store.blobs_fd dirs.root).Returns d dirs.sha256 := by
  refine Prog.Returns.bind (a := dirs.blobs) (.read ?_) (.read ?_)
  · rw [h.blobs.lookup]
  · rw [h.sha256.lookup]

theorem reads_open_entry_nofollow (parent : Inode) (name what : String) : (open_entry_nofollow parent name what).Reads := by
  refine .tryCatch (.read _) fun e => ?_
  split
  · exact .throw _
  · exact .throw _

theorem open_entry_nofollow_completes {parent : Inode} {name what : String} {fd : Entry} {d' : Disk}
    (h : (open_entry_nofollow parent name what).Completes d fd d') : d.lookup parent name = some fd := by
  rw [open_entry_nofollow, Prog.completes_rethrow_iff] at h
  · have hread := (Prog.completes_read_iff.mp h).1
    split at hread
    · cases hread
    · cases hread
    · rename_i hentry
      rw [hentry, Except.ok.inj hread]
  · intro e t b t' hthrow
    split at hthrow
    · exact Prog.not_completes_throw hthrow
    · exact Prog.not_completes_throw hthrow

theorem reads_open_leaf (parent : Inode) (leaf digest : String) (absent : Raised) : (open_leaf parent leaf digest absent).Reads := by
  refine .tryCatch (reads_open_entry_nofollow _ _ _) fun e => ?_
  split
  · exact .throw _
  · exact .throw _

theorem read_all_returns {fd : Entry} (h : fd.kind = .file) : (read_all fd).Returns d (d.contents.get fd.inode) := by
  refine .read ?_
  rw [h]

end

section

variable [Sha256] {d : Disk}

theorem reads_verify_leaf (fd : Entry) (digest : String) (byte_len : Option Int) : (verify_leaf fd digest byte_len).Reads :=
  .bind (.ite (.pure _) (.throw _)) fun _ => .bind (.read _) fun _ => .bind (.ite (.pure _) (.throw _)) fun _ =>
    .bind (.ite (.pure _) (.throw _)) fun _ => .pure _

/-- What an object that was verified as the leaf of a digest is. -/
structure Verified (d : Disk) (fd : Entry) (digest : String) (byte_len : Option Int) : Prop where
  kind : fd.kind = .file
  digest : content_digest (d.contents.get fd.inode) = digest
  byte_len : ∀ expected, byte_len = some expected → ((d.contents.get fd.inode).length : Int) = expected

theorem verify_leaf_completes {fd : Entry} {digest : String} {byte_len : Option Int} {length : Int} {d' : Disk}
    (h : (verify_leaf fd digest byte_len).Completes d length d') : Verified d fd digest byte_len := by
  obtain ⟨_, hguard, h⟩ := (Prog.Reads.ite (.pure _) (.throw _)).completes_bind h
  have hkind := (Prog.completes_guard hguard).1
  have h := (read_all_returns hkind).completes_bind h
  obtain ⟨_, hguard, h⟩ := (Prog.Reads.ite (.pure _) (.throw _)).completes_bind h
  have hlength := (Prog.completes_guard hguard).1
  obtain ⟨_, hguard, h⟩ := (Prog.Reads.ite (.pure _) (.throw _)).completes_bind h
  refine ⟨hkind, (Prog.completes_guard hguard).1, ?_⟩
  rintro expected rfl
  rcases hlength with hnone | hsome
  · cases hnone
  · exact (Option.some.inj hsome).symm

end

section

variable [UnicodeData] {d : Disk}

theorem reads_require_digest (digest : String) : (require_digest digest).Reads := .ite (.pure _) (.throw _)

theorem reads_digest_to_leaf (digest : String) : (digest_to_leaf digest).Reads :=
  .bind (reads_require_digest _) fun _ => .pure _

theorem digest_to_leaf_completes {digest leaf : String} {d' : Disk} (h : (digest_to_leaf digest).Completes d leaf d') :
    is_sha256_digest digest = true ∧ leaf = leaf_of digest := by
  obtain ⟨_, hguard, h⟩ := (reads_require_digest _).completes_bind h
  exact ⟨(Prog.completes_guard hguard).1, (Prog.completes_pure_iff.mp h).1.symm⟩

theorem digest_to_leaf_returns {digest : String} (h : is_sha256_digest digest = true) :
    (digest_to_leaf digest).Returns d (leaf_of digest) := by
  rw [digest_to_leaf, require_digest, require_asked, if_pos h]
  exact .pure

theorem reads_leaf_to_digest_or_refuse (leaf : String) : (leaf_to_digest_or_refuse leaf).Reads := by
  refine .tryCatch (.bind (reads_require_digest _) fun _ => .pure _) fun e => ?_
  split
  · exact .throw _
  · exact .throw _

theorem leaf_to_digest_or_refuse_completes {leaf digest : String} {d' : Disk}
    (h : (leaf_to_digest_or_refuse leaf).Completes d digest d') :
    is_sha256_digest ("sha256:" ++ leaf) = true ∧ digest = "sha256:" ++ leaf := by
  rw [leaf_to_digest_or_refuse, Prog.completes_rethrow_iff] at h
  · obtain ⟨_, hguard, h⟩ := (reads_require_digest _).completes_bind h
    exact ⟨(Prog.completes_guard hguard).1, (Prog.completes_pure_iff.mp h).1.symm⟩
  · intro e t b t' hthrow
    split at hthrow
    · exact Prog.not_completes_throw hthrow
    · exact Prog.not_completes_throw hthrow

end

/-! The removal of a blob that no row names. -/

section

variable [UnicodeData] [Sha256] {dirs : Directories} {captured : List (List UInt8)} {db : Database} {d : Disk}

theorem remove_leaf_ensures (h : Kept dirs captured db d) {digest : String} (hrow : select_blob db digest = none) :
    (remove_leaf dirs.root digest).Ensures d (Kept dirs captured db) (Prog.ends
      (fun _ t => Kept dirs captured db t ∧ t.lookup dirs.sha256 (leaf_of digest) = none ∧
        Beside dirs (dirs.sha256, leaf_of digest) d t) (Kept dirs captured db)) := by
  refine h.laid.blobs_fd.ensures_bind ?_
  refine (reads_digest_to_leaf _).ensures_bind (fun leaf hleaf => ?_) fun _ => h
  obtain ⟨hdigest, rfl⟩ := digest_to_leaf_completes hleaf
  refine (reads_open_leaf _ _ _ _).ensures_bind (fun fd hfd => ?_) fun _ => h
  refine (reads_verify_leaf _ _ _).ensures_bind (fun _ _ => ?_) fun _ => h
  have hkept : Kept dirs captured db (d.set_entry dirs.sha256 (leaf_of digest) none) := by
    refine h.set_entry (h.below _ dirs.sha256_mem) dirs.sha256_ne.1 dirs.sha256_ne.2 (fun _ hnone => nomatch hnone)
      (fun _ => ⟨fun _ hnone => (nomatch hnone), fun other hother heq => ?_⟩) ?_
    · obtain ⟨byte_len, hother⟩ := Option.isSome_iff_exists.mp hother
      rw [digest_inj (h.indexed other byte_len hother).1 hdigest heq, hrow] at hother
      cases hother
    · rintro (heq | heq)
      · exact absurd heq.symm dirs.staging_ne.2.2.1
      · exact absurd heq.symm dirs.work_ne.2.2
  have hgone : (d.set_entry dirs.sha256 (leaf_of digest) none).lookup dirs.sha256 (leaf_of digest) = none :=
    d.lookup_set_entry_self _ _ none
  have hbeside : Beside dirs (dirs.sha256, leaf_of digest) d (d.set_entry dirs.sha256 (leaf_of digest) none) :=
    fun _ _ _ hne => d.lookup_set_entry_of_ne (Ne.symm hne) none
  refine .bind (Q := Prog.ends (fun _ t => t = d.set_entry dirs.sha256 (leaf_of digest) none) fun t => t = d) ?_ ?_ ?_
  · refine .tryCatch (Q := Prog.ends (fun _ t => t = d.set_entry dirs.sha256 (leaf_of digest) none) fun t => t = d)
      (.call (fun _ t hcall => ?_) fun _ _ => rfl) (fun _ _ ht => ht) fun e t ht => ?_
    · split at hcall
      · cases hcall
      · cases hcall
      · cases hcall
        exact ⟨hkept, rfl⟩
    · split
      · exact .throw ht
      · exact .throw ht
  · rintro _ _ rfl
    refine flush_directory_ensures hkept _ fun t hsame => ⟨(hsame _ _).trans hgone, ?_⟩
    exact fun parent hparent leaf hne => (hsame parent leaf).trans (hbeside parent hparent leaf hne)
  · rintro _ _ rfl
    exact h

end

end atoms.store
