import Atoms.Store.Blobs

open atoms.errors atoms.identifiers atoms.fs checked keyed crash writeback

namespace atoms.store

/-- The directories of a metadata root. -/
structure Directories where
  root : Inode
  staging : Inode
  work : Inode
  blobs : Inode
  sha256 : Inode
  distinct : [root, staging, work, blobs, sha256].Nodup

def Directories.all (dirs : Directories) : List Inode := [dirs.root, dirs.staging, dirs.work, dirs.blobs, dirs.sha256]

namespace Directories

variable (dirs : Directories)

theorem staging_mem : dirs.staging ∈ dirs.all := by simp [all]

theorem work_mem : dirs.work ∈ dirs.all := by simp [all]

theorem sha256_mem : dirs.sha256 ∈ dirs.all := by simp [all]

theorem staging_ne : dirs.staging ≠ dirs.root ∧ dirs.staging ≠ dirs.blobs ∧ dirs.staging ≠ dirs.sha256 ∧
    dirs.staging ≠ dirs.work := by
  have hdistinct := dirs.distinct
  simp only [List.nodup_cons, List.mem_cons, List.not_mem_nil, or_false, not_or] at hdistinct
  grind

theorem work_ne : dirs.work ≠ dirs.root ∧ dirs.work ≠ dirs.blobs ∧ dirs.work ≠ dirs.sha256 := by
  have hdistinct := dirs.distinct
  simp only [List.nodup_cons, List.mem_cons, List.not_mem_nil, or_false, not_or] at hdistinct
  grind

theorem sha256_ne : dirs.sha256 ≠ dirs.root ∧ dirs.sha256 ≠ dirs.blobs := by
  have hdistinct := dirs.distinct
  simp only [List.nodup_cons, List.mem_cons, List.not_mem_nil, or_false, not_or] at hdistinct
  grind

variable {dirs} in
theorem ne_of_not_mem {fd : Inode} (h : fd ∉ dirs.all) :
    fd ≠ dirs.root ∧ fd ≠ dirs.staging ∧ fd ≠ dirs.work ∧ fd ≠ dirs.blobs ∧ fd ≠ dirs.sha256 := by
  simpa only [all, List.mem_cons, List.not_mem_nil, or_false, not_or] using h

end Directories

/-- The names of the layout lead to the directories, and are on disk. -/
structure Laid (dirs : Directories) (d : Disk) : Prop where
  staging : d.Holds dirs.root STAGING_PARENT (some ⟨.directory, dirs.staging⟩)
  work : d.Holds dirs.root WORK_PARENT (some ⟨.directory, dirs.work⟩)
  blobs : d.Holds dirs.root BLOBS_DIRECTORY (some ⟨.directory, dirs.blobs⟩)
  sha256 : d.Holds dirs.blobs SHA256_DIRECTORY (some ⟨.directory, dirs.sha256⟩)

namespace Laid

variable {dirs : Directories} {d d' : Disk}

/-- A change of a name outside the layout's own directories. -/
theorem set_entry (h : Laid dirs d) {parent : Inode} (hroot : parent ≠ dirs.root) (hblobs : parent ≠ dirs.blobs)
    (leaf : String) (value : Option Entry) : Laid dirs (d.set_entry parent leaf value) where
  staging := h.staging.set_entry (fun heq => hroot (congrArg Prod.fst heq)) value
  work := h.work.set_entry (fun heq => hroot (congrArg Prod.fst heq)) value
  blobs := h.blobs.set_entry (fun heq => hroot (congrArg Prod.fst heq)) value
  sha256 := h.sha256.set_entry (fun heq => hblobs (congrArg Prod.fst heq)) value

theorem allocate (h : Laid dirs d) {parent : Inode} (hroot : parent ≠ dirs.root) (hblobs : parent ≠ dirs.blobs)
    (leaf : String) (kind : Kind) (mode : Nat) : Laid dirs (d.allocate kind parent leaf mode) where
  staging := h.staging.allocate (fun heq => hroot (congrArg Prod.fst heq)) kind mode
  work := h.work.allocate (fun heq => hroot (congrArg Prod.fst heq)) kind mode
  blobs := h.blobs.allocate (fun heq => hroot (congrArg Prod.fst heq)) kind mode
  sha256 := h.sha256.allocate (fun heq => hblobs (congrArg Prod.fst heq)) kind mode

theorem fsync (h : Laid dirs d) (fd : Inode) : Laid dirs (d.fsync fd) where
  staging := h.staging.fsync fd
  work := h.work.fsync fd
  blobs := h.blobs.fsync fd
  sha256 := h.sha256.fsync fd

theorem cut (h : Laid dirs d) (hcut : d.Cut d') : Laid dirs d' where
  staging := h.staging.cut hcut
  work := h.work.cut hcut
  blobs := h.blobs.cut hcut
  sha256 := h.sha256.cut hcut

end Laid

section

variable [Sha256] {dirs : Directories} {captured more : List (List UInt8)} {db db' : Database} {d d' : Disk}

/-- A leaf that may be in the directory of the blobs: one of the captured contents, under its digest, on disk. -/
def Filed (captured : List (List UInt8)) (d : Disk) (leaf : String) (entry : Entry) : Prop :=
  entry.kind = .file ∧ ∃ content ∈ captured, d.contents.Holds entry.inode content ∧ content_digest content = "sha256:" ++ leaf

theorem Filed.mono {leaf : String} {entry : Entry} (h : Filed captured d leaf entry) (hsub : captured ⊆ more)
    (hcontents : ∀ content, d.contents.Holds entry.inode content → d'.contents.Holds entry.inode content) :
    Filed more d' leaf entry := by
  obtain ⟨hkind, content, hmem, hholds, hdigest⟩ := h
  exact ⟨hkind, content, hsub hmem, hcontents content hholds, hdigest⟩

/-- The leaf of a digest is on disk, as long as its row says. -/
def Indexed (dirs : Directories) (d : Disk) (digest : String) (byte_len : Int) : Prop :=
  is_sha256_digest digest = true ∧ ∃ entry, d.Holds dirs.sha256 (leaf_of digest) (some entry) ∧
    ((d.contents.get entry.inode).length : Int) = byte_len

variable [UnicodeData]

/-- What every state of a metadata root has, once these contents have been captured under it. -/
structure Kept (dirs : Directories) (captured : List (List UInt8)) (db : Database) (d : Disk) : Prop where
  laid : Laid dirs d
  below : ∀ fd ∈ dirs.all, fd < d.next
  /-- Every name was given in a numbered object to a numbered one, and only the layout's names to its directories. -/
  named : d.Named fun parent _ entry => parent < d.next ∧ entry.inode < d.next ∧
    (entry.inode ∈ dirs.all → parent = dirs.root ∨ parent = dirs.blobs)
  filed : d.Named fun parent leaf entry => parent = dirs.sha256 → Filed captured d leaf entry
  indexed : ∀ digest byte_len, select_blob db digest = some byte_len → Indexed dirs d digest byte_len
  /-- The transaction of a record has given up its staging directory and has a directory for its work. -/
  recorded : ∀ txid, (db.record? txid).isSome = true →
    (∃ fd, d.Holds dirs.work txid (some ⟨.directory, fd⟩)) ∧ d.Holds dirs.staging txid none
  coherent : ∀ txid, coherence_findings db txid = .ok []

namespace Kept

/-- One name may change, outside the layout's own directories: a blob's only to one that is filed and while no row is
about it, a transaction's only while it has no record. -/
theorem set_entry (h : Kept dirs captured db d) {parent : Inode} {leaf : String} {value : Option Entry}
    (hparent : parent < d.next) (hroot : parent ≠ dirs.root) (hblobs : parent ≠ dirs.blobs)
    (hvalue : ∀ entry, value = some entry → entry.inode < d.next ∧ entry.inode ∉ dirs.all)
    (hfiled : parent = dirs.sha256 → (∀ entry, value = some entry → Filed captured d leaf entry) ∧
      ∀ digest, (select_blob db digest).isSome = true → leaf_of digest ≠ leaf)
    (hrecord : parent = dirs.staging ∨ parent = dirs.work → db.record? leaf = none) :
    Kept dirs captured db (d.set_entry parent leaf value) where
  laid := h.laid.set_entry hroot hblobs leaf value
  below := h.below
  named := h.named.set_entry fun entry hentry =>
    ⟨hparent, (hvalue entry hentry).1, fun hmem => absurd hmem (hvalue entry hentry).2⟩
  filed := h.filed.set_entry fun entry hentry hparent => (hfiled hparent).1 entry hentry
  indexed digest byte_len hrow := by
    obtain ⟨hdigest, entry, hholds, hlength⟩ := h.indexed digest byte_len hrow
    refine ⟨hdigest, entry, hholds.set_entry (fun heq => ?_) value, hlength⟩
    have hparent := congrArg Prod.fst heq
    have hleaf := congrArg Prod.snd heq
    exact (hfiled hparent).2 digest (by rw [hrow]; rfl) hleaf.symm
  recorded txid hsome := by
    obtain ⟨⟨fd, hwork⟩, hstaging⟩ := h.recorded txid hsome
    have hne : ∀ fd, fd = dirs.staging ∨ fd = dirs.work → (parent, leaf) ≠ (fd, txid) := by
      intro fd hfd heq
      have hparent := congrArg Prod.fst heq
      have hleaf := congrArg Prod.snd heq
      simp only at hparent hleaf
      rw [← hleaf, hrecord (hparent ▸ hfd)] at hsome
      cases hsome
    exact ⟨⟨fd, hwork.set_entry (hne _ (.inr rfl)) value⟩, hstaging.set_entry (hne _ (.inl rfl)) value⟩
  coherent := h.coherent

/-- A new object has no content yet, and a name outside the layout and the blobs. -/
theorem allocate (h : Kept dirs captured db d) {parent : Inode} {leaf : String} (hparent : parent < d.next)
    (hroot : parent ≠ dirs.root) (hblobs : parent ≠ dirs.blobs) (hsha256 : parent ≠ dirs.sha256)
    (hrecord : parent = dirs.staging ∨ parent = dirs.work → db.record? leaf = none) (kind : Kind) (mode : Nat) :
    Kept dirs captured db (d.allocate kind parent leaf mode) where
  laid := h.laid.allocate hroot hblobs leaf kind mode
  below fd hfd := Nat.lt_succ_of_lt (h.below fd hfd)
  named := by
    refine .allocate (h.named.mono fun parent leaf entry hentry => ?_) ?_ mode
    · exact ⟨Nat.lt_succ_of_lt hentry.1, Nat.lt_succ_of_lt hentry.2.1, hentry.2.2⟩
    · exact ⟨Nat.lt_succ_of_lt hparent, Nat.lt_succ_self _, fun hmem => absurd (h.below _ hmem) (Nat.lt_irrefl _)⟩
  filed := by
    refine .allocate ((h.filed.and h.named).mono fun parent leaf entry hentry hparent => ?_) (fun hparent => ?_) mode
    · exact (hentry.1 hparent).mono (fun _ => id) fun content hcontent =>
        Cache.Holds.set hcontent (Nat.ne_of_gt hentry.2.2.1) []
    · exact absurd hparent hsha256
  indexed digest byte_len hrow := by
    obtain ⟨hdigest, entry, hholds, hlength⟩ := h.indexed digest byte_len hrow
    refine ⟨hdigest, entry, hholds.allocate (fun heq => hsha256 (congrArg Prod.fst heq)) kind mode, ?_⟩
    have hbelow := (h.named.lookup hholds.lookup).2.1
    rw [Disk.get_contents_allocate, if_neg (Nat.ne_of_gt hbelow)]
    exact hlength
  recorded txid hsome := by
    obtain ⟨⟨fd, hwork⟩, hstaging⟩ := h.recorded txid hsome
    have hne : ∀ fd, fd = dirs.staging ∨ fd = dirs.work → (parent, leaf) ≠ (fd, txid) := by
      intro fd hfd heq
      have hparent := congrArg Prod.fst heq
      have hleaf := congrArg Prod.snd heq
      simp only at hparent hleaf
      rw [← hleaf, hrecord (hparent ▸ hfd)] at hsome
      cases hsome
    exact ⟨⟨fd, hwork.allocate (hne _ (.inr rfl)) kind mode⟩, hstaging.allocate (hne _ (.inl rfl)) kind mode⟩
  coherent := h.coherent

theorem fsync (h : Kept dirs captured db d) (fd : Inode) : Kept dirs captured db (d.fsync fd) where
  laid := h.laid.fsync fd
  below := h.below
  named := h.named.fsync fd
  filed := (h.filed.fsync fd).mono fun _ _ _ hentry hparent => (hentry hparent).mono (fun _ => id) fun _ hcontent =>
    Cache.Holds.flush hcontent _
  indexed digest byte_len hrow := by
    obtain ⟨hdigest, entry, hholds, hlength⟩ := h.indexed digest byte_len hrow
    refine ⟨hdigest, entry, hholds.fsync fd, ?_⟩
    rw [Disk.get_contents_fsync]
    exact hlength
  recorded txid hsome := by
    obtain ⟨⟨work, hwork⟩, hstaging⟩ := h.recorded txid hsome
    exact ⟨⟨work, hwork.fsync fd⟩, hstaging.fsync fd⟩
  coherent := h.coherent

/-- The content of an object that was never filed may change. -/
theorem set_contents (h : Kept dirs captured db d) {inode : Inode}
    (hunfiled : d.Named fun parent _ entry => parent = dirs.sha256 → entry.inode ≠ inode) (content : List UInt8)
    (short_writes : List Nat) :
    Kept dirs captured db { d with contents := d.contents.set inode content, short_writes } where
  laid := ⟨h.laid.staging, h.laid.work, h.laid.blobs, h.laid.sha256⟩
  below := h.below
  named := h.named
  filed := by
    intro write hwrite entry hentry hparent
    have hne := hunfiled write hwrite entry hentry hparent
    exact (h.filed write hwrite entry hentry hparent).mono (fun _ => id) fun held hheld =>
      Cache.Holds.set hheld (Ne.symm hne) content
  indexed digest byte_len hrow := by
    obtain ⟨hdigest, entry, hholds, hlength⟩ := h.indexed digest byte_len hrow
    refine ⟨hdigest, entry, hholds, ?_⟩
    rw [Cache.get_set_of_ne _ (Ne.symm (hunfiled.lookup hholds.lookup rfl))]
    exact hlength
  recorded := h.recorded
  coherent := h.coherent

theorem cut (h : Kept dirs captured db d) (hcut : d.Cut d') : Kept dirs captured db d' where
  laid := h.laid.cut hcut
  below fd hfd := hcut.2.2.2 ▸ h.below fd hfd
  named := (h.named.cut hcut).mono fun _ _ _ hentry =>
    ⟨hcut.2.2.2 ▸ hentry.1, hcut.2.2.2 ▸ hentry.2.1, hentry.2.2⟩
  filed := (h.filed.cut hcut).mono fun _ _ _ hentry hparent => (hentry hparent).mono (fun _ => id) fun _ hcontent =>
    Cache.Holds.cut hcontent hcut.2.1
  indexed digest byte_len hrow := by
    obtain ⟨hdigest, entry, hholds, hlength⟩ := h.indexed digest byte_len hrow
    obtain ⟨_, content, _, hcontent, _⟩ := h.filed.lookup hholds.lookup rfl
    refine ⟨hdigest, entry, hholds.cut hcut, ?_⟩
    rw [(Cache.Holds.cut hcontent hcut.2.1).2, ← hcontent.2]
    exact hlength
  recorded txid hsome := by
    obtain ⟨⟨work, hwork⟩, hstaging⟩ := h.recorded txid hsome
    exact ⟨⟨work, hwork.cut hcut⟩, hstaging.cut hcut⟩
  coherent := h.coherent

/-- What a name outside the layout's own directories leads to is outside the layout. -/
theorem outside (h : Kept dirs captured db d) {parent : Inode} {leaf : String} {entry : Entry}
    (hentry : d.lookup parent leaf = some entry) (hroot : parent ≠ dirs.root) (hblobs : parent ≠ dirs.blobs) :
    entry.inode ∉ dirs.all := fun hmem =>
  ((h.named.lookup hentry).2.2 hmem).elim hroot hblobs

/-- Where a transaction has no directory for its work, it has no record. -/
theorem no_record (h : Kept dirs captured db d) {txid : String} (hwork : d.lookup dirs.work txid = none) :
    db.record? txid = none := by
  by_contra hsome
  obtain ⟨⟨fd, hholds⟩, _⟩ := h.recorded txid (Option.isSome_iff_ne_none.mpr hsome)
  rw [hholds.lookup] at hwork
  cases hwork

/-- What follows in a directory that no name leads to yet: it has no names. -/
theorem unnamed (h : Kept dirs captured db d) (leaf : String) : d.lookup d.next leaf = none := by
  cases hentry : d.lookup d.next leaf with
  | none => rfl
  | some entry => exact absurd (h.named.lookup hentry).1 (Nat.lt_irrefl _)

theorem captured_mono (h : Kept dirs captured db d) (hsub : captured ⊆ more) : Kept dirs more db d :=
  { h with filed := h.filed.mono fun _ _ _ hentry hparent => (hentry hparent).mono hsub fun _ => id }

end Kept

end

end atoms.store
