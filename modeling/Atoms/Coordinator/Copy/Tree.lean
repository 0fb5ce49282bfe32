import Atoms.Coordinator.Copy.Filled

open atoms.errors atoms.fingerprint atoms.paths atoms.spec atoms.fs atoms.store atoms.chain checked crash writeback

namespace atoms.coordinator

/-! `_copy_tree` -/

theorem components_eq_concat (path : String) :
    components path = (components path).dropLast ++ [(components path).getLast?.getD ""] := by
  have hne := components_ne_nil path
  rw [List.getLast?_eq_some_getLast hne, Option.getD_some, List.dropLast_concat_getLast]

section

variable {t t' : Disk} {root fd : Inode} {cache cache' : Directories.Cache} {reversed : List String}

/-- Each descriptor that is kept is the directory that the names lead to. -/
def Cached (t : Disk) (root : Inode) (cache : Directories.Cache) : Prop :=
  ∀ item ∈ cache, t.directory_at root item.1.reverse = some item.2

theorem Cached.filled {skipped : List String} (h : Cached t root cache) (hfilled : t.Filled root skipped t') :
    Cached t' root cache := fun item hitem => hfilled.directory_at (h item hitem)

theorem reads_directory_fd (root : Inode) (cache : Directories.Cache) (reversed : List String) :
    (directory_fd root cache reversed).Reads := by
  induction reversed with
  | nil => exact .pure _
  | cons leaf parent ih =>
    rw [directory_fd]
    split
    · exact .pure _
    · exact .bind ih fun _ => .bind (.read _) fun _ => .pure _

theorem open_child_directory_completes {parent : Inode} {name : String}
    (h : (open_child_directory parent name).Completes t fd t') : t.child parent name = some fd := by
  obtain ⟨hread, _⟩ := Prog.completes_read_iff.mp h
  split at hread
  · cases hread
  · rename_i inode hentry
    cases hread
    exact Disk.child_eq_some_iff.mpr hentry
  · cases hread
  · cases hread

/-- The directory of some names is the one that they lead to. -/
theorem directory_fd_completes (hcache : Cached t root cache)
    (h : (directory_fd root cache reversed).Completes t (fd, cache') t') :
    t.directory_at root reversed.reverse = some fd ∧ Cached t root cache' := by
  induction reversed generalizing fd cache' t' with
  | nil =>
    obtain ⟨heq, _⟩ := Prog.completes_pure_iff.mp h
    cases heq
    exact ⟨rfl, hcache⟩
  | cons leaf parent ih =>
    rw [directory_fd] at h
    cases hfound : cache.lookup (leaf :: parent) with
    | some found =>
      simp only [hfound] at h
      obtain ⟨heq, _⟩ := Prog.completes_pure_iff.mp h
      cases heq
      obtain ⟨front, rest, rfl, _⟩ := List.lookup_eq_some_iff.mp hfound
      exact ⟨hcache (leaf :: parent, fd) (List.mem_append_right _ List.mem_cons_self), hcache⟩
    | none =>
      simp only [hfound] at h
      obtain ⟨⟨parent_fd, middle⟩, hparent, h⟩ := (reads_directory_fd root cache parent).completes_bind h
      obtain ⟨hnames, hmiddle⟩ := ih hparent
      obtain ⟨opened, hopen, h⟩ := Prog.Reads.completes_bind (.read _) h
      obtain ⟨heq, _⟩ := Prog.completes_pure_iff.mp h
      cases heq
      have hfd : t.directory_at root (leaf :: parent).reverse = some fd := by
        rw [List.reverse_cons, Disk.directory_at_concat, hnames]
        exact open_child_directory_completes hopen
      refine ⟨hfd, fun item hitem => ?_⟩
      rcases List.mem_cons.mp hitem with rfl | hitem
      · exact hfd
      · exact hmiddle item hitem

end

section

variable [UnicodeData] [Sha256] {t : Disk} {root : Inode} {skipped : List String}

omit [UnicodeData] in
theorem state_at_concat (d : Disk) (root : Inode) (front : List String) (leaf : String) :
    state_at d root (front ++ [leaf]) =
      (d.directory_at root front).bind fun parent => (d.lookup parent leaf).map (entry_state d) := by
  rw [state_at, Disk.entry_at_concat, Option.map_bind]
  rfl

omit [UnicodeData] [Sha256] in
/-- The states that what stands under a name can have. -/
def Realized : PathState → Prop
  | .DirectoryState state => 0 ≤ state.mode
  | .SymlinkState state => state.mode = 0o777
  | .FileState state => 0 ≤ state.mode
  | .AbsentState => False

omit [UnicodeData] in
theorem realized_entry_state (d : Disk) (entry : fs.Entry) : Realized (entry_state d entry) := by
  obtain ⟨kind, inode⟩ := entry
  cases kind with
  | symlink target => exact rfl
  | directory => exact Int.natCast_nonneg _
  | file => exact Int.natCast_nonneg _

/-- The entries of a snapshot: each path once, in order, with a state that something can have, and none that is passed
over. -/
structure Listing (skipped : List String) (entries : List (String × PathState)) : Prop where
  nodup : (entries.map Prod.fst).Nodup
  sorted : entries.Pairwise fun left right => left.1 ≤ right.1
  spelled : ∀ item ∈ entries, Spelled (components item.1)
  passed : ∀ item ∈ entries, ∀ first ∈ (components item.1).head?, first ∉ skipped
  realized : ∀ item ∈ entries, Realized item.2

/-- What is verified has the state that the snapshot gives it. -/
theorem verify_existing_completes {parent : Inode} {leaf path : String} {entry : fs.Entry} {state : PathState} {t' : Disk}
    (hentry : t.lookup parent leaf = some entry) (hstate : Realized state)
    (h : (verify_existing parent leaf path entry.kind (t.modes.get entry.inode) state).Completes t () t') :
    entry_state t entry = state := by
  obtain ⟨kind, inode⟩ := entry
  have hvalid : ∀ {condition : Prop} [Decidable condition] {message : String} {u u' : Disk},
      (lift (require_valid condition message)).Completes u () u' → condition :=
    fun h => require_eq_ok_iff.mp (Prog.completes_read_iff.mp h).1
  cases state with
  | AbsentState => exact absurd h Prog.not_completes_throw
  | DirectoryState state =>
    obtain ⟨hkind, hmode⟩ := hvalid h
    simp only at hkind hmode
    subst hkind
    rw [entry_state, hmode]
  | SymlinkState state =>
    have hfixed : state.mode = 0o777 := hstate
    cases kind with
    | symlink target =>
      obtain ⟨read, hread, h⟩ := Prog.Reads.completes_bind (.read _) h
      obtain ⟨hread, _⟩ := Prog.completes_read_iff.mp hread
      simp only [hentry] at hread
      cases hread
      have htarget : target = state.target := hvalid h
      rw [entry_state, htarget, ← hfixed]
    | _ => exact (hvalid h).elim
  | FileState state =>
    obtain ⟨_, hchecked, hread⟩ := Prog.Reads.completes_bind (.read _) h
    obtain ⟨hkind, hmode⟩ := hvalid hchecked
    simp only at hkind hmode
    subst hkind
    obtain ⟨opened, hopen, h⟩ := Prog.Reads.completes_bind (.read _) hread
    obtain ⟨hopen, _⟩ := Prog.completes_read_iff.mp hopen
    simp only [hentry] at hopen
    cases hopen
    obtain ⟨content, hread, h⟩ := Prog.Reads.completes_bind (.read _) h
    obtain ⟨hread, _⟩ := Prog.completes_read_iff.mp hread
    cases hread
    have hcontent := of_decide_eq_true (hvalid h)
    rw [entry_state, file_state, hmode, hcontent.1, hcontent.2]

theorem reads_verify_existing (parent : Inode) (leaf path : String) (kind : Kind) (mode : Nat) (state : PathState) :
    (verify_existing parent leaf path kind mode state).Reads := by
  cases state with
  | AbsentState => exact .throw _
  | DirectoryState state => exact .read _
  | SymlinkState state =>
    cases kind with
    | symlink target => exact .bind (.read _) fun _ => .read _
    | _ => exact .read _
  | FileState state => exact .bind (.read _) fun _ => .bind (.read _) fun _ => .bind (.read _) fun _ => .read _

omit [UnicodeData] [Sha256] in
/-- A file is created with its content and its mode, and flushed, before the rest is done. -/
theorem create_file_ensures {β : Type} {parent : Inode} {leaf : String} {mode : Nat} {content : List UInt8} {rest : Inode → Call β}
    {I : Disk → Prop} {R : Except Raised β → Disk → Prop} (habsent : t.lookup parent leaf = none)
    (hI : ∀ u, Disk.Created .file parent leaf t u → I u)
    (hrest : ∀ u, Disk.Created .file parent leaf t u → u.contents.get t.next = content → u.modes.get t.next = mode →
      (rest t.next).Ensures u I R)
    (herror : ∀ e u, Disk.Created .file parent leaf t u → R (.error e) u) :
    (do
      let fd ← create_exclusive parent leaf mode
      write_all fd content.length content
      set_mode fd mode
      flush_file fd
      rest fd : Call β).Ensures t I R := by
  have hmade : Disk.Created .file parent leaf t (t.allocate .file parent leaf mode) := .allocate _ _ _ _ _
  refine .call_ok_bind (a := t.next) (by rw [habsent]) (hI _ hmade) ?_
  refine .bind ((write_all_ensures (Nat.le_refl _) _).mono (fun u ⟨_, _, hgrown⟩ => hI u (hmade.grown hgrown)) fun _ _ hu => hu)
    (fun _ u hgrown => ?_) fun e u ⟨⟨_, _, hgrown⟩, _⟩ => herror e u (hmade.grown hgrown)
  have hwritten : u.contents.get t.next = content := by
    rw [hgrown.contents, if_pos rfl, Disk.get_contents_allocate, if_pos rfl, List.nil_append]
  have hmode := (hmade.grown hgrown).set_mode mode
  refine .call_ok_bind rfl (hI _ hmode) (.call_ok_bind rfl (hI _ (hmode.fsync _)) ?_)
  refine hrest _ (hmode.fsync _) ?_ ?_
  · rw [Disk.get_contents_fsync]
    exact hwritten
  · exact (Cache.get_flush _ _ _).trans (Cache.get_set_self _ _ _)

theorem reads_source_bytes (parent : Inode) (leaf path : String) (expected : FileState) :
    (source_bytes parent leaf path expected).Reads :=
  .bind (.read _) fun _ => .bind (.read _) fun _ => .bind (.read _) fun _ => .pure _

/-- What is read from the source is what the snapshot names. -/
theorem source_bytes_completes {parent : Inode} {leaf path : String} {expected : FileState} {content : List UInt8} {t' : Disk}
    (h : (source_bytes parent leaf path expected).Completes t content t') :
    "sha256:" ++ Sha256.hexdigest content = expected.content_hash ∧ (content.length : Int) = expected.byte_len := by
  obtain ⟨fd, _, h⟩ := Prog.Reads.completes_bind (.read _) h
  obtain ⟨found, _, h⟩ := Prog.Reads.completes_bind (.read _) h
  obtain ⟨_, hchecked, h⟩ := Prog.Reads.completes_bind (.read _) h
  obtain ⟨heq, _⟩ := Prog.completes_pure_iff.mp h
  subst heq
  have hmatches := require_eq_ok_iff.mp (Prog.completes_read_iff.mp hchecked).1
  exact of_decide_eq_true hmatches

omit [UnicodeData] [Sha256] in
/-- A name that is created in an open directory of the tree has its place in it. -/
theorem created_filled {kind : Kind} {parent : Inode} {front : List String} {leaf : String} {u : Disk} (ht : t.Tree root)
    (hfront : t.directory_at root front = some parent) (habsent : t.lookup parent leaf = none)
    (hspelled : leaf ≠ "" ∧ '/' ∉ leaf.toList) (hhead : (front ++ [leaf]).headD leaf ∉ skipped)
    (h : Disk.Created kind parent leaf t u) : t.Filled root skipped u ∧ u.Tree root :=
  ⟨.created h hfront hhead habsent, h.tree ht (ht.directory_lt hfront) habsent hspelled⟩

/-- What is created has the state that the snapshot gives it. -/
theorem create_entry_ensures {source_root parent : Inode} {front : List String} {leaf path : String} {state : PathState}
    (copy : CopyState) (ht : t.Tree root) (hcached : Cached t root copy.dest_dirs)
    (hfront : t.directory_at root front = some parent) (habsent : t.lookup parent leaf = none)
    (hspelled : leaf ≠ "" ∧ '/' ∉ leaf.toList) (hhead : (front ++ [leaf]).headD leaf ∉ skipped)
    (hstate : Realized state) :
    (create_entry source_root copy parent front.reverse leaf path state).Ensures t
      (fun u => t.Filled root skipped u ∧ u.Tree root)
      (Prog.ends (fun copy' u => (t.Filled root skipped u ∧ u.Tree root) ∧ Cached u root copy'.dest_dirs ∧
          copy'.missing = copy.missing ∧ state_at u root (front ++ [leaf]) = some state)
        fun u => t.Filled root skipped u ∧ u.Tree root) := by
  have hplaced : ∀ {kind : Kind} {u : Disk}, Disk.Created kind parent leaf t u → t.Filled root skipped u ∧ u.Tree root :=
    fun h => created_filled ht hfront habsent hspelled hhead h
  have hstands : ∀ {kind : Kind} {u : Disk}, Disk.Created kind parent leaf t u →
      state_at u root (front ++ [leaf]) = some (entry_state u ⟨kind, t.next⟩) := by
    intro kind u h
    rw [state_at_concat, (hplaced h).1.directory_at hfront, Option.bind_some, h.new, Option.map_some]
  cases state with
  | AbsentState => exact hstate.elim
  | DirectoryState state =>
    have hmade : Disk.Created .directory parent leaf t (t.allocate .directory parent leaf state.mode.toNat) :=
      .allocate _ _ _ _ _
    refine .call_ok_bind (a := ()) (by rw [habsent]) (hplaced hmade) ?_
    refine .read_bind (fun fd hfd => ?_) fun e _ => hplaced hmade
    rw [hmade.new] at hfd
    cases hfd
    have hset := hmade.set_mode state.mode.toNat
    refine .call_ok_bind rfl (hplaced hset) (.pure ⟨hplaced hset, ?_, rfl, ?_⟩)
    · refine List.forall_mem_cons.mpr ⟨?_, hcached.filled (hplaced hset).1⟩
      rw [List.reverse_cons, List.reverse_reverse, Disk.directory_at_concat, (hplaced hset).1.directory_at hfront]
      exact Disk.child_eq_some_iff.mpr hset.new
    · rw [hstands hset, entry_state, Cache.get_set_self, Int.toNat_of_nonneg hstate]
  | SymlinkState state =>
    have hmade : Disk.Created (.symlink state.target) parent leaf t { t with
        entries := t.entries.set (parent, leaf) (some ⟨.symlink state.target, t.next⟩)
        modes := t.modes.set t.next 0o777
        next := t.next + 1 } :=
      ⟨rfl, fun _ _ => Cache.get_set _ _ _ _, fun _ _ => rfl, fun inode hlt => Cache.get_set_of_ne _ (Nat.ne_of_gt hlt) _⟩
    refine .call_ok_bind (a := ()) (by rw [habsent]) (hplaced hmade) (.pure ⟨hplaced hmade, ?_, rfl, ?_⟩)
    · exact hcached.filled (hplaced hmade).1
    · have hfixed : state.mode = 0o777 := hstate
      rw [hstands hmade, entry_state, ← hfixed]
  | FileState state =>
    refine (reads_directory_fd _ _ _).ensures_bind (fun ⟨source_fd, source_dirs⟩ _ => ?_) fun e => ⟨.refl _ _ _, ht⟩
    refine (reads_source_bytes _ _ _ _).ensures_bind (fun content hcontent => ?_) fun e => ⟨.refl _ _ _, ht⟩
    obtain ⟨hhash, hlength⟩ := source_bytes_completes hcontent
    refine create_file_ensures habsent (fun u hu => hplaced hu) (fun u hu hwritten hmode => .pure ⟨hplaced hu, ?_, rfl, ?_⟩)
      fun e u hu => hplaced hu
    · exact hcached.filled (hplaced hu).1
    · rw [hstands hu, entry_state, file_state, hwritten, hmode, hhash, hlength, Int.toNat_of_nonneg hstate]

omit [UnicodeData] [Sha256] in
theorem miss_missing (copy : CopyState) (path : String) (state : PathState) :
    (copy.miss path state).missing = copy.missing ++ [path] ∧ (copy.miss path state).dest_dirs = copy.dest_dirs := by
  cases state <;> exact ⟨rfl, rfl⟩

/-- One entry of the snapshot: it stands when it is not missed. -/
theorem copy_entry_ensures {source_root : Option Inode} {copy : CopyState} {item : String × PathState} (ht : t.Tree root)
    (hcached : Cached t root copy.dest_dirs) (hspelled : Spelled (components item.1))
    (hpassed : ∀ first ∈ (components item.1).head?, first ∉ skipped) (hrealized : Realized item.2) :
    (copy_entry source_root root copy item).Ensures t (fun u => t.Filled root skipped u ∧ u.Tree root)
      (Prog.ends (fun copy' u => (t.Filled root skipped u ∧ u.Tree root) ∧ Cached u root copy'.dest_dirs ∧
          (copy'.missing = [] → copy.missing = [] ∧ state_at u root (components item.1) = some item.2))
        fun u => t.Filled root skipped u ∧ u.Tree root) := by
  obtain ⟨path, state⟩ := item
  have hstart : t.Filled root skipped t ∧ t.Tree root := ⟨.refl _ _ _, ht⟩
  have hmissed : ∀ dest_dirs, Cached t root dest_dirs →
      (t.Filled root skipped t ∧ t.Tree root) ∧ Cached t root (({ copy with dest_dirs }).miss path state).dest_dirs ∧
        ((({ copy with dest_dirs }).miss path state).missing = [] →
          copy.missing = [] ∧ state_at t root (components path) = some state) := by
    intro dest_dirs hdirs
    obtain ⟨hmissing, hkept⟩ := miss_missing { copy with dest_dirs } path state
    rw [hmissing, hkept]
    exact ⟨hstart, hdirs, fun hnil => absurd hnil (List.append_ne_nil_of_right_ne_nil _ (List.cons_ne_nil _ _))⟩
  have hsplit := components_eq_concat path
  simp only [copy_entry]
  split
  · exact .pure (hmissed copy.dest_dirs hcached)
  · refine (reads_directory_fd _ _ _).ensures_bind (fun ⟨parent, dest_dirs⟩ hparent => ?_) fun e => hstart
    obtain ⟨hfront, hdirs⟩ := directory_fd_completes hcached hparent
    rw [List.reverse_reverse] at hfront
    refine .read_bind (fun info hinfo => ?_) fun e _ => hstart
    cases hinfo
    cases hentry : t.lookup parent ((components path).getLast?.getD "") with
    | some entry =>
      refine (reads_verify_existing _ _ _ _ _ _).ensures_bind (fun _ hverified => ?_) fun e => hstart
      refine .pure ⟨hstart, hdirs, fun hnil => ⟨hnil, ?_⟩⟩
      rw [hsplit, state_at_concat, hfront, Option.bind_some, hentry, Option.map_some,
        verify_existing_completes hentry hrealized hverified]
    | none =>
      cases source_root with
      | none => exact .pure (hmissed dest_dirs hdirs)
      | some source_root =>
        have hleaf : (components path).getLast?.getD "" ∈ components path := by
          rw [hsplit]
          simp
        have hhead : ((components path).dropLast ++ [(components path).getLast?.getD ""]).headD
            ((components path).getLast?.getD "") ∉ skipped := by
          rw [← hsplit]
          obtain ⟨first, rest, hfirst⟩ := List.exists_cons_of_ne_nil (components_ne_nil path)
          rw [hfirst]
          exact hpassed first (by rw [hfirst]; rfl)
        refine (create_entry_ensures { copy with dest_dirs } ht hdirs hfront hentry (hspelled _ hleaf) hhead
          hrealized).mono (fun _ hu => hu) ?_
        rintro (e | copy') u hu
        · exact hu
        · obtain ⟨hu, hdirs', hmissing, hstands⟩ := hu
          rw [← hsplit] at hstands
          exact ⟨hu, hdirs', fun hnil => ⟨hmissing.symm.trans hnil, hstands⟩⟩

omit [UnicodeData] [Sha256] in
/-- The flushes that end a copy change nothing that can be read. -/
theorem flush_changed_ensures (changed : List Inode) {P : Disk → Prop} (hfsync : ∀ u fd, P u → P (u.fsync fd)) (h : P t) :
    (changed.forM flush_directory).Ensures t P fun r u => r = .ok () ∧ P u := by
  have hloop : (changed.forM flush_directory).Ensures t P (Prog.ends (fun _ u => P u) fun _ => False) :=
    .forM (J := fun _ u => P u) (fun fd rest u hu => .call_ok rfl (hfsync _ _ hu) (hfsync _ _ hu)) h
  refine hloop.mono (fun _ hu => hu) ?_
  rintro (e | u) s hs
  · exact hs.elim
  · exact ⟨rfl, hs⟩

/-- A copy keeps all that is in the tree; where nothing is missing, every entry of the snapshot stands. -/
theorem copy_tree_ensures (source_root : Option Inode) {entries : List (String × PathState)} (ht : t.Tree root)
    (hlisted : Listing skipped entries) :
    (copy_tree source_root root entries).Ensures t (fun u => t.Filled root skipped u ∧ u.Tree root)
      (Prog.ends (fun missing u => (t.Filled root skipped u ∧ u.Tree root) ∧
          (missing = [] → ∀ item ∈ entries, state_at u root (components item.1) = some item.2))
        fun u => t.Filled root skipped u ∧ u.Tree root) := by
  have hloop : (entries.foldlM (copy_entry source_root root) ⟨[], [], [], [], []⟩).Ensures t
      (fun u => t.Filled root skipped u ∧ u.Tree root) (Prog.ends (fun copy u => (t.Filled root skipped u ∧ u.Tree root) ∧
        Cached u root copy.dest_dirs ∧ [] ⊆ entries ∧
        (copy.missing = [] → ∀ item ∈ entries, item ∈ [] ∨ state_at u root (components item.1) = some item.2))
      fun u => t.Filled root skipped u ∧ u.Tree root) := by
    refine .foldlM_state (J := fun rest (copy : CopyState) u => (t.Filled root skipped u ∧ u.Tree root) ∧ Cached u root copy.dest_dirs ∧
      rest ⊆ entries ∧
      (copy.missing = [] → ∀ item ∈ entries, item ∈ rest ∨ state_at u root (components item.1) = some item.2))
      (fun item rest copy u hu => ?_) ⟨⟨.refl _ _ _, ht⟩, fun item hitem => absurd hitem List.not_mem_nil,
        fun item hitem => hitem, fun _ item hitem => .inl hitem⟩
    obtain ⟨⟨hfilled, htree⟩, hcached, hsub, hdone⟩ := hu
    have hitem := hsub List.mem_cons_self
    have hmore : ∀ u', u.Filled root skipped u' ∧ u'.Tree root → t.Filled root skipped u' ∧ u'.Tree root :=
      fun u' hu' => ⟨hfilled.trans hu'.1, hu'.2⟩
    refine (copy_entry_ensures htree hcached (hlisted.spelled item hitem) (hlisted.passed item hitem)
      (hlisted.realized item hitem)).mono hmore ?_
    rintro (e | copy') u' hu'
    · exact hmore u' hu'
    · obtain ⟨hu', hcached', hstands⟩ := hu'
      refine ⟨hmore u' hu', hcached', fun other hother => hsub (List.mem_cons_of_mem _ hother), fun hnil other hother => ?_⟩
      obtain ⟨hmissing, hstate⟩ := hstands hnil
      rcases hdone hmissing other hother with hrest | hold
      · rcases List.mem_cons.mp hrest with rfl | hrest
        · exact .inr hstate
        · exact .inl hrest
      · exact .inr (state_at_filled hu'.1 htree hold)
  refine hloop.bind (fun copy u hu => ?_) fun e u hu => hu
  obtain ⟨hu, _, _, hdone⟩ := hu
  have hflush := flush_changed_ensures copy.changed
    (P := fun u' => (t.Filled root skipped u' ∧ u'.Tree root) ∧ u.Filled root skipped u')
    (fun u' fd hu' => ⟨⟨hu'.1.1.fsync fd, hu'.1.2.fsync fd⟩, hu'.2.fsync fd⟩) ⟨hu, .refl _ _ _⟩
  refine (hflush.mono (fun _ hu' => hu'.1) fun _ _ hu' => hu').bind ?_ fun e u' hu' => hu'.2.1
  rintro _ u' ⟨_, hu', hfilled⟩
  refine .pure ⟨hu', fun hnil item hitem => state_at_filled hfilled hu.2 ?_⟩
  exact (hdone hnil item hitem).resolve_left List.not_mem_nil

/-- An entry that is there, or that there is no source for, is only looked at. -/
theorem copy_entry_settled {source_root : Option Inode} {copy : CopyState} {item : String × PathState}
    (hcached : Cached t root copy.dest_dirs)
    (hthere : source_root.isSome → (t.entry_at root (components item.1)).isSome) :
    (copy_entry source_root root copy item).Ensures t (fun _ => False)
      (Prog.ends (fun copy' u => u = t ∧ Cached t root copy'.dest_dirs ∧ copy'.changed = copy.changed) fun u => u = t) := by
  obtain ⟨path, state⟩ := item
  have hmissed : ∀ dest_dirs, Cached t root dest_dirs →
      t = t ∧ Cached t root (({ copy with dest_dirs }).miss path state).dest_dirs ∧
        (({ copy with dest_dirs }).miss path state).changed = copy.changed := by
    intro dest_dirs hdirs
    cases state <;> exact ⟨rfl, hdirs, rfl⟩
  simp only [copy_entry]
  split
  · exact .pure (hmissed copy.dest_dirs hcached)
  · refine (reads_directory_fd _ _ _).ensures_bind (fun ⟨parent, dest_dirs⟩ hparent => ?_) fun e => rfl
    obtain ⟨hfront, hdirs⟩ := directory_fd_completes hcached hparent
    rw [List.reverse_reverse] at hfront
    refine .read_bind (fun info hinfo => ?_) fun e _ => rfl
    cases hinfo
    cases hentry : t.lookup parent ((components path).getLast?.getD "") with
    | some entry => exact (reads_verify_existing _ _ _ _ _ _).ensures_bind (fun _ _ => .pure ⟨rfl, hdirs, rfl⟩) fun e => rfl
    | none =>
      cases source_root with
      | none => exact .pure (hmissed dest_dirs hdirs)
      | some source_root =>
        have hsome := hthere rfl
        rw [components_eq_concat path, Disk.entry_at_concat, hfront, Option.bind_some, hentry] at hsome
        cases hsome

/-- A copy of what is all there, and one without a source, change nothing. -/
theorem copy_tree_settled {source_root : Option Inode} {entries : List (String × PathState)}
    (hthere : source_root.isSome → ∀ item ∈ entries, (t.entry_at root (components item.1)).isSome) :
    (copy_tree source_root root entries).Ensures t (fun _ => False) fun _ u => u = t := by
  have hloop : (entries.foldlM (copy_entry source_root root) ⟨[], [], [], [], []⟩).Ensures t (fun _ => False)
      (Prog.ends (fun copy u => u = t ∧ Cached t root copy.dest_dirs ∧ copy.changed = [] ∧ [] ⊆ entries) fun u => u = t) := by
    refine .foldlM_state (J := fun rest (copy : CopyState) u => u = t ∧ Cached t root copy.dest_dirs ∧ copy.changed = [] ∧
      rest ⊆ entries) (fun item rest copy u hu => ?_) ⟨rfl, fun item hitem => absurd hitem List.not_mem_nil, rfl,
        fun item hitem => hitem⟩
    obtain ⟨rfl, hcached, hchanged, hsub⟩ := hu
    refine (copy_entry_settled hcached fun hsome => hthere hsome item (hsub List.mem_cons_self)).mono (fun _ hu => hu) ?_
    rintro (e | copy') u' hu'
    · exact hu'
    · obtain ⟨rfl, hcached', hsame⟩ := hu'
      exact ⟨rfl, hcached', hsame.trans hchanged, fun other hother => hsub (List.mem_cons_of_mem _ hother)⟩
  refine hloop.bind (fun copy u hu => ?_) fun e u hu => hu
  obtain ⟨rfl, _, hchanged, _⟩ := hu
  rw [hchanged]
  exact .pure rfl

end

end atoms.coordinator
