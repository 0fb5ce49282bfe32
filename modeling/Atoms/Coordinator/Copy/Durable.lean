import Atoms.Coordinator.Copy.Phases
import Atoms.Fs.Stable

open atoms.errors atoms.fingerprint atoms.identifiers atoms.paths atoms.spec atoms.fs atoms.store atoms.chain checked crash
  writeback routes

namespace atoms.coordinator

/-! What an attempt at a copy leaves pending: nothing, where nothing was pending before it. -/

section

variable {t u : Disk} {root parent fd : Inode} {leaf : String} {slot : Inode × String} {free : Set (Inode × String)}
  {dirty : Set Inode} {front : List String} {α : Type}

theorem write_all_stable {fuel : Nat} {data : List UInt8} (h : (write_all fd fuel data).Completes t () u)
    (ht : t.Stable root slot free dirty) (hfd : fd ∈ dirty) (hlt : fd < t.next) :
    u.Stable root slot free dirty ∧ u.next = t.next ∧ u.entries = t.entries := by
  induction fuel generalizing data t with
  | zero =>
    cases data with
    | nil =>
      obtain ⟨_, rfl⟩ := Prog.completes_pure_iff.mp h
      exact ⟨ht, rfl, rfl⟩
    | cons byte rest =>
      obtain ⟨_, h⟩ := h
      cases h
  | succ fuel ih =>
    cases data with
    | nil =>
      obtain ⟨_, rfl⟩ := Prog.completes_pure_iff.mp h
      exact ⟨ht, rfl, rfl⟩
    | cons byte rest =>
      obtain ⟨written, middle, hwrite, h⟩ := Prog.completes_bind_iff.mp h
      obtain ⟨_, middle', hguard, h⟩ := Prog.completes_bind_iff.mp h
      obtain ⟨_, rfl⟩ := Prog.completes_guard hguard
      cases Prog.completes_call_iff.mp hwrite
      obtain ⟨hstable, hnext, hentries⟩ := ih h (ht.written hfd hlt _ _) hlt
      exact ⟨hstable, hnext, hentries⟩

/-- A file is written and flushed; what is left pending is the directory that holds it. -/
theorem create_file_stable {mode : Nat} {content : List UInt8} {rest : Inode → Call α} {a : α}
    (h : (do
      let fd ← create_exclusive parent leaf mode
      write_all fd content.length content
      set_mode fd mode
      flush_file fd
      rest fd : Call α).Completes t a u)
    (ht : t.Stable root slot free dirty) (htree : t.Tree root)
    (hopen : t.directory_at root front = some parent) :
    ∃ v, v.Stable root slot free (dirty ∪ {parent}) ∧ t.next < v.next ∧ (rest t.next).Completes v a u := by
  obtain ⟨made, middle, hcreate, h⟩ := Prog.completes_bind_iff.mp h
  have hcall := Prog.completes_call_iff.mp hcreate
  split at hcall
  · cases hcall
  · cases hcall
    have hmade := ht.allocate htree hopen .file leaf mode
    obtain ⟨_, written, hwrite, h⟩ := Prog.completes_bind_iff.mp h
    have hin : t.next ∈ dirty ∪ {parent, t.next} := .inr (.inr rfl)
    obtain ⟨hwritten, hnext, _⟩ := write_all_stable hwrite hmade hin (Nat.lt_succ_self _)
    have hlt : t.next < written.next := hnext ▸ Nat.lt_succ_self _
    obtain ⟨_, _, hmode, h⟩ := Prog.completes_bind_iff.mp h
    cases Prog.completes_call_iff.mp hmode
    obtain ⟨_, _, hflush, h⟩ := Prog.completes_bind_iff.mp h
    cases Prog.completes_call_iff.mp hflush
    refine ⟨_, ((hwritten.set_mode hin hlt mode).fsync t.next).mono ?_, hlt, h⟩
    rintro inode ⟨hmem | rfl | rfl, hne⟩
    · exact .inl hmem
    · exact .inr rfl
    · exact absurd rfl hne

/-- The flushes that end a copy. -/
theorem flush_changed_stable {changed : List Inode} (h : (changed.forM flush_directory).Completes t () u)
    (ht : t.Stable root slot free (dirty ∪ {inode | inode ∈ changed})) : u.Stable root slot free dirty := by
  induction changed generalizing t with
  | nil =>
    obtain ⟨_, rfl⟩ := Prog.completes_pure_iff.mp h
    exact ht.mono fun inode hmem => hmem.resolve_right List.not_mem_nil
  | cons fd rest ih =>
    obtain ⟨_, middle, hflush, h⟩ := Prog.completes_bind_iff.mp h
    cases Prog.completes_call_iff.mp hflush
    refine ih h ((ht.fsync fd).mono ?_)
    rintro inode ⟨hmem | hmem, hne⟩
    · exact .inl hmem
    · exact .inr ((List.mem_cons.mp hmem).resolve_left hne)

end

variable [UnicodeData] [Sha256] {t u : Disk} {root parent fd : Inode} {slot : Inode × String} {free : Set (Inode × String)}
  {dirty : Set Inode} {front : List String}

omit [UnicodeData] [Sha256] in
theorem mem_change {copy : CopyState} {inode : Inode} :
    inode ∈ (copy.change fd).changed ↔ inode ∈ copy.changed ∨ inode = fd := by
  unfold CopyState.change
  by_cases hmem : fd ∈ copy.changed
  · simp only [if_pos hmem]
    exact ⟨.inl, fun h => h.elim id fun heq => heq ▸ hmem⟩
  · simp only [if_neg hmem, List.mem_append, List.mem_singleton]

/-- What is created is flushed, or its directory is to be. -/
theorem create_entry_stable {source_root : Inode} {copy copy' : CopyState} {parents : List String} {leaf path : String}
    {state : PathState} (h : (create_entry source_root copy parent parents leaf path state).Completes t copy' u)
    (ht : t.Stable root slot free {inode | inode ∈ copy.changed}) (htree : t.Tree root)
    (hfront : t.directory_at root front = some parent) : u.Stable root slot free {inode | inode ∈ copy'.changed} := by
  cases state with
  | AbsentState =>
    obtain ⟨_, h⟩ := h
    cases h
  | DirectoryState state =>
    obtain ⟨_, middle, hmake, h⟩ := Prog.completes_bind_iff.mp h
    have hcall := Prog.completes_call_iff.mp hmake
    split at hcall
    · cases hcall
    · cases hcall
      obtain ⟨opened, hopen, h⟩ := Prog.Reads.completes_bind (.read _) h
      have hchild := open_child_directory_completes hopen
      rw [Disk.child_eq_some_iff, (Disk.Created.allocate .directory parent leaf state.mode.toNat t).new] at hchild
      cases hchild
      obtain ⟨_, _, hmode, h⟩ := Prog.completes_bind_iff.mp h
      cases Prog.completes_call_iff.mp hmode
      obtain ⟨rfl, rfl⟩ := Prog.completes_pure_iff.mp h
      have hmade := ht.allocate htree hfront .directory leaf state.mode.toNat
      refine (hmade.set_mode (.inr (.inr rfl)) (Nat.lt_succ_self _) state.mode.toNat).mono ?_
      rintro inode (hmem | rfl | rfl)
      · exact mem_change.mpr (.inl (mem_change.mpr (.inl hmem)))
      · exact mem_change.mpr (.inr rfl)
      · exact mem_change.mpr (.inl (mem_change.mpr (.inr rfl)))
  | SymlinkState state =>
    obtain ⟨_, middle, hmake, h⟩ := Prog.completes_bind_iff.mp h
    have hcall := Prog.completes_call_iff.mp hmake
    split at hcall
    · cases hcall
    · cases hcall
      obtain ⟨rfl, rfl⟩ := Prog.completes_pure_iff.mp h
      have hmade : Disk.Created (.symlink state.target) parent leaf t { t with
          entries := t.entries.set (parent, leaf) (some ⟨.symlink state.target, t.next⟩)
          modes := t.modes.set t.next 0o777
          next := t.next + 1 } :=
        ⟨rfl, fun _ _ => Cache.get_set _ _ _ _, fun _ _ => rfl, fun inode hlt => Cache.get_set_of_ne _ (Nat.ne_of_gt hlt) _⟩
      refine ht.created htree hfront hmade (fun inode hmem => mem_change.mpr (.inl hmem)) (mem_change.mpr (.inr rfl))
        (.inr ⟨_, rfl⟩) (fun write hwrite => ?_) (fun write hwrite => .inl hwrite) fun write hwrite => ?_
      · refine (Cache.mem_pending_set.mp hwrite).imp_right fun heq => ?_
        rw [heq]
      · refine (Cache.mem_pending_set.mp hwrite).imp_right fun heq => ?_
        rw [heq]
  | FileState state =>
    obtain ⟨⟨source_fd, source_dirs⟩, _, h⟩ := (reads_directory_fd _ _ _).completes_bind h
    obtain ⟨content, _, h⟩ := (reads_source_bytes _ _ _ _).completes_bind h
    obtain ⟨v, hv, _, h⟩ := create_file_stable h ht htree hfront
    obtain ⟨rfl, rfl⟩ := Prog.completes_pure_iff.mp h
    refine hv.mono ?_
    rintro inode (hmem | rfl)
    · exact mem_change.mpr (.inl hmem)
    · exact mem_change.mpr (.inr rfl)

omit [UnicodeData] [Sha256] in
theorem miss_changed (copy : CopyState) (path : String) (state : PathState) : (copy.miss path state).changed = copy.changed := by
  cases state <;> rfl

theorem copy_entry_stable {source_root : Option Inode} {copy copy' : CopyState} {item : String × PathState}
    (h : (copy_entry source_root root copy item).Completes t copy' u) (ht : t.Stable root slot free {inode | inode ∈ copy.changed})
    (htree : t.Tree root) (hcached : Cached t root copy.dest_dirs) : u.Stable root slot free {inode | inode ∈ copy'.changed} := by
  obtain ⟨path, state⟩ := item
  simp only [copy_entry] at h
  split at h
  · obtain ⟨rfl, rfl⟩ := Prog.completes_pure_iff.mp h
    rwa [miss_changed]
  · obtain ⟨⟨parent, dest_dirs⟩, hparent, h⟩ := (reads_directory_fd _ _ _).completes_bind h
    obtain ⟨hfront, _⟩ := directory_fd_completes hcached hparent
    obtain ⟨info, hinfo, h⟩ := Prog.Reads.completes_bind (.read _) h
    cases info with
    | some found =>
      obtain ⟨kind, mode⟩ := found
      obtain ⟨_, _, h⟩ := (reads_verify_existing _ _ _ _ _ _).completes_bind h
      obtain ⟨rfl, rfl⟩ := Prog.completes_pure_iff.mp h
      exact ht
    | none =>
      cases source_root with
      | none =>
        obtain ⟨rfl, rfl⟩ := Prog.completes_pure_iff.mp h
        rwa [miss_changed]
      | some source_root => exact create_entry_stable h ht htree hfront

/-- A copy that ends leaves nothing pending that was not pending before it. -/
theorem copy_tree_stable {skipped : List String} {source_root : Option Inode} {entries : List (String × PathState)}
    {missing : List String} (h : (copy_tree source_root root entries).Completes t missing u) (ht : t.Stable root slot free ∅)
    (htree : t.Tree root) (hlisted : Listing skipped entries) : u.Stable root slot free ∅ := by
  obtain ⟨copy, middle, hloop, h⟩ := Prog.completes_bind_iff.mp h
  obtain ⟨_, middle', hflush, h⟩ := Prog.completes_bind_iff.mp h
  obtain ⟨_, rfl⟩ := Prog.completes_pure_iff.mp h
  refine flush_changed_stable hflush ?_
  rw [Set.empty_union]
  have hnone : Cached t root [] := fun item hitem => absurd hitem List.not_mem_nil
  have hensures : (entries.foldlM (copy_entry source_root root) ⟨[], [], [], [], []⟩).Ensures t (fun _ => True)
      (Prog.ends (fun copy u => (u.Tree root ∧ Cached u root copy.dest_dirs) ∧ u.Stable root slot free {inode | inode ∈ copy.changed} ∧
        [] ⊆ entries) fun _ => True) := by
    refine .foldlM_state (J := fun rest (copy : CopyState) u => (u.Tree root ∧ Cached u root copy.dest_dirs) ∧
      u.Stable root slot free {inode | inode ∈ copy.changed} ∧ rest ⊆ entries) (a := ⟨[], [], [], [], []⟩)
      (fun item rest copy u hu => ?_) ⟨⟨htree, hnone⟩, ht.mono (Set.empty_subset _), fun item hitem => hitem⟩
    obtain ⟨⟨hu, hcached⟩, hstable, hsub⟩ := hu
    have hitem := hsub List.mem_cons_self
    refine .of_completes fun copy' u' h' => ?_
    obtain ⟨hplaced, hcached', _⟩ := (copy_entry_ensures hu hcached (hlisted.spelled item hitem) (hlisted.passed item hitem)
      (hlisted.realized item hitem)).completes h'
    exact ⟨⟨hplaced.2, hcached'⟩, copy_entry_stable h' hstable hu hcached,
      fun other hother => hsub (List.mem_cons_of_mem _ hother)⟩
  exact (hensures.completes hloop).2.1

/-! What a fork adds. -/

omit [Sha256] in
/-- An override that is applied is flushed. -/
theorem apply_override_stable {override : DestinationOverride} (h : (apply_override root override).Completes t () u)
    (ht : t.Stable root slot free dirty) (htree : t.Tree root) : u.Stable root slot free dirty := by
  have hsplit := components_eq_concat override.path
  rw [apply_override] at h
  obtain ⟨parent, hparent, h⟩ := (reads_open_directories _ _).completes_bind h
  have hfront := open_directories_completes hparent
  generalize (components override.path).dropLast = front at hfront hsplit
  generalize (components override.path).getLast?.getD "" = leaf at h hsplit
  have hrest : ∀ v : Disk, v.Stable root slot free (dirty ∪ {parent}) → v.Tree root → v.directory_at root front = some parent → (do
      let fd ← create_exclusive parent leaf override.mode.toNat
      write_all fd override.payload.length override.payload
      set_mode fd override.mode.toNat
      flush_file fd
      flush_directory parent : Call Unit).Completes v () u → u.Stable root slot free dirty := by
    intro v hv hvtree hvfront h
    obtain ⟨w, hw, _, h⟩ := create_file_stable h hv hvtree hvfront
    cases Prog.completes_call_iff.mp h
    refine (hw.fsync parent).mono ?_
    rintro inode ⟨(hmem | hparent) | hparent, hne⟩
    · exact hmem
    · exact absurd hparent hne
    · exact absurd hparent hne
  obtain ⟨info, hinfo, h⟩ := Prog.Reads.completes_bind (.read _) h
  cases (Prog.completes_read_iff.mp hinfo).1
  cases hentry : t.lookup parent leaf with
  | none =>
    rw [hentry] at h
    exact hrest t (ht.mono Set.subset_union_left) htree hfront h
  | some entry =>
    obtain ⟨kind, inode⟩ := entry
    rw [hentry, Option.map_some] at h
    by_cases hkind : kind = .file
    · subst hkind
      simp only [ne_eq, not_true_eq_false, if_false] at h
      obtain ⟨fd, _, h⟩ := Prog.Reads.completes_bind (.read _) h
      obtain ⟨existing, _, h⟩ := Prog.Reads.completes_bind (.read _) h
      split at h
      · obtain ⟨_, rfl⟩ := Prog.completes_pure_iff.mp h
        exact ht
      · obtain ⟨_, middle, hremove, h⟩ := Prog.completes_bind_iff.mp h
        have hcall := Prog.completes_call_iff.mp hremove
        rw [hentry] at hcall
        cases hcall
        have hremoved := swapped_removed htree hsplit hfront hentry
        exact hrest _ (ht.remove htree hfront Set.subset_union_left (.inl (.inr rfl))) hremoved.tree
          (hremoved.directory_at hsplit hfront) h
    · simp only [ne_eq, hkind, not_false_eq_true, if_true] at h
      obtain ⟨_, _, ⟨_, hthrow⟩, _⟩ := Prog.completes_bind_iff.mp h
      cases hthrow

omit [Sha256] in
theorem apply_overrides_stable {overrides : List DestinationOverride}
    (h : (overrides.forM (apply_override root)).Completes t () u) (ht : t.Stable root slot free dirty) (htree : t.Tree root)
    (hvalid : ∀ override ∈ overrides, Spelled (components override.path) ∧ 0 ≤ override.mode) :
    u.Stable root slot free dirty := by
  induction overrides generalizing t with
  | nil =>
    obtain ⟨_, rfl⟩ := Prog.completes_pure_iff.mp h
    exact ht
  | cons override rest ih =>
    obtain ⟨_, middle, happly, h⟩ := Prog.completes_bind_iff.mp h
    obtain ⟨⟨hspelled, hmode⟩, hrest⟩ := List.forall_mem_cons.mp hvalid
    exact ih h (apply_override_stable happly ht htree)
      ((apply_override_ensures htree hspelled hmode).completes happly).1.tree hrest

omit [UnicodeData] [Sha256] in
/-- The chain directory is opened; a new one is pending itself. -/
theorem bootstrap_chain_stable (h : (bootstrap_chain root).Completes t fd u) (ht : t.Stable root slot free dirty)
    (htree : t.Tree root) : u.Stable root slot free (dirty ∪ {fd}) := by
  obtain ⟨_, made, hmake, h⟩ := Prog.completes_bind_iff.mp h
  obtain ⟨opened, middle, hopen, h⟩ := Prog.completes_bind_iff.mp h
  obtain ⟨_, _, hflush, h⟩ := Prog.completes_bind_iff.mp h
  cases Prog.completes_call_iff.mp hflush
  obtain ⟨rfl, rfl⟩ := Prog.completes_pure_iff.mp h
  have hopened : made = middle ∧ made.child root CHAIN_LEAF = some opened := by
    rw [Prog.completes_rethrow_iff fun caught v b v' h => ?_] at hopen
    · exact ⟨(Prog.completes_read_iff.mp hopen).2, open_child_directory_completes hopen⟩
    · split at h
      · split at h <;>
        · obtain ⟨_, h⟩ := h
          cases h
      · obtain ⟨_, h⟩ := h
        cases h
  obtain ⟨rfl, hchild⟩ := hopened
  have hflushed : ∀ v : Disk, v.Stable root slot free (dirty ∪ {root, opened}) →
      (v.fsync root).Stable root slot free (dirty ∪ {opened}) := by
    refine fun v hv => (hv.fsync root).mono ?_
    rintro inode ⟨hmem | hroot | rfl, hne⟩
    · exact .inl hmem
    · exact absurd hroot hne
    · exact .inr rfl
  refine hflushed made ?_
  rcases Prog.completes_try_iff.mp hmake with hmake | ⟨e, v, ⟨_, hraises⟩, hhandler⟩
  · have hcall := Prog.completes_call_iff.mp hmake
    split at hcall
    · cases hcall
    · cases hcall
      rw [Disk.child_eq_some_iff, (Disk.Created.allocate .directory root CHAIN_LEAF 0o700 t).new] at hchild
      cases hchild
      have hroot : t.directory_at root [] = some root := rfl
      exact ht.allocate htree hroot .directory CHAIN_LEAF 0o700
  · -- a directory that is there stays as it is
    have hsame : v = t := by
      cases hlookup : t.lookup root CHAIN_LEAF with
      | some entry =>
        rw [mkdir_child, Prog.run_call_error (e := .OSError .EEXIST) (by rw [hlookup])] at hraises
        cases hraises
        rfl
      | none =>
        rw [mkdir_child, Prog.run_call_ok (by rw [hlookup])] at hraises
        cases hraises
    subst hsame
    split at hhandler
    · obtain ⟨_, rfl⟩ := Prog.completes_pure_iff.mp hhandler
      exact ht.mono Set.subset_union_left
    · obtain ⟨_, hhandler⟩ := hhandler
      cases hhandler

omit [Sha256] in
theorem reads_read_regular (fd : Inode) (name : String) : (read_regular fd name).Reads := by
  refine .bind (.read _) fun bytes => ?_
  cases bytes with
  | none => exact .throw _
  | some bytes => exact .pure _

omit [UnicodeData] [Sha256] in
/-- The staging leaf is removed, and its directory flushed. -/
theorem unlink_stage_stable (h : (unlink_stage fd).Completes t () u) (ht : t.Stable root slot free (dirty ∪ {fd}))
    (htree : t.Tree root) (hfd : t.directory_at root front = some fd) : u.Stable root slot free dirty := by
  obtain ⟨_, v, hunlink, h⟩ := Prog.completes_bind_iff.mp h
  cases Prog.completes_call_iff.mp h
  suffices hv : v.Stable root slot free (dirty ∪ {fd}) from hv.flushed
  refine Prog.Ensures.completes (I := fun v => v.Stable root slot free (dirty ∪ {fd}))
    (Q := fun _ v => v.Stable root slot free (dirty ∪ {fd})) ?_ hunlink
  refine .tryCatch (Q := fun _ v => v.Stable root slot free (dirty ∪ {fd})) (.call (fun _ v hcall => ?_) fun _ _ => ht)
    (fun _ _ hv => hv) fun caught v hv => ?_
  · split at hcall
    · cases hcall
    · cases hcall
    · cases hcall
      have hremoved : (t.set_entry fd STAGING_LEAF none).Stable root slot free (dirty ∪ {fd}) :=
        ht.remove htree hfd (fun _ hmem => hmem) (.inl (.inr rfl))
      exact ⟨hremoved, hremoved⟩
  · split
    · exact .pure hv
    · exact .throw hv

omit [Sha256] in
/-- The staging leaf gets its name, or it is removed where the name is taken. -/
theorem rename_stable {envelope : List UInt8} {digest : String} {expected : Option String × chain.Entry} {inode : Inode}
    {renamed : Bool}
    (h : (tryCatch (do
      transfer_noclobber fd STAGING_LEAF fd digest
      pure true)
      fun caught => match caught with
        | .OSError .EEXIST => do
          prove_eexist fd envelope digest expected
          pure false
        | _ => throw caught : Call Bool).Completes t renamed u)
    (ht : t.Stable root slot free (dirty ∪ {fd})) (htree : t.Tree root) (hfd : t.directory_at root front = some fd)
    (hstaged : t.lookup fd STAGING_LEAF = some ⟨.file, inode⟩) :
    if renamed then u.Stable root slot free (dirty ∪ {fd}) else u.Stable root slot free dirty := by
  rcases Prog.completes_try_iff.mp h with h | ⟨e, v, ⟨_, hraises⟩, h⟩
  · obtain ⟨_, v, htransfer, h⟩ := Prog.completes_bind_iff.mp h
    obtain ⟨rfl, rfl⟩ := Prog.completes_pure_iff.mp h
    have hcall := Prog.completes_call_iff.mp htransfer
    rw [hstaged] at hcall
    split at hcall
    · cases hcall
    · cases hcall
    · rename_i hsrc _
      cases hsrc
      cases hcall
      exact ht.rename htree hfd (.inr rfl) hstaged
  · split at h
    · obtain ⟨_, w, hprove, h⟩ := Prog.completes_bind_iff.mp h
      obtain ⟨rfl, rfl⟩ := Prog.completes_pure_iff.mp h
      have hsame : v = t := by
        have hensures : (do
            transfer_noclobber fd STAGING_LEAF fd digest
            pure true : Call Bool).Ensures t (fun _ => True) fun r w => ∀ e, r = .error e → w = t := by
          refine .bind (Q := fun r w => ∀ e, r = .error e → w = t) (.call (fun _ w _ => ⟨trivial, fun e heq => by cases heq⟩)
            fun e _ _ _ => rfl) (fun _ w _ => .pure fun e heq => by cases heq) fun e w hw _ _ => hw e rfl
        have hkept := hensures.2
        rw [hraises] at hkept
        exact hkept _ rfl
      subst hsame
      obtain ⟨_, _, hprove⟩ := (reads_read_regular fd digest).completes_bind hprove
      obtain ⟨_, _, hguard, hprove⟩ := Prog.completes_bind_iff.mp hprove
      obtain ⟨_, rfl⟩ := Prog.completes_guard hguard
      obtain ⟨_, _, hprove⟩ := Prog.Reads.completes_bind (.read _) hprove
      obtain ⟨_, _, hguard, hprove⟩ := Prog.completes_bind_iff.mp hprove
      obtain ⟨_, rfl⟩ := Prog.completes_guard hguard
      obtain ⟨_, _, hprove⟩ := (reads_read_regular fd STAGING_LEAF).completes_bind hprove
      obtain ⟨_, _, hguard, hprove⟩ := Prog.completes_bind_iff.mp hprove
      obtain ⟨_, rfl⟩ := Prog.completes_guard hguard
      exact unlink_stage_stable hprove ht htree hfd
    · obtain ⟨_, h⟩ := h
      cases h

/-- An entry that is appended is flushed with its directory. -/
theorem append_entry_stable {entry : chain.Entry} {validated : ValidatedChain} {digest : String} {rows : List Row}
    (h : (append_entry fd validated entry).Completes t digest u) (hdirectory : Directory t fd rows none) (hrows : Valid rows)
    (ht : t.Stable root slot free (dirty ∪ {fd})) (htree : t.Tree root)
    (hfd : t.directory_at root front = some fd) : u.Stable root slot free dirty := by
  obtain ⟨_, _, h⟩ := Prog.Reads.completes_bind (.read _) h
  obtain ⟨_, v, hguard, h⟩ := Prog.completes_bind_iff.mp h
  obtain ⟨_, rfl⟩ := Prog.completes_guard hguard
  obtain ⟨envelope, _, h⟩ := Prog.Reads.completes_bind (.read _) h
  have h := (validate_chain_nil hdirectory hrows).completes_bind h
  obtain ⟨_, v, hguard, h⟩ := Prog.completes_bind_iff.mp h
  obtain ⟨_, rfl⟩ := Prog.completes_guard hguard
  obtain ⟨staging_fd, v, hcreate, h⟩ := Prog.completes_bind_iff.mp h
  rw [Prog.completes_rethrow_iff fun caught v b v' h => ?_] at hcreate
  · have hcall := Prog.completes_call_iff.mp hcreate
    split at hcall
    · cases hcall
    · rename_i habsent
      cases hcall
      have hcreated : Disk.Created .file fd STAGING_LEAF t (t.allocate .file fd STAGING_LEAF 0o600) := .allocate _ _ _ _ _
      have hmade := ht.allocate htree hfd .file STAGING_LEAF 0o600
      have hin : t.next ∈ dirty ∪ {fd} ∪ {fd, t.next} := .inr (.inr rfl)
      obtain ⟨_, w, hwrite, h⟩ := Prog.completes_bind_iff.mp h
      obtain ⟨hwritten, hnext, hentries⟩ := write_all_stable hwrite hmade hin (Nat.lt_succ_self _)
      obtain ⟨_, _, hflush, h⟩ := Prog.completes_bind_iff.mp h
      cases Prog.completes_call_iff.mp hflush
      have hflushed : (w.fsync t.next).Stable root slot free (dirty ∪ {fd}) := by
        refine (hwritten.fsync t.next).mono ?_
        rintro inode ⟨hmem | rfl | rfl, hne⟩
        · exact hmem
        · exact .inr rfl
        · exact absurd rfl hne
      have hlookup : ∀ parent name, (w.fsync t.next).lookup parent name =
          (t.allocate .file fd STAGING_LEAF 0o600).lookup parent name := by
        intro parent name
        rw [Disk.lookup_fsync, Disk.lookup, hentries, ← Disk.lookup]
      have hstaged : (w.fsync t.next).lookup fd STAGING_LEAF = some ⟨.file, t.next⟩ := by
        rw [hlookup]
        exact hcreated.new
      have hflushed_tree := (hcreated.tree htree (htree.directory_lt hfd) habsent (by decide)).congr hlookup hnext
      have hflushed_fd : (w.fsync t.next).directory_at root front = some fd := by
        refine route_mono (fun parent name inode hchild => ?_) hfd
        exact (Disk.child_congr (hlookup parent name)).trans (hcreated.retains habsent parent name inode hchild)
      obtain ⟨renamed, x, hrename, h⟩ := Prog.completes_bind_iff.mp h
      have hrenamed := rename_stable hrename hflushed hflushed_tree hflushed_fd hstaged
      cases renamed with
      | false =>
        obtain ⟨_, rfl⟩ := Prog.completes_pure_iff.mp h
        exact hrenamed
      | true =>
        obtain ⟨_, y, hlast, h⟩ := Prog.completes_bind_iff.mp h
        obtain ⟨_, rfl⟩ := Prog.completes_pure_iff.mp h
        cases Prog.completes_call_iff.mp hlast
        exact Disk.Stable.flushed hrenamed
  · split at h <;>
    · obtain ⟨_, h⟩ := h
      cases h

/-- A construction that ends leaves nothing pending. -/
theorem finish_fork_construction_stable {fork : ForkArguments} {digest : String} {entries : List (String × PathState)}
    (h : (finish_fork_construction fork root).Completes t digest u) (ht : t.Stable root slot free dirty) (htree : t.Tree root)
    (hfork : fork.Accepted) (hchain : Unbegun root t ∨ ∃ digest, Forked root fork entries digest t) :
    u.Stable root slot free dirty := by
  obtain ⟨fd, v, hbootstrap, h⟩ := Prog.completes_bind_iff.mp h
  rcases hchain with hunbegun | ⟨_, hforked⟩
  · have hv := bootstrap_chain_stable hbootstrap ht htree
    obtain ⟨⟨hvtree, _⟩, hfd, staged, hdirectory⟩ := (bootstrap_fork_ensures htree hunbegun).completes hbootstrap
    have h := (validate_chain_nil hdirectory valid_nil).completes_bind h
    obtain ⟨_, hsurvivor, h⟩ := Prog.Reads.completes_bind (.read _) h
    have hnone : staged = none := by
      have hsurvivor := require_eq_ok_iff.mp (Prog.completes_read_iff.mp hsurvivor).1
      simpa using hsurvivor
    subst hnone
    obtain ⟨hnodup, hvalid⟩ := overrides_accepted hfork.overrides
    obtain ⟨_, w, happly, h⟩ := Prog.completes_bind_iff.mp h
    have happlied := ((apply_overrides_ensures hvtree hnodup fun override hoverride => (hvalid override hoverride).1).completes
      happly).1
    have hw := apply_overrides_stable happly hv hvtree fun override hoverride => (hvalid override hoverride).1
    obtain ⟨hfd', hdirectory'⟩ := hfork.chain_applied happlied hfd hdirectory
    obtain ⟨baseline, _, h⟩ := (reads_capture_baseline root fork.surface_paths).completes_bind h
    have hopen : w.directory_at root [CHAIN_LEAF] = some fd := by
      rw [Disk.directory_at_cons, Disk.child_eq_some_iff.mpr hfd']
      rfl
    exact append_entry_stable h hdirectory' valid_nil hw happlied.tree hopen
  · obtain ⟨fd', baseline, envelope, hfd, _, _, rfl, hdirectory⟩ := hforked.chain
    obtain ⟨⟨rfl⟩, rfl⟩ := (bootstrap_opens hfd).completes hbootstrap
    have hvalid : Valid [next_row [] (fork_genesis fork baseline) envelope] := ⟨⟨rfl, trivial⟩, _, rfl⟩
    have h := (validate_chain_nil (hdirectory.fsync root) hvalid).completes_bind h
    obtain ⟨_, _, h⟩ := Prog.Reads.completes_bind (.read _) h
    obtain ⟨_, _, h⟩ := Prog.Reads.completes_bind (.read _) h
    obtain ⟨_, rfl⟩ := Prog.completes_pure_iff.mp h
    exact (ht.fsync root).mono fun inode hmem => hmem.1

/-- A construction that ends leaves nothing pending below the destination. -/
theorem construct_destination_stable {args : CopyArguments} {source : Option CopySource} {entries : List (String × PathState)}
    {digest : Option String} (h : (construct_destination args source root entries).Completes t digest u)
    (ht : t.Stable root slot free ∅) (htree : t.Tree root) (haccepted : ∀ fork ∈ args.fork, fork.Accepted)
    (hlisted : Listing (passed_over args.fork.isSome) entries)
    (hchain : ∀ fork ∈ args.fork, Unbegun root t ∨ ∃ digest, Forked root fork entries digest t) : u.Stable root slot free ∅ := by
  obtain ⟨missing, v, hcopy, h⟩ := Prog.completes_bind_iff.mp h
  have hv := copy_tree_stable hcopy ht htree hlisted
  split at h
  · cases hfork : args.fork with
    | none =>
      rw [hfork] at h
      obtain ⟨_, rfl⟩ := Prog.completes_pure_iff.mp h
      exact hv
    | some fork =>
      rw [hfork] at h
      have hmem : fork ∈ args.fork := by
        rw [hfork]
        rfl
      have hskipped : CHAIN_LEAF ∈ passed_over args.fork.isSome := by
        rw [hfork]
        exact List.mem_cons_of_mem _ List.mem_cons_self
      have hforking := ((copy_tree_forking _ htree hskipped hlisted (hchain fork hmem)).completes hcopy).1
      obtain ⟨_, w, hfinish, h⟩ := Prog.completes_bind_iff.mp h
      obtain ⟨_, rfl⟩ := Prog.completes_pure_iff.mp h
      exact finish_fork_construction_stable hfinish hv hforking.tree (haccepted fork hmem) hforking.chain
  · obtain ⟨_, h⟩ := h
    cases h

/-! What a power cut leaves of the destination. -/

omit [UnicodeData] in
/-- A tree in which nothing is pending is after a power cut what it was. -/
theorem state_at_cut {name : String} {names : List String} (h : t.Stable root slot {(root, name)} ∅) (htree : t.Tree root)
    (hcut : t.Cut u) (hnames : names.head? ≠ some name) : state_at u root names = state_at t root names := by
  unfold state_at
  rw [h.entry_at_cut htree hcut hnames]
  cases hentry : t.entry_at root names with
  | none => rfl
  | some entry =>
    obtain ⟨hcontents, hmodes⟩ := h.objects_cut hcut hentry
    rw [Option.map_some, Option.map_some, Option.some.injEq]
    obtain ⟨kind, inode⟩ := entry
    cases kind with
    | file => exact entry_state_congr (hcontents rfl) (hmodes fun _ hkind => by cases hkind)
    | directory => simp only [entry_state, hmodes fun _ hkind => by cases hkind]
    | symlink target => rfl

end atoms.coordinator
