import Atoms.Chain.Append.Survivors

open atoms.errors atoms.fs checked crash writeback

namespace atoms.fs

/-- Names that were not `touched` lead where they led, and what was there holds what it held. -/
structure Disk.Apart (touched : Inode → String → Prop) (base d : Disk) : Prop where
  next : base.next ≤ d.next
  umask : d.umask = base.umask
  lookup : ∀ parent name, ¬ touched parent name → d.lookup parent name = base.lookup parent name
  contents : ∀ inode < base.next, d.contents.get inode = base.contents.get inode
  modes : ∀ inode < base.next, d.modes.get inode = base.modes.get inode
  /-- A name leads to an object that had a name, or to a new one. -/
  found : ∀ parent name entry, d.lookup parent name = some entry →
    base.next ≤ entry.inode ∨ ∃ parent' name', base.lookup parent' name' = some entry
  progress : base.Progresses → d.Progresses

namespace Disk.Apart

variable {touched more : Inode → String → Prop} {base d d' : Disk} {parent : Inode} {name : String}

theorem refl (touched : Inode → String → Prop) (d : Disk) : d.Apart touched d :=
  ⟨Nat.le_refl _, rfl, fun _ _ _ => rfl, fun _ _ => rfl, fun _ _ => rfl, fun _ _ _ h => .inr ⟨_, _, h⟩, id⟩

theorem unreached (h : base.Apart touched d) {inode : Inode} (hlt : inode < base.next) (hbase : base.Unreached inode) :
    d.Unreached inode := by
  intro parent name entry hentry
  rcases h.found parent name entry hentry with hnew | ⟨parent', name', hold⟩
  · exact Nat.ne_of_gt (hlt.trans_le hnew)
  · exact hbase parent' name' entry hold

theorem mono (h : base.Apart touched d) (hmore : ∀ parent name, touched parent name → more parent name) :
    base.Apart more d :=
  { h with lookup := fun parent name hnot => h.lookup parent name fun htouched => hnot (hmore parent name htouched) }

theorem trans (h : base.Apart touched d) (h' : d.Apart touched d') : base.Apart touched d' where
  next := h.next.trans h'.next
  umask := h'.umask.trans h.umask
  lookup parent name hne := (h'.lookup parent name hne).trans (h.lookup parent name hne)
  contents inode hlt := (h'.contents inode (hlt.trans_le h.next)).trans (h.contents inode hlt)
  modes inode hlt := (h'.modes inode (hlt.trans_le h.next)).trans (h.modes inode hlt)
  found parent name entry hentry := by
    rcases h'.found parent name entry hentry with hnew | ⟨parent', name', hold⟩
    · exact .inl (h.next.trans hnew)
    · exact h.found parent' name' entry hold
  progress hbase := h'.progress (h.progress hbase)

/-- A touched name is removed, or led to an object that may have a name. -/
theorem set_entry (h : base.Apart touched d) (htouched : touched parent name) {entry : Option Entry}
    (hentry : ∀ found ∈ entry, base.next ≤ found.inode ∨ ∃ parent' name', base.lookup parent' name' = some found) :
    base.Apart touched (d.set_entry parent name entry) where
  next := h.next
  umask := h.umask
  lookup parent' name' hnot := by
    rw [lookup_set_entry_of_ne d fun heq => ?_]
    · exact h.lookup parent' name' hnot
    · obtain ⟨rfl, rfl⟩ := Prod.mk.inj heq
      exact hnot htouched
  contents := h.contents
  modes := h.modes
  found parent' name' found hfound := by
    rw [lookup_set_entry] at hfound
    split at hfound
    · exact hentry found hfound
    · exact h.found parent' name' found hfound
  progress := h.progress

theorem fsync (h : base.Apart touched d) (inode : Inode) : base.Apart touched (d.fsync inode) where
  next := h.next
  umask := h.umask
  lookup parent name hnot := (lookup_fsync d inode parent name).trans (h.lookup parent name hnot)
  contents other hlt := (get_contents_fsync d inode other).trans (h.contents other hlt)
  modes other hlt := (Cache.get_flush d.modes _ other).trans (h.modes other hlt)
  found parent name entry hentry := h.found parent name entry (by rwa [lookup_fsync] at hentry)
  progress := h.progress

theorem allocate (h : base.Apart touched d) (htouched : touched parent name) (kind : Kind) (mode : Nat) :
    base.Apart touched (d.allocate kind parent name mode) where
  next := h.next.trans (Nat.le_succ _)
  umask := h.umask
  lookup parent' name' hnot := by
    rw [lookup_allocate, if_neg fun heq => ?_]
    · exact h.lookup parent' name' hnot
    · obtain ⟨rfl, rfl⟩ := Prod.mk.inj heq
      exact hnot htouched
  contents inode hlt := by
    rw [get_contents_allocate, if_neg (Nat.ne_of_gt (hlt.trans_le h.next))]
    exact h.contents inode hlt
  modes inode hlt := (Cache.get_set_of_ne d.modes (Nat.ne_of_gt (hlt.trans_le h.next)) _).trans (h.modes inode hlt)
  found parent' name' entry hentry := by
    rw [lookup_allocate] at hentry
    split at hentry
    · cases hentry
      exact .inl h.next
    · exact h.found parent' name' entry hentry
  progress := h.progress

theorem grown (h : base.Apart touched d) {inode : Inode} {bytes : List UInt8} (hinode : base.next ≤ inode)
    (hgrown : d.Grown inode bytes d') : base.Apart touched d' where
  next := h.next.trans_eq hgrown.next.symm
  umask := hgrown.umask.trans h.umask
  lookup parent name hnot := (hgrown.lookup parent name).trans (h.lookup parent name hnot)
  contents other hlt := by
    rw [hgrown.contents, if_neg (Nat.ne_of_gt (hlt.trans_le hinode))]
    exact h.contents other hlt
  modes other hlt := by
    rw [hgrown.modes]
    exact h.modes other hlt
  found parent name entry hentry := h.found parent name entry (by rwa [hgrown.lookup] at hentry)
  progress hbase := hgrown.progress (h.progress hbase)

end Disk.Apart

end atoms.fs

namespace atoms.chain

open Prog

variable {I : Disk → Prop} {touched : Inode → String → Prop} {base : Disk} {fd : Inode}

/-! What only reads leaves everything as it is. -/

theorem keeps_lift {α : Type} (value : Except Raised α) : Keeps I (lift value) := .read _

theorem keeps_require_chain (condition : Prop) [Decidable condition] (message : String) :
    Keeps I (require_chain condition message) := .ite (.pure _) (.throw _)

theorem keeps_require_call (condition : Prop) [Decidable condition] (message : String) :
    Keeps I (require_call condition message) := .ite (.pure _) (.throw _)

section

variable [UnicodeData]

theorem keeps_read_regular (chain_fd : Inode) (name : String) : Keeps I (read_regular chain_fd name) := by
  refine .bind (.read _) fun bytes => ?_
  cases bytes with
  | none => exact .throw _
  | some data => exact .pure _

variable [Sha256]

theorem keeps_scan_leaf (chain_fd : Inode) (scan : ChainScan) (name : String) :
    Keeps I (scan_leaf chain_fd scan name) := by
  refine .bind (.read _) fun bytes => ?_
  cases bytes with
  | none => exact .pure _
  | some envelope =>
    dsimp only
    refine .ite (.pure _) (.ite (.pure _) ?_)
    cases decode_entry envelope with
    | error e => exact .pure _
    | ok decoded => exact .pure _

theorem keeps_scan_leaves (chain_fd : Inode) (scan : ChainScan) (names : List String) :
    Keeps I (scan_leaves chain_fd scan names) := by
  induction names generalizing scan with
  | nil => exact .pure _
  | cons name rest ih =>
    rw [scan_leaves]
    refine .ite (.pure _) (.bind (keeps_scan_leaf chain_fd scan name) fun next => ?_)
    cases next with
    | error defect => exact .pure _
    | ok scan => exact ih scan

theorem keeps_validate_chain (chain_fd : Inode) (planned : List (List UInt8)) :
    Keeps I (validate_chain chain_fd planned) := by
  refine .bind (keeps_lift _) fun items => .bind ?_ fun scanned => ?_
  · exact .bind (.read _) fun names => keeps_scan_leaves _ _ _
  · cases scanned with
    | error defect => exact .throw _
    | ok scan =>
      exact .bind (keeps_lift _) fun validated => .bind (keeps_require_call _ _) fun _ => .pure _

end

/-! The calls on a chain directory touch its names alone. -/

theorem keeps_unlink_child {name : String} (htouched : touched fd name) :
    Keeps (base.Apart touched) (unlink_child fd name) := by
  refine .call fun d a t hd h => ?_
  split at h
  · cases h
  · cases h
  · cases h
    exact hd.set_entry htouched fun found hfound => absurd hfound (Option.not_mem_none found)

theorem keeps_flush_directory (inode : Inode) : Keeps (base.Apart touched) (flush_directory inode) := by
  refine .call fun d a t hd h => ?_
  cases h
  exact hd.fsync inode

theorem keeps_flush_file (inode : Inode) : Keeps (base.Apart touched) (flush_file inode) := keeps_flush_directory inode

theorem keeps_transfer_noclobber (htouched : ∀ name, touched fd name) (src dst : String) :
    Keeps (base.Apart touched) (transfer_noclobber fd src fd dst) := by
  refine .call fun d a t hd h => ?_
  split at h
  · cases h
  · cases h
  · rename_i entry hsrc _
    cases h
    have hremoved : base.Apart touched (d.set_entry fd src none) :=
      hd.set_entry (htouched src) fun found hfound => absurd hfound (Option.not_mem_none found)
    refine hremoved.set_entry (htouched dst) ?_
    rintro found ⟨rfl⟩
    exact hd.found fd src entry hsrc

theorem keeps_unlink_stage (htouched : ∀ name, touched fd name) : Keeps (base.Apart touched) (unlink_stage fd) := by
  refine .bind (.tryCatch (keeps_unlink_child (htouched _)) fun caught => ?_) fun _ => keeps_flush_directory fd
  split
  · exact .pure _
  · exact .throw _

/-- A rename, with a handler for a name that is taken. -/
theorem keeps_rename (htouched : ∀ name, touched fd name) {handler : Call Bool} (h : Keeps (base.Apart touched) handler) (src dst : String) :
    Keeps (base.Apart touched) (tryCatch (do
      transfer_noclobber fd src fd dst
      pure true) fun caught => match caught with
        | .OSError .EEXIST => handler
        | _ => throw caught) := by
  refine .tryCatch (.bind (keeps_transfer_noclobber htouched src dst) fun _ => .pure _) fun caught => ?_
  split
  · exact h
  · exact .throw _

theorem keeps_write_all {inode : Inode} (hinode : base.next ≤ inode) (data : List UInt8) :
    Keeps (base.Apart touched) (write_all inode data.length data) := fun d hd => by
  refine (write_all_ensures (Nat.le_refl _) d).mono ?_ ?_
  · rintro t ⟨bytes, _, hgrown⟩
    exact hd.grown hinode hgrown
  · rintro (e | u) t ht
    · obtain ⟨⟨bytes, _, hgrown⟩, _⟩ := ht
      exact hd.grown hinode hgrown
    · exact hd.grown hinode ht

/-- A new file is an object that was not there before. -/
theorem create_apart {d : Disk} {name : String} (hd : base.Apart touched d) (htouched : touched fd name) (mode : Nat) :
    (create_exclusive fd name mode).Ensures d (base.Apart touched)
      fun r t => base.Apart touched t ∧ ∀ inode, r = .ok inode → base.next ≤ inode := by
  refine .call (fun inode t h => ?_) fun e h => ⟨hd, fun inode heq => by cases heq⟩
  split at h
  · cases h
  · cases h
    refine ⟨hd.allocate htouched _ _, hd.allocate htouched _ _, ?_⟩
    rintro inode ⟨rfl⟩
    exact hd.next

section

variable [UnicodeData]

theorem keeps_finish (htouched : ∀ name, touched fd name) (envelope : List UInt8) (digest : String) :
    Keeps (base.Apart touched) (finish fd envelope digest) := by
  refine .bind (keeps_read_regular _ _) fun staged => .bind (keeps_require_chain _ _) fun _ => .bind ?_ fun renamed =>
    .ite (keeps_flush_directory fd) (keeps_unlink_stage htouched)
  refine keeps_rename htouched ?_ _ _
  exact .bind (keeps_read_regular _ _) fun _ => .bind (keeps_require_chain _ _) fun _ => .bind (keeps_read_regular _ _)
    fun _ => .bind (keeps_require_chain _ _) fun _ => .pure _

variable [Sha256]

theorem keeps_finish_survivor (htouched : ∀ name, touched fd name) (validated : ValidatedChain) (envelope : List UInt8) :
    Keeps (base.Apart touched) (finish_survivor fd validated envelope) := by
  refine .bind (keeps_lift _) fun decoded => .bind (keeps_require_call _ _) fun _ =>
    .bind (keeps_validate_chain _ _) fun current => ?_
  have hfresh := Keeps.bind (keeps_validate_chain (I := base.Apart touched) fd []) fun fresh : ValidatedChain =>
    .bind (keeps_require_chain (fresh.entries = validated.entries ++ [(entry_digest envelope, decoded.2)] ∧
      fresh.tip = some (entry_digest envelope) ∧ fresh.survivor = none)
      "survivor completion did not produce the planned chain") fun _ => Keeps.pure fresh
  refine .ite (.bind (keeps_require_chain _ _) fun _ => .bind (keeps_finish htouched _ _) fun _ => hfresh) (.ite ?_ (.throw _))
  refine .ite ?_ hfresh
  exact .bind (keeps_read_regular _ _) fun _ => .bind (keeps_require_chain _ _) fun _ => .bind (keeps_unlink_stage htouched) fun _ => hfresh

theorem keeps_apply_survivors (htouched : ∀ name, touched fd name) (validated : ValidatedChain) :
    Keeps (base.Apart touched) (apply_survivors fd validated) := by
  refine .bind (keeps_lift _) fun _ => ?_
  cases validated.survivor with
  | none => exact .bind (keeps_validate_chain _ _) fun fresh => .bind (keeps_require_chain _ _) fun _ => .pure _
  | some action =>
    cases action with
    | FINISH envelope => exact keeps_finish_survivor htouched validated envelope
    | REMOVE =>
      refine .bind (keeps_validate_chain _ _) fun current => .bind (keeps_require_chain _ _) fun _ => ?_
      cases current.survivor with
      | none => exact .pure _
      | some _ => exact .bind (keeps_unlink_stage htouched) fun _ => keeps_validate_chain _ _

omit [Sha256] in
theorem keeps_prove_eexist (htouched : ∀ name, touched fd name) (envelope : List UInt8) (digest : String) (expected : Option String × Entry) :
    Keeps (base.Apart touched) (prove_eexist fd envelope digest expected) :=
  .bind (keeps_read_regular _ _) fun _ => .bind (keeps_require_chain _ _) fun _ => .bind (keeps_lift _) fun _ =>
    .bind (keeps_require_chain _ _) fun _ => .bind (keeps_read_regular _ _) fun _ => .bind (keeps_require_chain _ _)
      fun _ => keeps_unlink_stage htouched

theorem keeps_append_entry (htouched : ∀ name, touched fd name) (validated : ValidatedChain) (entry : Entry) :
    Keeps (base.Apart touched) (append_entry fd validated entry) := by
  refine .bind (keeps_lift _) fun _ => .bind (keeps_require_call _ _) fun _ => .bind (keeps_lift _) fun envelope =>
    .bind (keeps_validate_chain _ _) fun current => .bind (keeps_require_chain _ _) fun _ => fun d hd => ?_
  refine .bind (Q := fun r t => base.Apart touched t ∧ ∀ inode, r = .ok inode → base.next ≤ inode) ?_ ?_ fun _ _ ht => ht.1
  · refine (create_apart hd (htouched STAGING_LEAF) 0o600).tryCatch (fun _ _ ht => ht) fun e t ht => ?_
    split
    · exact .throw ⟨ht.1, fun inode heq => by cases heq⟩
    · exact .throw ⟨ht.1, fun inode heq => by cases heq⟩
  · rintro inode t ⟨ht, hinode⟩
    have hflush : ∀ renamed : Bool, Keeps (base.Apart touched) (if renamed then flush_directory fd >>= fun _ =>
        pure (entry_digest envelope) else pure (entry_digest envelope)) :=
      fun renamed => .ite (.bind (keeps_flush_directory fd) fun _ => .pure _) (.pure _)
    have hprove : Keeps (base.Apart touched) (prove_eexist fd envelope (entry_digest envelope) (validated.tip, entry) >>=
        fun _ => pure false) := .bind (keeps_prove_eexist htouched _ _ _) fun _ => .pure _
    have hrest := Keeps.bind (keeps_write_all (hinode inode rfl) envelope) fun _ =>
      .bind (keeps_flush_file inode) fun _ => .bind (keeps_rename htouched hprove STAGING_LEAF (entry_digest envelope))
        hflush
    exact hrest t ht

end

end atoms.chain
