import Atoms.Coordinator.Copy.Phases

open atoms.errors atoms.fingerprint atoms.identifiers atoms.paths atoms.spec atoms.recovery atoms.fs atoms.store atoms.chain
  checked crash writeback routes

namespace atoms.fs

namespace Disk

variable {d t : Disk} {parent root inode : Inode} {name : String} {kind : Kind}

/-- A directory in which there is no directory. -/
structure Shallow (d : Disk) (root : Inode) : Prop where
  old : root < d.next
  child : ∀ name, d.child root name = none

/-- A directory without directories is a tree. -/
theorem Shallow.tree (h : d.Shallow root) (hd : d.Formed) : d.Tree root := by
  refine ⟨hd, h.old, ?_⟩
  have hnil : ∀ labels inode, route d.child root labels = some inode → labels = [] := by
    intro labels inode hroute
    cases labels with
    | nil => rfl
    | cons label rest =>
      rw [route_cons, h.child label] at hroute
      cases hroute
  exact fun labels labels' inode hleft hright => (hnil labels inode hleft).trans (hnil labels' inode hright).symm

end Disk

end atoms.fs

namespace atoms.coordinator

/-! The publication of a destination. -/

section

variable {d t : Disk} {dest_parent_fd fd inode : Inode} {dest_leaf name operation_id : String} {claim : List UInt8}

/-- A directory of the volume in which there is neither a directory nor a chain. -/
structure Hollow (d : Disk) (inode : Inode) : Prop extends d.Shallow inode where
  chain : d.lookup inode CHAIN_LEAF = none

/-- The destination is not there, or it is a directory in which nothing is begun. -/
structure Clear (dest_parent_fd : Inode) (dest_leaf : String) (d : Disk) : Prop where
  formed : d.Formed
  parent : dest_parent_fd < d.next
  slot : ∀ entry, d.lookup dest_parent_fd dest_leaf = some entry → ∃ inode, entry = ⟨.directory, inode⟩ ∧ Hollow d inode

/-- A name is created, but no directory in the hollow one. -/
theorem Hollow.created {kind : Kind} {parent : Inode} (h : Hollow d inode) (hcreated : Disk.Created kind parent name d t)
    (hname : name ≠ CHAIN_LEAF) (hkind : parent ≠ inode ∨ kind = .file) : Hollow t inode := by
  refine ⟨⟨hcreated.next ▸ Nat.lt_succ_of_lt h.old, fun name' => ?_⟩, ?_⟩
  · by_cases heq : (inode, name') = (parent, name)
    · obtain ⟨rfl, rfl⟩ := Prod.mk.inj heq
      obtain rfl := hkind.resolve_left (fun hne => hne rfl)
      unfold Disk.child
      rw [hcreated.new]
    · exact (Disk.child_congr (hcreated.same heq)).trans (h.child name')
  · exact (hcreated.same fun heq => hname (Prod.mk.inj heq).2.symm).trans h.chain

theorem Hollow.congr (h : Hollow d inode) (hlookup : ∀ parent name, t.lookup parent name = d.lookup parent name)
    (hnext : t.next = d.next) : Hollow t inode :=
  ⟨⟨hnext ▸ h.old, fun name => (Disk.child_congr (hlookup inode name)).trans (h.child name)⟩,
    (hlookup inode CHAIN_LEAF).trans h.chain⟩

theorem Hollow.remove (h : Hollow d inode) (parent : Inode) (name : String) : Hollow (d.set_entry parent name none) inode := by
  refine ⟨⟨h.old, fun name' => ?_⟩, ?_⟩
  · cases hchild : (d.set_entry parent name none).child inode name' with
    | none => rfl
    | some found =>
      rw [Disk.child_eq_some_iff, Disk.lookup_set_entry] at hchild
      split at hchild
      · cases hchild
      · rw [← Disk.child_eq_some_iff, h.child] at hchild
        cases hchild
  · rw [Disk.lookup_set_entry]
    split
    · rfl
    · exact h.chain

namespace Clear

theorem congr (h : Clear dest_parent_fd dest_leaf d) (hlookup : ∀ parent name, t.lookup parent name = d.lookup parent name)
    (hnext : t.next = d.next) : Clear dest_parent_fd dest_leaf t := by
  refine ⟨h.formed.congr hlookup hnext, hnext ▸ h.parent, fun entry hentry => ?_⟩
  rw [hlookup] at hentry
  obtain ⟨inode, heq, hhollow⟩ := h.slot entry hentry
  exact ⟨inode, heq, hhollow.congr hlookup hnext⟩

theorem fsync (h : Clear dest_parent_fd dest_leaf d) (fd : Inode) : Clear dest_parent_fd dest_leaf (d.fsync fd) :=
  h.congr (fun _ _ => Disk.lookup_fsync _ _ _ _) rfl

theorem remove (h : Clear dest_parent_fd dest_leaf d) (parent : Inode) (name : String) :
    Clear dest_parent_fd dest_leaf (d.set_entry parent name none) := by
  refine ⟨h.formed.remove parent name, h.parent, fun entry hentry => ?_⟩
  rw [Disk.lookup_set_entry] at hentry
  split at hentry
  · cases hentry
  · obtain ⟨inode, heq, hhollow⟩ := h.slot entry hentry
    exact ⟨inode, heq, hhollow.remove parent name⟩

/-- A file is created anywhere, but under the name of the chain. -/
theorem created (h : Clear dest_parent_fd dest_leaf d) (hcreated : Disk.Created .file fd name d t) (hfd : fd < d.next)
    (hspelled : name ≠ "" ∧ '/' ∉ name.toList) (hname : name ≠ CHAIN_LEAF) (hslot : (fd, name) ≠ (dest_parent_fd, dest_leaf)) :
    Clear dest_parent_fd dest_leaf t := by
  refine ⟨hcreated.formed h.formed hfd hspelled, hcreated.next ▸ Nat.lt_succ_of_lt h.parent, fun entry hentry => ?_⟩
  rw [hcreated.same (Ne.symm hslot)] at hentry
  obtain ⟨inode, heq, hhollow⟩ := h.slot entry hentry
  exact ⟨inode, heq, hhollow.created hcreated hname (.inr rfl)⟩

end Clear

/-- The sibling of the destination is a directory in which nothing is begun. -/
structure SiblingClear (dest_parent_fd : Inode) (dest_leaf sibling : String) (inode : Inode) (d : Disk) : Prop where
  clear : Clear dest_parent_fd dest_leaf d
  sibling : d.lookup dest_parent_fd sibling = some ⟨.directory, inode⟩
  hollow : Hollow d inode
  other : inode ≠ dest_parent_fd

/-- The sibling takes the place of the destination. -/
theorem SiblingClear.transfer {sibling : String} (h : SiblingClear dest_parent_fd dest_leaf sibling inode d)
    (hleaf : dest_leaf ≠ "" ∧ '/' ∉ dest_leaf.toList) : Clear dest_parent_fd dest_leaf
      ((d.set_entry dest_parent_fd sibling none).set_entry dest_parent_fd dest_leaf (some ⟨.directory, inode⟩)) := by
  have hremoved := h.clear.remove dest_parent_fd sibling
  have hhollow := h.hollow.remove dest_parent_fd sibling
  generalize d.set_entry dest_parent_fd sibling none = t at hremoved hhollow
  have hsame : ∀ parent name, (parent, name) ≠ (dest_parent_fd, dest_leaf) →
      (t.set_entry dest_parent_fd dest_leaf (some ⟨.directory, inode⟩)).lookup parent name = t.lookup parent name :=
    fun parent name hne => Disk.lookup_set_entry_of_ne t (Ne.symm hne) _
  have hinside : ∀ name, (inode, name) ≠ (dest_parent_fd, dest_leaf) := fun name heq => h.other (Prod.mk.inj heq).1
  refine ⟨⟨hremoved.formed.numbered.set_entry ?_, fun parent name hparent => ?_, fun parent name entry hentry => ?_⟩,
    hremoved.parent, fun entry hentry => ?_⟩
  · rintro found ⟨rfl⟩
    exact hhollow.old
  · rw [hsame parent name fun heq => ?_]
    · exact hremoved.formed.bare parent name hparent
    · exact absurd hremoved.parent (Nat.not_lt.mpr ((Prod.mk.inj heq).1 ▸ hparent))
  · rw [Disk.lookup_set_entry] at hentry
    split at hentry
    · rename_i heq
      exact (Prod.mk.inj heq).2 ▸ hleaf
    · exact hremoved.formed.spelled parent name entry hentry
  · rw [Disk.lookup_set_entry_self] at hentry
    cases hentry
    refine ⟨inode, rfl, ⟨hhollow.old, fun name => ?_⟩, ?_⟩
    · exact (Disk.child_congr (hsame inode name (hinside name))).trans (hhollow.child name)
    · exact (hsame inode CHAIN_LEAF (hinside _)).trans hhollow.chain

/-- The name of the private sibling. -/
theorem sibling_spelled (hid : is_operation_id operation_id = true) :
    ((".#~" ++ operation_id ++ ".root-claim") ≠ "" ∧ '/' ∉ (".#~" ++ operation_id ++ ".root-claim").toList) ∧
      (".#~" ++ operation_id ++ ".root-claim") ≠ CHAIN_LEAF := by
  obtain ⟨hall, hlength⟩ := (Bool.and_eq_true _ _).mp hid
  have hlist : (".#~" ++ operation_id ++ ".root-claim").toList =
      ['.', '#', '~'] ++ operation_id.toList ++ ['.', 'r', 'o', 'o', 't', '-', 'c', 'l', 'a', 'i', 'm'] := by
    rw [String.toList_append, String.toList_append]
    rfl
  refine ⟨⟨fun heq => ?_, fun hmem => ?_⟩, fun heq => ?_⟩
  · rw [heq] at hlist
    cases hlist
  · rw [hlist] at hmem
    simp only [List.mem_append] at hmem
    rcases hmem with (hmem | hmem) | hmem
    · exact absurd hmem (by decide)
    · exact absurd (List.all_eq_true.mp hall _ hmem) (by decide)
    · exact absurd hmem (by decide)
  · have hlen := congrArg List.length hlist
    rw [heq] at hlen
    simp only [List.length_append, beq_iff_eq.mp hlength] at hlen
    exact absurd hlen (by decide)

theorem SiblingClear.congr {sibling : String} (h : SiblingClear dest_parent_fd dest_leaf sibling inode d)
    (hlookup : ∀ parent name, t.lookup parent name = d.lookup parent name) (hnext : t.next = d.next) :
    SiblingClear dest_parent_fd dest_leaf sibling inode t :=
  ⟨h.clear.congr hlookup hnext, (hlookup _ _).trans h.sibling, h.hollow.congr hlookup hnext, h.other⟩

/-- A new sibling. -/
theorem sibling_made {sibling : String} (h : Clear dest_parent_fd dest_leaf d) (hspelled : sibling ≠ "" ∧ '/' ∉ sibling.toList)
    (hchain : sibling ≠ CHAIN_LEAF) (hcreated : Disk.Created .directory dest_parent_fd sibling d t) :
    SiblingClear dest_parent_fd dest_leaf sibling d.next t := by
  have hne : d.next ≠ dest_parent_fd := Nat.ne_of_gt h.parent
  have hnone : ∀ name, t.lookup d.next name = none := fun name =>
    (hcreated.same fun heq => hne (Prod.mk.inj heq).1).trans (h.formed.bare _ _ (Nat.le_refl _))
  have hhollow : Hollow t d.next := by
    refine ⟨⟨hcreated.next ▸ Nat.lt_succ_self _, fun name => ?_⟩, hnone _⟩
    unfold Disk.child
    rw [hnone name]
  refine ⟨⟨hcreated.formed h.formed h.parent hspelled, hcreated.next ▸ Nat.lt_succ_of_lt h.parent, fun entry hentry => ?_⟩,
    hcreated.new, hhollow, hne⟩
  rw [hcreated.lookup] at hentry
  split at hentry
  · cases hentry
    exact ⟨d.next, rfl, hhollow⟩
  · obtain ⟨inode, rfl, hold⟩ := h.slot entry hentry
    refine ⟨inode, rfl, hold.created hcreated hchain (.inl ?_)⟩
    rintro rfl
    have hchild := hold.child dest_leaf
    rw [Disk.child_eq_some_iff.mpr hentry] at hchild
    cases hchild

/-- A file in the sibling. -/
theorem SiblingClear.created {sibling : String} (h : SiblingClear dest_parent_fd dest_leaf sibling inode d)
    (hspelled : name ≠ "" ∧ '/' ∉ name.toList) (hname : name ≠ CHAIN_LEAF) (hcreated : Disk.Created .file inode name d t) :
    SiblingClear dest_parent_fd dest_leaf sibling inode t :=
  ⟨h.clear.created hcreated h.hollow.old hspelled hname fun heq => h.other (Prod.mk.inj heq).1,
    (hcreated.same fun heq => h.other (Prod.mk.inj heq).1.symm).trans h.sibling, h.hollow.created hcreated hname (.inr rfl), h.other⟩

theorem keeps_unless_os_error {I : Disk → Prop} {p : Call Unit} (h : Prog.Keeps I p) :
    Prog.Keeps I (publish_claimed_destination.unless_os_error p) := by
  refine .tryCatch h fun caught => ?_
  split
  · exact .pure _
  · exact .throw _

theorem keeps_clear_unlink (fd : Inode) (name : String) :
    Prog.Keeps (Clear dest_parent_fd dest_leaf) (unlink_child fd name) := by
  refine .call fun s a t hs hcall => ?_
  split at hcall
  · cases hcall
  · cases hcall
  · cases hcall
    exact hs.remove fd name

theorem keeps_clear_rmdir (fd : Inode) (name : String) :
    Prog.Keeps (Clear dest_parent_fd dest_leaf) (rmdir_child fd name) := by
  refine .call fun s a t hs hcall => ?_
  split at hcall
  · cases hcall
  · split at hcall
    · cases hcall
      exact hs.remove fd name
    · cases hcall
  · cases hcall

theorem keeps_clear_flush (fd : Inode) : Prog.Keeps (Clear dest_parent_fd dest_leaf) (flush_directory fd) :=
  .call fun s a t hs hcall => by
    cases hcall
    exact hs.fsync fd

/-- However the publication ends, the destination is not there, or nothing is begun in it. -/
theorem keeps_publish_claimed_destination (hid : is_operation_id operation_id = true)
    (hleaf : dest_leaf ≠ "" ∧ '/' ∉ dest_leaf.toList) : Prog.Keeps (Clear dest_parent_fd dest_leaf)
      (publish_claimed_destination dest_parent_fd dest_leaf claim operation_id) := by
  obtain ⟨hspelled, hchain⟩ := sibling_spelled hid
  unfold publish_claimed_destination
  generalize ".#~" ++ operation_id ++ ".root-claim" = sibling at hspelled hchain
  refine .bind (.tryCatch (fun d h => ?_) fun caught => ?_) fun _ => keeps_clear_flush _
  · refine .bind (Q := Prog.ends (fun _ t => ∃ inode, SiblingClear dest_parent_fd dest_leaf sibling inode t)
      (Clear dest_parent_fd dest_leaf)) (.call (fun _ t hcall => ?_) fun e _ => h) ?_ fun e t ht => ht
    · split at hcall
      · cases hcall
      · cases hcall
        have hmade := sibling_made h hspelled hchain (.allocate .directory dest_parent_fd sibling 0o700 d)
        exact ⟨hmade.clear, _, hmade⟩
    · rintro _ t ⟨inode, ht⟩
      refine .read_bind (fun fd hfd => ?_) fun e _ => ht.clear
      rw [ht.sibling] at hfd
      cases hfd
      refine .bind (Q := Prog.ends (fun fd u => SiblingClear dest_parent_fd dest_leaf sibling inode u)
        (Clear dest_parent_fd dest_leaf)) (.call (fun _ u hcall => ?_) fun e _ => ht.clear) ?_ fun e u hu => hu
      · split at hcall
        · cases hcall
        · cases hcall
          have hmade := ht.created (by decide) (by decide) (.allocate .file inode ROOT_CLAIM_LEAF CLAIM_MODE t)
          exact ⟨hmade.clear, hmade⟩
      · intro fd u hu
        have hgrown : ∀ bytes v, u.Grown fd bytes v → SiblingClear dest_parent_fd dest_leaf sibling inode v :=
          fun bytes v hv => hu.congr hv.lookup hv.next
        refine .bind ((write_all_ensures (Nat.le_refl _) u).mono (fun v ⟨bytes, _, hv⟩ => (hgrown bytes v hv).clear)
          fun _ _ hv => hv) (fun _ v hv => ?_) fun e v ⟨⟨bytes, _, hv⟩, _⟩ => (hgrown bytes v hv).clear
        have hflushed : ∀ fd w, SiblingClear dest_parent_fd dest_leaf sibling inode w →
            SiblingClear dest_parent_fd dest_leaf sibling inode (w.fsync fd) :=
          fun fd w hw => hw.congr (fun _ _ => Disk.lookup_fsync _ _ _ _) rfl
        have hfile := hflushed fd v (hgrown claim v hv)
        have hdirectory := hflushed inode _ hfile
        refine .call_ok_bind rfl hfile.clear (.call_ok_bind rfl hdirectory.clear ?_)
        refine .call (fun _ w hcall => ?_) fun e _ => hdirectory.clear
        rw [hdirectory.sibling] at hcall
        split at hcall
        · cases hcall
        · cases hcall
        · rename_i entry heq _
          cases heq
          cases hcall
          exact ⟨hdirectory.transfer hleaf, hdirectory.transfer hleaf⟩
  · refine .bind (keeps_unless_os_error (.bind (.read _) fun _ => keeps_clear_unlink _ _)) fun _ => ?_
    exact .bind (keeps_unless_os_error (keeps_clear_rmdir _ _)) fun _ => .throw _

end

end atoms.coordinator
