import Atoms.Coordinator.Prepare.Kept

open atoms.errors atoms.identifiers atoms.fs atoms.spec atoms.store checked keyed crash

namespace atoms.coordinator

section

variable [UnicodeData] [Sha256]

/-- A program was killed after one of its calls, or it ended. -/
def BrokenOff {α : Type} (p : Storing α) (m m' : Metadata) : Prop := p.Passes m m' ∨ m' = (p m).final

/-- One thing that happens on the volume outside the directories of the layout: in the project's tree, in the directory of
a transaction's work, or in a workspace. -/
inductive Elsewhere (dirs : Directories) (d : Disk) : Disk → Prop
  | name (parent : Inode) (leaf : String) (value : Option Entry) : parent < d.next → parent ∉ dirs.all →
      (∀ entry, value = some entry → entry.inode < d.next ∧ entry.inode ∉ dirs.all) →
      Elsewhere dirs d (d.set_entry parent leaf value)
  | make (kind : Kind) (parent : Inode) (leaf : String) (mode : Nat) : parent < d.next → parent ∉ dirs.all →
      Elsewhere dirs d (d.allocate kind parent leaf mode)
  | write (inode : Inode) (content : List UInt8) (short_writes : List Nat) : Unfiled dirs inode d →
      Elsewhere dirs d { d with contents := d.contents.set inode content, short_writes }
  | flush (fd : Inode) : Elsewhere dirs d (d.fsync fd)

/-- A metadata root whose layout is on disk, and whose store has just been made. -/
structure Fresh (dirs : Directories) (m : Metadata) : Prop where
  tables : m.db = .new
  laid : Laid dirs m.disk
  below : ∀ fd ∈ dirs.all, fd < m.disk.next
  named : m.disk.Named fun parent _ entry => parent < m.disk.next ∧ entry.inode < m.disk.next ∧
    (entry.inode ∈ dirs.all → parent = dirs.root ∨ parent = dirs.blobs) ∧ parent ∉ [dirs.staging, dirs.work, dirs.sha256]

/-- One step of a run: a transaction begins and gets as far as it gets, the store commits a transition of a record or
refuses it, a lease entry reclaims, something happens elsewhere, or the power is cut. -/
inductive Move (dirs : Directories) : List (List UInt8) × Metadata → List (List UInt8) × Metadata → Prop
  | begins {captured : List (List UInt8)} {m m' : Metadata} (request : Request) (refused : Option Raised) :
      BrokenOff (begin_transaction dirs.root request refused) m m' →
      Move dirs (captured, m) (captured ++ request.staged.map Prod.snd, m')
  | transition {captured : List (List UInt8)} {m : Metadata} (body : Body) (refused : Option Raised) : body.Transitions →
      Move dirs (captured, m) (captured, { m with db := (m.db.run body refused).2 })
  | reclaims {captured : List (List UInt8)} {m m' : Metadata} : BrokenOff (reclaim_orphans dirs.root) m m' →
      Move dirs (captured, m) (captured, m')
  | elsewhere {captured : List (List UInt8)} {m : Metadata} {d : Disk} : Elsewhere dirs m.disk d →
      Move dirs (captured, m) (captured, { m with disk := d })
  | cut {captured : List (List UInt8)} {m : Metadata} {d : Disk} : m.disk.Cut d →
      Move dirs (captured, m) (captured, { m with disk := d })

/-- The states of the runs of a metadata root, with all that was captured on the way. -/
inductive Reaches (dirs : Directories) : List (List UInt8) → Metadata → Prop
  | fresh {m : Metadata} : Fresh dirs m → Reaches dirs [] m
  | move {captured captured' : List (List UInt8)} {m m' : Metadata} : Reaches dirs captured m →
      Move dirs (captured, m) (captured', m') → Reaches dirs captured' m'

variable {dirs : Directories} {captured captured' : List (List UInt8)} {m m' : Metadata}

theorem Fresh.sound (h : Fresh dirs m) : Sound dirs [] m where
  laid := h.laid
  below := h.below
  named := h.named.mono fun _ _ _ hentry => ⟨hentry.1, hentry.2.1, hentry.2.2.1⟩
  filed := h.named.mono fun _ _ _ hentry hparent => absurd (hparent ▸ by simp) hentry.2.2.2
  indexed digest byte_len hrow := by
    rw [h.tables] at hrow
    cases hrow
  recorded txid hsome := by
    rw [h.tables] at hsome
    cases hsome
  coherent txid := by
    rw [h.tables]
    exact coherent_new txid

theorem BrokenOff.sound {α : Type} {p : Storing α} {Q : Except Raised α → Metadata → Prop} (h : BrokenOff p m m')
    (hp : p.Ensures m (Sound dirs captured) Q) (hQ : ∀ r t, Q r t → Sound dirs captured t) : Sound dirs captured m' := by
  rcases h with hpassed | rfl
  · exact hp.passes hpassed
  · exact hQ _ _ hp.2

theorem Elsewhere.kept {db : Database} {d d' : Disk} (h : Elsewhere dirs d d') (hkept : Kept dirs captured db d) :
    Kept dirs captured db d' := by
  cases h with
  | name parent leaf value hparent hlayout hvalue =>
    obtain ⟨hroot, hstaging, hwork, hblobs, hsha256⟩ := Directories.ne_of_not_mem hlayout
    exact hkept.set_entry hparent hroot hblobs hvalue (fun heq => absurd heq hsha256)
      fun heq => heq.elim (absurd · hstaging) (absurd · hwork)
  | make kind parent leaf mode hparent hlayout =>
    obtain ⟨hroot, hstaging, hwork, hblobs, hsha256⟩ := Directories.ne_of_not_mem hlayout
    exact hkept.allocate hparent hroot hblobs hsha256 (fun heq => heq.elim (absurd · hstaging) (absurd · hwork)) kind mode
  | write inode content short_writes hunfiled => exact hkept.set_contents hunfiled content short_writes
  | flush fd => exact hkept.fsync fd

/-- What every state has, a step keeps. -/
theorem Move.sound (h : Move dirs (captured, m) (captured', m')) (hsound : Sound dirs captured m) : Sound dirs captured' m' := by
  cases h with
  | begins request refused hleft =>
    have hmore : Sound dirs (captured ++ request.staged.map Prod.snd) m :=
      hsound.captured_mono (List.subset_append_left _ _)
    exact hleft.sound (begin_transaction_ensures hmore request refused (List.subset_append_right _ _)) fun _ _ ht => ht
  | transition body refused htransitions =>
    exact hsound.same_index (htransitions.same_index m.db refused) (run_coherent hsound.coherent body refused)
  | reclaims hleft =>
    refine hleft.sound (reclaim_orphans_ensures hsound) ?_
    rintro (e | removed) t ht
    · exact ht
    · exact ht.2.1
  | elsewhere helsewhere => exact helsewhere.kept hsound
  | cut hcut => exact hsound.cut hcut

theorem Reaches.sound (h : Reaches dirs captured m) : Sound dirs captured m := by
  induction h with
  | fresh hfresh => exact hfresh.sound
  | move _ hmove ih => exact hmove.sound ih

/-- Transitions of records, one after the other. -/
theorem Reaches.run_all (h : Reaches dirs captured m) {bodies : List (Body × Option Raised)}
    (hbodies : ∀ item ∈ bodies, item.1.Transitions) : Reaches dirs captured { m with db := m.db.run_all bodies } := by
  induction bodies generalizing m with
  | nil => exact h
  | cons item rest ih =>
    exact ih (h.move (.transition item.1 item.2 (hbodies item List.mem_cons_self))) fun other hother =>
      hbodies other (List.mem_cons_of_mem _ hother)

end

end atoms.coordinator
