import Atoms.Coordinator.Execute
import Atoms.Coordinator.Runs

open atoms.errors atoms.identifiers atoms.fs atoms.spec atoms.store atoms.recovery checked keyed crash

namespace atoms.coordinator

section

variable [UnicodeData] [Sha256]

/-- What `resolve` does to a metadata root, with or without an active record: transitions of records, and whatever it
does in the project's tree, in the chain and in the directories of the work. -/
inductive Resolves (dirs : Directories) (m : Metadata) : Metadata → Prop
  | done : Resolves dirs m m
  | transition {m' : Metadata} (body : Body) (refused : Option Raised) : Resolves dirs m m' → body.Transitions →
      Resolves dirs m { m' with db := (m'.db.run body refused).2 }
  | elsewhere {m' : Metadata} {d : Disk} : Resolves dirs m m' → Elsewhere dirs m'.disk d →
      Resolves dirs m { m' with disk := d }

variable {dirs : Directories} {captured : List (List UInt8)} {m m' : Metadata}

omit [UnicodeData] [Sha256] in
theorem Elsewhere.swept {db : Database} {d d' : Disk} (h : Elsewhere dirs d d') (hswept : Swept dirs db d) :
    Swept dirs db d' := by
  have hsame : ∀ txid, d'.lookup dirs.staging txid = d.lookup dirs.staging txid ∧
      d'.lookup dirs.work txid = d.lookup dirs.work txid := by
    intro txid
    cases h with
    | name parent leaf value hparent hlayout hvalue =>
      obtain ⟨_, hstaging, hwork, _⟩ := Directories.ne_of_not_mem hlayout
      exact ⟨d.lookup_set_entry_of_ne (fun heq => hstaging (congrArg Prod.fst heq)) value,
        d.lookup_set_entry_of_ne (fun heq => hwork (congrArg Prod.fst heq)) value⟩
    | make kind parent leaf mode hparent hlayout =>
      obtain ⟨_, hstaging, hwork, _⟩ := Directories.ne_of_not_mem hlayout
      rw [Disk.lookup_allocate, if_neg (fun heq => hstaging (congrArg Prod.fst heq)), Disk.lookup_allocate,
        if_neg (fun heq => hwork (congrArg Prod.fst heq))]
      exact ⟨rfl, rfl⟩
    | write inode content short_writes hunfiled => exact ⟨rfl, rfl⟩
    | flush fd => exact ⟨d.lookup_fsync fd _ _, d.lookup_fsync fd _ _⟩
  exact ⟨fun txid => (hsame txid).1.trans (hswept.staging txid), fun txid => (hsame txid).2 ▸ hswept.work txid⟩

omit [Sha256] in
/-- What a resolution leaves of the workspaces is what the reclamation before it has left. -/
theorem Resolves.swept (h : Resolves dirs m m') (hswept : Swept dirs m.db m.disk) :
    Swept dirs m.db m'.disk ∧ ∀ txid, (m'.db.record? txid).isSome = (m.db.record? txid).isSome := by
  induction h with
  | done => exact ⟨hswept, fun _ => rfl⟩
  | transition body refused _ htransitions ih =>
    exact ⟨ih.1, fun txid => ((htransitions.same_index _ refused).records txid).trans (ih.2 txid)⟩
  | elsewhere _ helsewhere ih => exact ⟨helsewhere.swept ih.1, ih.2⟩

end

/-! A transaction that creates two directories is prepared, rolled back and detached: its directory for work stays. -/

attribute [local instance] journal.ascii empty_digest

end atoms.coordinator
