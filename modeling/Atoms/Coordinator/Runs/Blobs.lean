import Atoms.Coordinator.Runs

open atoms.errors atoms.identifiers atoms.fs atoms.spec atoms.store checked keyed crash

namespace atoms.coordinator

section

variable [UnicodeData]

/-! What becomes of the tables. -/

/-- Since `db`, no row of a blob is gone or changed, and every new record is one of a valid identifier. -/
structure Grown (db db' : Database) : Prop where
  blobs : ∀ digest byte_len, select_blob db digest = some byte_len → select_blob db' digest = some byte_len
  records : ∀ txid, (db'.record? txid).isSome = true → (db.record? txid).isSome = true ∨ is_valid_identifier txid = true
  halts : db.HaltsBound → db'.HaltsBound

theorem Grown.refl (db : Database) : Grown db db := ⟨fun _ _ => id, fun _ => .inl, id⟩

theorem Grown.trans {db db' db'' : Database} (h : Grown db db') (h' : Grown db' db'') : Grown db db'' where
  blobs digest byte_len hrow := h'.blobs digest byte_len (h.blobs digest byte_len hrow)
  records txid hsome := (h'.records txid hsome).elim (h.records txid) .inr
  halts hbound := h'.halts (h.halts hbound)

theorem Body.Transitions.grown {body : Body} (h : body.Transitions) (db : Database) (refused : Option Raised) :
    Grown db (db.run body refused).2 where
  blobs _ _ := run_blobs db body refused
  records txid hsome := .inl ((h.same_index db refused).records txid ▸ hsome)
  halts hbound := Database.run_keeps halts_bound_apply hbound body refused

variable {db : Database}

theorem keeps_in_tree {α : Type} (p : Call α) : Prog.Keeps (fun m => Grown db m.db) (in_tree p) := .zoom fun _ _ => id

variable [Sha256]

theorem keeps_reclaim_orphans (root : Inode) : Prog.Keeps (fun m => Grown db m.db) (reclaim_orphans root) := by
  refine .bind (keeps_in_tree _) fun txids => .bind (.foldlM (fun removed txid => ?_) _) fun removed =>
    .bind (reads_list_unindexed_blobs root).keeps fun digests => .bind (.foldlM (fun removed digest => ?_) _) fun _ => .pure _
  · refine .bind (.read _) fun record => ?_
    cases record with
    | some record => exact .pure _
    | none => exact .bind (keeps_in_tree _) fun _ => .pure _
  · exact .bind (.bind (keeps_in_tree _) fun _ => .bind (.read _) fun _ => keeps_in_tree _) fun _ => .pure _

theorem keeps_prepare_transaction (root : Inode) (workspace : Workspace) {request : Request}
    (htxid : is_valid_identifier request.txid = true) (refused : Option Raised) :
    Prog.Keeps (fun m => Grown db m.db) (prepare_transaction root workspace request refused) := by
  refine .bind (keeps_in_tree _) fun _ => .bind (.bind (reads_preflight _ _ _).keeps fun _ => keeps_in_tree _) fun _ =>
    .call fun m _ t hgrown hcall => ?_
  cases hrun : m.db.run (prepare_body request.txid request.spec request.approval_evidence request.manifest) refused with
  | mk result db' =>
    rw [hrun] at hcall
    cases result with
    | error error => cases hcall
    | ok _ =>
      cases hcall
      have hgrown' : Grown m.db db' := by
        refine ⟨fun digest byte_len hrow => ?_, fun txid hsome => ?_, fun hbound => ?_⟩
        · have hrow := run_blobs m.db (prepare_body request.txid request.spec request.approval_evidence request.manifest)
            refused hrow
          rwa [hrun] at hrow
        · rcases ((prepare_body_run hrun).1 txid).mp hsome with rfl | hold
          · exact .inr htxid
          · exact .inl hold
        · have hbound := Database.run_keeps halts_bound_apply hbound
            (prepare_body request.txid request.spec request.approval_evidence request.manifest) refused
          rwa [hrun] at hbound
      exact hgrown.trans hgrown'

theorem begin_transaction_grown (root : Inode) (request : Request) (refused : Option Raised) (m : Metadata) :
    (begin_transaction root request refused).Ensures m (fun t => Grown m.db t.db) fun _ t => Grown m.db t.db := by
  have hcreate : (in_tree (create_workspace root request.txid)).Ensures m (fun t => Grown m.db t.db)
      (Prog.ends (fun _ t => Grown m.db t.db ∧ is_valid_identifier request.txid = true) fun t => Grown m.db t.db) := by
    refine .zoom (.guard_bind (fun htxid => ?_) fun _ => .refl _)
    refine Prog.Ensures.mono (I := fun _ => True) (Q := fun _ _ => True) ⟨fun _ _ => trivial, trivial⟩ (fun _ _ => .refl _) ?_
    rintro (e | workspace) t _
    · exact .refl _
    · exact ⟨.refl _, htxid⟩
  refine .bind hcreate (fun workspace t ht => ?_) fun _ _ ht => ht
  exact Prog.Keeps.bind (keeps_in_tree _) (fun _ => keeps_prepare_transaction root workspace ht.2 refused) t ht.1

variable {dirs : Directories} {captured captured' : List (List UInt8)} {m m' : Metadata}

/-- A step of a run takes no row of a blob away. -/
theorem Move.grown (h : Move dirs (captured, m) (captured', m')) : Grown m.db m'.db := by
  cases h with
  | begins request refused hleft =>
    rcases hleft with hpassed | rfl
    · exact (begin_transaction_grown dirs.root request refused m).passes hpassed
    · exact (begin_transaction_grown dirs.root request refused m).2
  | transition body refused htransitions => exact Body.Transitions.grown htransitions m.db refused
  | reclaims hleft =>
    rcases hleft with hpassed | rfl
    · exact (keeps_reclaim_orphans dirs.root m (.refl _)).passes hpassed
    · exact (keeps_reclaim_orphans dirs.root m (.refl _)).2
  | elsewhere _ => exact .refl _
  | cut _ => exact .refl _

end

end atoms.coordinator
