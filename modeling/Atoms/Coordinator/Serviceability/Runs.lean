import Atoms.Coordinator.Serviceability.Tables
import Atoms.Coordinator.Copy.Faithful
import Atoms.Store.Root.Rows

open atoms.errors atoms.fingerprint atoms.identifiers atoms.paths atoms.spec atoms.recovery atoms.fs atoms.store atoms.chain
  checked crash Relation

namespace atoms.coordinator

/-! The commands of a root, one after another. -/

section

variable {base carrier carrier' : Carrier}

/-- Each change of the tables keeps them accounted for. -/
theorem TableStep.accounted (h : TableStep carrier carrier') (hcarrier : carrier.tables.Accounted) :
    carrier'.tables.Accounted := by
  cases h with
  | opened _ => exact .empty
  | recorded hoperation hlifecycle => exact .recorded hoperation hlifecycle
  | snapshot h => exact hcarrier.updated h (fun _ => rfl) fun _ heq => by cases heq
  | proved h => exact hcarrier.updated h (fun _ => rfl) fun _ heq => by cases heq
  | completed hstate hphase => exact .completed hstate hphase
  | served h => exact hcarrier.served h
  | admitted h =>
    obtain ⟨hadmits, _⟩ := RootTables.insert_root_lifecycle_cases h
    exact .bare h (of_decide_eq_true hadmits).2 (by decide)
  | migrated h => exact .bare h rfl (by decide)

end

section

variable [UnicodeData] [Sha256] {base : Carrier} {s t : RootState} {α : Type} {p : Rooted α}

omit [Sha256] in
/-- A store that is neither absent nor of version 3 has version 2. -/
theorem classify_version {carrier : Carrier} {machine_id root_path : String} {view : CarrierView}
    (h : classify_carrier carrier machine_id root_path = .ok view) (hstate : view.state ≠ .METADATA_LESS)
    (hschema : view.schema_version ≠ 3) : carrier.version = 2 := by
  unfold classify_carrier at h
  split at h
  · cases h
    exact absurd rfl hstate
  · split at h
    · rename_i hversion
      exact hversion
    · obtain ⟨_, _, h⟩ := bind_eq_ok_iff.mp h
      split at h
      · cases h
        exact absurd rfl hschema
      · split at h <;>
        · cases h
          exact absurd rfl hschema

omit [UnicodeData] [Sha256] in
/-- What follows a precondition runs where it holds. -/
theorem require_precondition_bind {β : Type} {condition : Prop} [Decidable condition] {message : String} {f : Unit → Rooted β}
    {I : RootState → Prop} {R : Except Raised β → RootState → Prop} (hok : condition → (f ()).Ensures t I R)
    (herror : ∀ e, R (.error e) t) : (require_precondition condition message >>= f).Ensures t I R := by
  refine Prog.Ensures.bind (Q := Prog.ends (fun _ u => u = t ∧ condition) fun u => u = t) ?_ ?_ ?_
  · rw [require_precondition]
    split
    · rename_i hcondition
      exact .pure ⟨rfl, hcondition⟩
    · exact .throw rfl
  · rintro _ _ ⟨rfl, hcondition⟩
    exact hok hcondition
  · rintro e _ rfl
    exact herror e

theorem keeps_migrate_root (root_fd : Inode) (machine_id root_path : String) :
    Prog.Keeps (Stepped base) (migrate_root_to_lifecycle_v3 root_fd machine_id root_path) := by
  intro s hs
  -- the tables are those that were classified until they are migrated
  have hsame : ∀ t : RootState, t.carrier = s.carrier → Stepped base t := fun t ht => by
    unfold Stepped
    rw [ht]
    exact hs
  have hread : ∀ {β : Type} (q : Call β), Prog.Keeps (fun t : RootState => t.carrier = s.carrier) (in_root q) :=
    fun q => .zoom fun _ _ h => h
  refine .read_bind (fun view hview => ?_) fun e _ => hs
  refine require_precondition_bind (fun hstate => require_precondition_bind (fun _ => ?_) fun _ => hs) fun _ => hs
  refine .read_bind (fun lifecycle _ => ?_) fun e _ => hs
  split
  · exact keeps_require_precondition _ _ s hs
  · rename_i hschema
    have hversion := classify_version hview hstate hschema
    refine ((hread _ s rfl).mono hsame fun _ _ ht => ht).bind (fun inspected t ht => ?_) fun _ t ht => hsame t ht
    refine ((hread _ t ht).mono hsame fun _ _ hu => hu).bind (fun chain u hu => ?_) fun _ u hu => hsame u hu
    refine require_precondition_bind (fun _ => ?_) fun _ => hsame u hu
    refine .call (fun _ v hcall => ?_) fun _ _ => hsame u hu
    obtain ⟨tables, htables, hcall⟩ := bind_eq_ok_iff.mp hcall
    cases pure_eq_ok_iff.mp hcall
    have hmigrated : Stepped base { u with carrier := ⟨3, tables⟩ } := by
      refine ReflTransGen.tail hs ?_
      obtain ⟨disk, version, old⟩ := s
      cases hversion
      exact .migrated htables
    exact ⟨hmigrated, hmigrated⟩

/-- The commands that change the tables of a root. -/
inductive RootCommand : {α : Type} → Rooted α → Prop
  | register (depth : Nat) (root_fd : Inode) (args : Registration) (minted : String) :
    RootCommand (register_root depth root_fd args minted)
  | copy (depth : Nat) (args : CopyArguments) (source : Except Raised CopySource) (minted : String) :
    RootCommand (copy_command depth args source minted)
  | resumption (depth : Nat) (args : CopyArguments) (claimed : Option CopyPlan) (source : Except Raised CopySource) :
    RootCommand (resume_copy depth args claimed source)
  | grant (root_fd : Inode) (beyond : String → Except Raised Bool) (machine_id root_path : String) :
    RootCommand (grant_read_serviceability root_fd beyond machine_id root_path)
  | migration (root_fd : Inode) (machine_id root_path : String) :
    RootCommand (migrate_root_to_lifecycle_v3 root_fd machine_id root_path)

/-- Commands of a root one after another, each of them killed anywhere or ended, and whatever others make of the volume. -/
inductive RootRun : RootState → RootState → Prop
  | refl (s : RootState) : RootRun s s
  | killed {α : Type} {p : Rooted α} {s t u : RootState} : RootRun s t → RootCommand p → p.Passes t u → RootRun s u
  | ended {α : Type} {p : Rooted α} {s t : RootState} : RootRun s t → RootCommand p → RootRun s (p t).final
  | others {s t : RootState} (d : Disk) : RootRun s t → RootRun s { t with disk := d }

theorem RootCommand.keeps (h : RootCommand p) : Prog.Keeps (Stepped base) p := by
  cases h with
  | register depth root_fd args minted => exact keeps_register_root _ _ _ _
  | copy depth args source minted => exact keeps_copy_command _ _ _ _
  | resumption depth args claimed source => exact keeps_resume_copy _ _ _ _
  | grant root_fd beyond machine_id root_path => exact keeps_grant_read_serviceability _ _ _ _
  | migration root_fd machine_id root_path => exact keeps_migrate_root _ _ _

/-- The commands change the tables as `TableStep` says, and not otherwise. -/
theorem RootRun.stepped (h : RootRun s t) : Stepped s.carrier t := by
  induction h with
  | refl _ => exact .refl
  | killed _ hcommand hpasses ih => exact (hcommand.keeps _ ih).passes hpasses
  | ended _ hcommand ih => exact (hcommand.keeps _ ih).2
  | others _ _ ih => exact ih

/-- Over any commands and kills, the rows of a root account for one another, and the check of the pair passes them. -/
theorem root_rows_accounted (hrun : RootRun s t) (hstart : s.carrier.tables.Accounted) :
    t.carrier.tables.Accounted ∧ require_root_row_pair t.carrier.tables.lifecycle t.carrier.tables.operation = .ok () := by
  have haccounted : t.carrier.tables.Accounted := by
    have hstepped : ReflTransGen TableStep s.carrier t.carrier := hrun.stepped
    generalize t.carrier = last at hstepped
    induction hstepped with
    | refl => exact hstart
    | tail _ hstep ih => exact hstep.accounted ih
  exact ⟨haccounted, haccounted.require_root_row_pair⟩

end

/-! A copy of a root that is empty, and a grant to a root whose store was migrated. -/

section

attribute [local instance] plain_text genesis_digest

theorem copied_roots_accounted :
    (copy_command 2 plain_copy (.ok plain_source) minted_id two_roots).final.carrier.tables.Accounted ∧
      require_root_row_pair (copy_command 2 plain_copy (.ok plain_source) minted_id two_roots).final.carrier.tables.lifecycle
        (copy_command 2 plain_copy (.ok plain_source) minted_id two_roots).final.carrier.tables.operation = .ok () :=
  root_rows_accounted (.ended (.refl two_roots) (.copy 2 plain_copy (.ok plain_source) minted_id)) .empty

end

end atoms.coordinator
