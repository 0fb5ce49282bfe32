import Atoms.Coordinator.Copy.Runs
import Atoms.Coordinator.Register.Crashes

open atoms.errors atoms.fingerprint atoms.identifiers atoms.paths atoms.spec atoms.fs atoms.store atoms.chain checked crash
  routes

namespace atoms.coordinator

/-! A completed copy is what was asked for. -/

section

variable [UnicodeData] [Sha256] {args : CopyArguments} {root : Inode} {d t : Disk} {start s : RootState}
  {entries : List (String × PathState)} {digest : Option String} {row : RootOperationRow}

/-- Where no copy has been attempted. -/
structure Uncopied (args : CopyArguments) (s : RootState) : Prop where
  formed : s.disk.Formed
  parent : args.dest_parent_fd < s.disk.next
  absent : s.disk.lookup args.dest_parent_fd args.dest_leaf = none
  operation : s.carrier.tables.operation = none
  leaf : args.dest_leaf ≠ "" ∧ '/' ∉ args.dest_leaf.toList

/-- What others do, which leaves the destination and its tree as they are. -/
structure Aside (args : CopyArguments) (d t : Disk) : Prop where
  formed : t.Formed
  next : d.next ≤ t.next
  slot : t.lookup args.dest_parent_fd args.dest_leaf = d.lookup args.dest_parent_fd args.dest_leaf
  tree : ∀ root, d.child args.dest_parent_fd args.dest_leaf = some root → d.Agrees root (fun _ => True) t

/-- What attempts at a copy make, one after another: each is killed anywhere, or it ends, and it has whatever source the
lease gives it. -/
inductive CopyRun (args : CopyArguments) (start : RootState) : RootState → Prop
  | start : CopyRun args start start
  | killed {depth : Nat} {source : Except Raised CopySource} {minted : String} {s t : RootState} : CopyRun args start s →
    is_operation_id minted = true → (copy_command depth args source minted).Passes s t → CopyRun args start t
  | ended {depth : Nat} {source : Except Raised CopySource} {minted : String} {s : RootState} : CopyRun args start s →
    is_operation_id minted = true → CopyRun args start (copy_command depth args source minted s).final
  | resumption_killed {depth : Nat} {claimed : Option CopyPlan} {source : Except Raised CopySource} {s t : RootState} :
    CopyRun args start s → (∀ plan ∈ claimed, plan.args = args) → (resume_copy depth args claimed source).Passes s t →
    CopyRun args start t
  | resumption_ended {depth : Nat} {claimed : Option CopyPlan} {source : Except Raised CopySource} {s : RootState} :
    CopyRun args start s → (∀ plan ∈ claimed, plan.args = args) →
    CopyRun args start (resume_copy depth args claimed source s).final
  | aside {s : RootState} {d : Disk} : CopyRun args start s → Aside args s.disk d → CopyRun args start { s with disk := d }

/-- What others do leaves the copy where it was. -/
theorem InCopy.aside (h : InCopy args s) (haside : Aside args s.disk d) : InCopy args { s with disk := d } := by
  cases h with
  | absent _ hparent habsent hrow =>
    exact .absent haside.formed (hparent.trans_le haside.next) (haside.slot.trans habsent) hrow
  | @present root h =>
    have hagrees := haside.tree root h.destination
    have hsingle : Single d.child root := by
      intro labels labels' inode hleft hright
      refine h.tree.single labels labels' inode ?_ ?_
      · exact (hagrees.directory_at (.inr trivial)).symm.trans hleft
      · exact (hagrees.directory_at (.inr trivial)).symm.trans hright
    refine .present ⟨?_, ⟨haside.formed, h.tree.old.trans_le haside.next, hsingle⟩, h.accepted, h.fresh,
      h.phased.agrees hagrees h.accepted⟩
    exact (Disk.child_congr haside.slot).trans h.destination

theorem CopyRun.in_copy (hhex : Hexadecimal) (hstart : Uncopied args start) (h : CopyRun args start s) : InCopy args s := by
  induction h with
  | start => exact .absent hstart.formed hstart.parent hstart.absent hstart.operation
  | killed _ hminted hpasses ih => exact (copy_command_ensures hhex hminted hstart.leaf _ _ ih).passes hpasses
  | ended _ hminted ih => exact (copy_command_ensures hhex hminted hstart.leaf _ _ ih).2
  | resumption_killed _ hclaimed hpasses ih => exact (resume_copy_ensures hhex hclaimed _ _ ih).passes hpasses
  | resumption_ended _ hclaimed ih => exact (resume_copy_ensures hhex hclaimed _ _ ih).2
  | aside _ haside ih => exact ih.aside haside

/-- Without the claim, the paths of a finished copy are those that are expected. -/
theorem Copied.paths (h : Copied args root entries digest d) (hd : d.Tree root) (hclaim : d.lookup root ROOT_CLAIM_LEAF = none)
    (path : String) : (state_at d root (components path)).isSome = true ↔
      path ∈ expected_paths args (entries.map Prod.fst) digest := by
  obtain ⟨proof, hlists, hpaths⟩ := h.proof
  rw [← hpaths path, List.mem_map, Option.isSome_iff_exists]
  constructor
  · rintro ⟨state, hstate⟩
    obtain ⟨name, rest, hcomponents⟩ := List.exists_cons_of_ne_nil (components_ne_nil path)
    refine ⟨(path, state), (hlists path state).mpr ⟨name, rest, ?_, ?_, ?_⟩, rfl⟩
    · intro hname
      rw [hcomponents, List.mem_singleton.mp hname, state_at, Disk.entry_at_absent hclaim] at hstate
      cases hstate
    · rw [← hcomponents, joined_components]
    · rw [← hcomponents, hstate]
  · rintro ⟨⟨_, state⟩, hitem, rfl⟩
    obtain ⟨name, rest, _, rfl, hstate⟩ := (hlists _ _).mp hitem
    refine ⟨state, ?_⟩
    rw [components_spelled (spelled_of_state_at hd.spelled hstate) (List.cons_ne_nil _ _), hstate]

end

/-! The copy of a root that is empty. -/

section

attribute [local instance] plain_text genesis_digest

/-- A volume with the directory of a destination and an empty source. -/
def two_roots : RootState where
  disk := { entries := ⟨[], []⟩, contents := ⟨[], []⟩, modes := ⟨[], []⟩, next := 2, umask := 0o022, short_writes := [] }
  carrier := ⟨0, ⟨none, none⟩⟩

def plain_copy : CopyArguments where
  source_root := "/s"
  source_metadata_root := "/m"
  dest_root := "/d"
  dest_metadata_root := "/n"
  storage := ⟨"l"⟩
  fork := none
  machine_id := String.ofList (List.replicate 32 'a')
  dest_parent_fd := 0
  dest_leaf := "d"

def plain_source : CopySource where
  root_fd := 1
  tip := String.ofList (List.replicate 64 'c')

def copied_roots : RootState := (copy_command 2 plain_copy (.ok plain_source) minted_id two_roots).final

theorem uncopied_two_roots : Uncopied plain_copy two_roots where
  formed := ⟨fun _ _ _ hentry => (by cases hentry), fun _ _ _ => rfl, fun _ _ _ hentry => (by cases hentry)⟩
  parent := Nat.zero_lt_succ 1
  absent := rfl
  operation := rfl
  leaf := by decide

set_option maxRecDepth 100000 in
theorem copied_roots_complete :
    copied_roots.carrier.tables.operation.map RootOperationRow.phase = some .complete := by decide +kernel

theorem copied_roots_run : CopyRun plain_copy two_roots copied_roots := .ended .start minted_minted_id

end

end atoms.coordinator
