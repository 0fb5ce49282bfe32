import Atoms.Coordinator.Copy.Faithful

open atoms.errors atoms.fingerprint atoms.identifiers atoms.paths atoms.spec atoms.fs atoms.store atoms.chain checked crash
  keyed

namespace atoms.coordinator

/-! A completed copy from then on. -/

section

variable [UnicodeData] [Sha256] {depth : Nat} {args args' : CopyArguments} {root : Inode} {start s t : RootState}
  {row : RootOperationRow} {minted : String}

/-- There is nothing to advance in an operation that is complete. -/
theorem advance_copy_complete {plan : CopyPlan} {source : Option CopySource} (hrow : s.carrier.tables.operation = some row)
    (hphase : row.phase = .complete) : (advance_copy depth plan source root).Ensures s (fun t => t = s) fun _ t => t = s := by
  have hskipped : ∀ phase body, phase ≠ .complete → in_phase phase row body = pure row := by
    intro phase body hne
    rw [in_phase, if_neg fun heq => hne (heq.symm.trans hphase)]
  refine .bind (Q := Prog.ends (fun found t => t = s ∧ found = row) fun t => t = s) ?_ ?_ fun _ _ ht => ht
  · refine .read_bind (fun found hfound => ?_) fun e _ => rfl
    cases hfound
    rw [hrow]
    exact in_root_lift_bind (fun _ _ => .pure ⟨rfl, rfl⟩) fun e _ => rfl
  · rintro found t ⟨ht, hfound⟩
    rw [ht, hfound, hskipped _ _ (by decide)]
    refine .bind (Q := Prog.ends (fun found t => t = s ∧ found = row) fun t => t = s) (.pure ⟨rfl, rfl⟩) ?_ fun _ _ ht => ht
    rintro found t ⟨ht, hfound⟩
    rw [ht, hfound, hskipped _ _ (by decide)]
    refine .bind (Q := Prog.ends (fun found t => t = s ∧ found = row) fun t => t = s) (.pure ⟨rfl, rfl⟩) ?_ fun _ _ ht => ht
    rintro found t ⟨ht, hfound⟩
    rw [ht, hfound, if_neg fun heq => by rw [hphase] at heq; cases heq]
    exact .pure rfl

omit [UnicodeData] [Sha256] in
/-- The store that is there is opened as it is. -/
theorem lease_unchanged (hversion : s.carrier.version ≠ 0) :
    (claimed_destination_lease args).Ensures s (fun t => t = s) fun _ t => t = s := by
  have hopen : open_store.Ensures s (fun t => t = s) fun _ t => t = s := by
    refine .call (fun _ t hcall => ?_) fun _ _ => rfl
    rw [if_neg hversion] at hcall
    split at hcall
    · cases hcall
    · cases hcall
      exact ⟨rfl, rfl⟩
  refine in_root_reads_bind (.read _) (fun root _ => ?_) fun e => rfl
  exact hopen.bind (fun _ _ ht => .pure ht) fun _ _ ht => ht

theorem resume_copy_complete {claimed : Option CopyPlan} {source : Except Raised CopySource} (hversion : s.carrier.version ≠ 0)
    (hrow : s.carrier.tables.operation = some row) (hphase : row.phase = .complete) :
    (resume_copy depth args claimed source).Ensures s (fun t => t = s) fun _ t => t = s := by
  have hadvance : ∀ plan source root, (advance_copy depth plan source root).Ensures s (fun t => t = s) fun _ t => t = s :=
    fun plan source root => advance_copy_complete hrow hphase
  have hfinish : ∀ plan, (finish_with_source depth plan source).Ensures s (fun t => t = s) fun _ t => t = s := by
    refine fun plan => in_root_lift_bind (fun source _ => in_root_lift_bind (fun _ _ => ?_) fun e _ => rfl) fun e _ => rfl
    refine (lease_unchanged hversion).bind (fun root t ht => ?_) fun _ _ ht => ht
    rw [ht]
    refine .read_bind (fun found _ => ?_) fun e _ => rfl
    cases found with
    | none => exact hadvance _ _ _
    | some found => exact in_root_lift_bind (fun _ _ => hadvance _ _ _) fun e _ => rfl
  refine (lease_unchanged hversion).bind (fun root t ht => ?_) fun _ _ ht => ht
  rw [ht]
  refine .read_bind (fun found _ => in_root_lift_bind (fun plan _ => ?_) fun e _ => rfl) fun e _ => rfl
  refine .bind (Q := fun _ t => t = s) ?_ (fun needs_source t ht => ?_) fun _ _ ht => ht
  · refine .tryCatch (Q := fun _ t => t = s) ?_ (fun _ _ ht => ht) fun caught t ht => ?_
    · exact (hadvance _ _ _).bind (fun _ _ ht => .pure ht) fun _ _ ht => ht
    · split
      · exact .pure ht
      · exact .throw ht
  · rw [ht]
    cases needs_source with
    | false => exact .pure rfl
    | true => exact (hfinish plan).bind (fun _ _ ht => .pure ht) fun _ _ ht => ht

/-- A destination without its claim, whose operation is complete, stays as it is whatever is asked for in its place. -/
theorem copy_command_complete (source : Except Raised CopySource)
    (hplace : s.disk.lookup args.dest_parent_fd args.dest_leaf = some ⟨.directory, root⟩)
    (hclaim : s.disk.lookup root ROOT_CLAIM_LEAF = none) (hversion : s.carrier.version ≠ 0)
    (hrow : s.carrier.tables.operation = some row) (hphase : row.phase = .complete) :
    (copy_command depth args source minted).Ensures s (fun t => t = s) fun _ t => t = s := by
  have hfind := find_destination_returns (Disk.child_eq_some_iff.mpr hplace)
  have hnone : leaf s.disk root ROOT_CLAIM_LEAF = (none : Option (List UInt8)).map some := leaf_eq_none_iff.mpr hclaim
  have hpreflight : (preflight_claim args).Returns s.disk none := .bind hfind (.bind (read_root_claim_returns hnone) .pure)
  have hcopy : (copy_root depth args source minted).Ensures s (fun t => t = s) fun _ t => t = s := by
    refine in_root_returns_bind hpreflight (in_root_returns_bind hfind ?_)
    refine .read_bind (fun version _ => ?_) fun e _ => rfl
    split
    · exact .throw rfl
    · exact resume_copy_complete hversion hrow hphase
  unfold copy_command
  cases args.fork with
  | none => exact hcopy
  | some fork => exact in_root_lift_bind (fun _ _ => hcopy) fun e _ => rfl

/-- No request touches a copy that is complete: whatever is asked for in its place, the volume and the tables stay. -/
theorem completed_copy_stays (depth : Nat) (hhex : Hexadecimal) (hstart : Uncopied args start) (hrun : CopyRun args start s)
    (hrow : s.carrier.tables.operation = some row) (hphase : row.phase = .complete)
    (hplace : args'.dest_parent_fd = args.dest_parent_fd ∧ args'.dest_leaf = args.dest_leaf) (source : Except Raised CopySource)
    (minted : String) : (∀ t, (copy_command depth args' source minted).Passes s t → t = s) ∧
      (copy_command depth args' source minted s).final = s := by
  cases hrun.in_copy hhex hstart with
  | absent _ _ _ hnone =>
    rw [hnone] at hrow
    cases hrow
  | @present root h =>
    have hphased := h.phased
    simp only [hrow, Phased, hphase] at hphased
    obtain ⟨_, _, _, _, hclaim⟩ := hphased
    have hdestination : s.disk.lookup args'.dest_parent_fd args'.dest_leaf = some ⟨.directory, root⟩ := by
      rw [hplace.1, hplace.2]
      exact Disk.child_eq_some_iff.mp h.destination
    have hensures : (copy_command depth args' source minted).Ensures s (fun t => t = s) fun _ t => t = s :=
      copy_command_complete source hdestination hclaim (h.versioned hrow) hrow hphase
    exact ⟨fun t hpasses => hensures.passes hpasses, hensures.2⟩

omit [UnicodeData] [Sha256] in
/-- Two listings of one tree are the same. -/
theorem Listing.unique {skipped skipped' : List String} {entries entries' : List (String × PathState)}
    (h : Listing skipped entries) (h' : Listing skipped' entries') (hmem : ∀ item, item ∈ entries ↔ item ∈ entries') :
    entries = entries' := by
  have hperm : entries.Perm entries' := (List.perm_ext_iff_of_nodup h.nodup.of_map h'.nodup.of_map).mpr hmem
  refine hperm.eq_of_pairwise (fun left right hleft hright hle hge => ?_) h.sorted h'.sorted
  have hpath : left.1 = right.1 := String.le_antisymm hle hge
  exact List.inj_on_of_nodup_map h.nodup hleft ((hmem right).mpr hright) hpath

end

/-! The copy of a root that is empty, asked for once more, and read again. -/

section

attribute [local instance] plain_text genesis_digest

theorem copied_roots_stay : (copy_command 2 plain_copy (.ok plain_source) minted_id copied_roots).final = copied_roots := by
  obtain ⟨row, hrow, hphase⟩ := Option.map_eq_some_iff.mp copied_roots_complete
  have hplace : plain_copy.dest_parent_fd = plain_copy.dest_parent_fd ∧ plain_copy.dest_leaf = plain_copy.dest_leaf := ⟨rfl, rfl⟩
  obtain ⟨_, hstays⟩ := completed_copy_stays 2 hexadecimal_genesis_digest uncopied_two_roots copied_roots_run hrow hphase hplace
    (.ok plain_source) minted_id
  exact hstays

end

end atoms.coordinator
