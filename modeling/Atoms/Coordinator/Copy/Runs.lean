import Atoms.Coordinator.Copy.Publish

open atoms.errors atoms.fingerprint atoms.identifiers atoms.paths atoms.spec atoms.recovery atoms.fs atoms.store atoms.chain
  checked crash routes

namespace atoms.coordinator

/-! The attempts at a copy, one after another. -/

variable [UnicodeData] [Sha256] {depth : Nat} {args : CopyArguments} {root : Inode} {s t : RootState} {plan : CopyPlan}
  {minted : String}

/-- What attempts at a copy, killed anywhere, may have left. -/
inductive InCopy (args : CopyArguments) (s : RootState) : Prop
  | absent : s.disk.Formed → args.dest_parent_fd < s.disk.next →
    s.disk.lookup args.dest_parent_fd args.dest_leaf = none → s.carrier.tables.operation = none → InCopy args s
  | present {root : Inode} : InDestination args root s → InCopy args s

theorem InDestination.kept {P : Except Raised Unit → RootState → Prop} {p : Rooted Unit}
    (h : p.Ensures s (InDestination args root) P) (hP : ∀ r t, P r t → InDestination args root t) :
    p.Ensures s (InCopy args) fun _ t => InCopy args t :=
  h.mono (fun _ ht => .present ht) fun r t ht => .present (hP r t ht)

/-- The store of a destination is opened. -/
theorem open_store_ensures (h : InDestination args root s) : open_store.Ensures s (InDestination args root)
    (Prog.ends (fun _ t => InDestination args root t ∧ t.carrier.version ≠ 0) (InDestination args root)) := by
  refine .call (fun _ t hcall => ?_) fun e _ => h
  split at hcall
  · rename_i hzero
    cases hcall
    have hphased := h.phased
    rw [h.fresh hzero] at hphased
    have hnew : InDestination args root { s with carrier := ⟨3, ⟨none, none⟩⟩ } :=
      ⟨h.destination, h.tree, h.accepted, fun _ => rfl, hphased⟩
    exact ⟨hnew, hnew, Nat.succ_ne_zero 2⟩
  · split at hcall
    · cases hcall
    · rename_i hversion _
      cases hcall
      exact ⟨h, h, hversion⟩

/-- Under the lease, the destination is there and its store is open. -/
theorem claimed_destination_lease_ensures (h : InCopy args s) : (claimed_destination_lease args).Ensures s (InCopy args)
    (Prog.ends (fun root t => InDestination args root t ∧ t.carrier.version ≠ 0) (InCopy args)) := by
  have hopen : (open_child_directory args.dest_parent_fd args.dest_leaf).Ensures s.disk (fun d => InCopy args { s with disk := d })
      (Prog.ends (fun root d => d = s.disk ∧ InDestination args root s) fun d => d = s.disk) := by
    refine Prog.Reads.ensures (.read _) (fun root hroot => ⟨rfl, ?_⟩) fun e => rfl
    have hchild := open_child_directory_completes hroot
    cases h with
    | absent _ _ habsent _ =>
      rw [Disk.child_eq_some_iff, habsent] at hchild
      cases hchild
    | present h =>
      rw [h.destination, Option.some.injEq] at hchild
      exact hchild ▸ h
  refine in_root_bind hopen ?_ fun e d hd => hd ▸ h
  rintro root _ ⟨rfl, h⟩
  refine ((open_store_ensures h).mono (fun _ ht => .present ht) fun _ _ ht => ht).bind (fun _ t ht => .pure ht)
    fun e t ht => .present ht

/-- A copy goes on with its source. -/
theorem finish_with_source_ensures (hhex : Hexadecimal) (hplan : plan.args = args) (source : Except Raised CopySource) :
    Prog.Keeps (InCopy args) (finish_with_source depth plan source) := by
  intro s h
  refine in_root_lift_bind (fun source _ => in_root_lift_bind (fun _ _ => ?_) fun e _ => h) fun e _ => h
  rw [hplan]
  refine (claimed_destination_lease_ensures h).bind ?_ fun e t ht => ht
  rintro root t ⟨ht, hversion⟩
  have hadvance : (advance_copy depth plan (some source) root).Ensures t (InCopy args) fun _ u => InCopy args u :=
    InDestination.kept (advance_copy_ensures hhex hplan ht hversion) fun _ _ hu => hu
  refine .read_bind (fun row _ => ?_) fun e _ => .present ht
  cases row with
  | none => exact hadvance
  | some row => exact in_root_lift_bind (fun _ _ => hadvance) fun e _ => .present ht

omit [UnicodeData] [Sha256] in
theorem adopt_claim_args {observed : Option String} {claim : RootClaim}
    (h : adopt_claim args observed claim = .ok plan) : plan.args = args := by
  obtain ⟨_, _, h⟩ := bind_eq_ok_iff.mp h
  cases observed <;>
  · obtain ⟨_, _, h⟩ := bind_eq_ok_iff.mp h
    obtain ⟨_, _, h⟩ := bind_eq_ok_iff.mp h
    obtain rfl := pure_eq_ok_iff.mp h
    rfl

theorem resumed_plan_args {claimed : Option CopyPlan} {row : Option RootOperationRow}
    (hclaimed : ∀ plan ∈ claimed, plan.args = args) (h : resumed_plan args claimed row = .ok plan) : plan.args = args := by
  cases row with
  | none =>
    cases claimed with
    | none => cases h
    | some claimed =>
      obtain rfl := pure_eq_ok_iff.mp h
      exact hclaimed _ rfl
  | some row =>
    cases claimed with
    | some claimed =>
      obtain ⟨_, _, h⟩ := bind_eq_ok_iff.mp h
      obtain rfl := pure_eq_ok_iff.mp h
      exact hclaimed _ rfl
    | none =>
      obtain ⟨_, _, h⟩ := bind_eq_ok_iff.mp h
      obtain ⟨_, _, h⟩ := bind_eq_ok_iff.mp h
      obtain ⟨_, _, h⟩ := bind_eq_ok_iff.mp h
      obtain rfl := pure_eq_ok_iff.mp h
      rfl

/-- A destination is resumed. -/
theorem resume_copy_ensures (hhex : Hexadecimal) {claimed : Option CopyPlan} (hclaimed : ∀ plan ∈ claimed, plan.args = args)
    (source : Except Raised CopySource) : Prog.Keeps (InCopy args) (resume_copy depth args claimed source) := by
  intro s h
  refine (claimed_destination_lease_ensures h).bind ?_ fun e t ht => ht
  rintro root t ⟨ht, hversion⟩
  refine .read_bind (fun row _ => in_root_lift_bind (fun plan hplan => ?_) fun e _ => .present ht) fun e _ => .present ht
  have hargs := resumed_plan_args hclaimed hplan
  have hfinish : ∀ needs_source u, InCopy args u →
      (do
        if needs_source = true then finish_with_source depth plan source else pure ()
        pure plan.operation_id : Rooted String).Ensures u (InCopy args) fun _ v => InCopy args v := by
    intro needs_source u hu
    exact Prog.Keeps.ite ((finish_with_source_ensures hhex hargs source).bind fun _ => .pure _) (.pure _) u hu
  refine .bind (Q := Prog.ends (fun _ u => InCopy args u) (InCopy args)) ?_ (fun needs_source u hu => hfinish needs_source u hu) fun e u hu => hu
  refine .tryCatch (Q := fun _ u => InCopy args u) ?_ (fun _ _ hu => hu) fun e u hu => ?_
  · exact .bind (InDestination.kept (advance_copy_ensures hhex hargs ht hversion) fun _ _ hu => hu) (fun _ u hu => .pure hu)
      fun _ _ hu => hu
  · split
    · exact .pure hu
    · exact .throw hu

/-! A fresh copy. -/

omit [UnicodeData] [Sha256] in
theorem fresh_plan_args {source : CopySource} (h : fresh_plan args source minted = .ok plan) :
    plan.args = args ∧ plan.operation_id = minted := by
  unfold fresh_plan at h
  split at h
  · obtain rfl := pure_eq_ok_iff.mp h
    exact ⟨rfl, rfl⟩
  · obtain ⟨_, _, h⟩ := bind_eq_ok_iff.mp h
    obtain rfl := pure_eq_ok_iff.mp h
    exact ⟨rfl, rfl⟩

omit [UnicodeData] [Sha256] in
theorem reads_find_destination (args : CopyArguments) : (find_destination args).Reads := by
  refine .tryCatch (.bind (.read _) fun _ => .pure _) fun caught => ?_
  split
  · exact .ite (.pure _) (.throw _)
  · exact .throw _

omit [UnicodeData] in
theorem reads_preflight_claim (args : CopyArguments) : (preflight_claim args).Reads := by
  refine .bind (reads_find_destination args) fun found => ?_
  cases found with
  | none => exact .pure _
  | some root =>
    refine .bind (reads_read_root_claim root) fun payload => ?_
    cases payload with
    | none => exact .pure _
    | some bytes => exact .bind (.read _) fun _ => .pure _

/-- What the publication leaves is a destination of the copy. -/
theorem Clear.in_copy (h : Clear args.dest_parent_fd args.dest_leaf s.disk) (haccepted : ∀ fork ∈ args.fork, fork.Accepted)
    (hrow : s.carrier.tables.operation = none) : InCopy args s := by
  cases hslot : s.disk.lookup args.dest_parent_fd args.dest_leaf with
  | none => exact .absent h.formed h.parent hslot hrow
  | some entry =>
    obtain ⟨root, rfl, hhollow⟩ := h.slot entry hslot
    have hphased : Phased args root s.disk s.carrier.tables.operation := by
      rw [hrow]
      exact fun fork _ => .inl hhollow.chain
    exact .present ⟨Disk.child_eq_some_iff.mpr hslot, hhollow.tree h.formed, haccepted, fun _ => hrow, hphased⟩

/-- The destination is published, or the claim of another attempt is adopted. -/
theorem publish_or_adopt_ensures {d : Disk} {claim : List UInt8} (hid : is_operation_id plan.operation_id = true)
    (hleaf : plan.args.dest_leaf ≠ "" ∧ '/' ∉ plan.args.dest_leaf.toList)
    (h : Clear plan.args.dest_parent_fd plan.args.dest_leaf d) :
    (publish_or_adopt plan claim).Ensures d (Clear plan.args.dest_parent_fd plan.args.dest_leaf)
      (Prog.ends (fun found t => found.args = plan.args ∧ Clear plan.args.dest_parent_fd plan.args.dest_leaf t)
        (Clear plan.args.dest_parent_fd plan.args.dest_leaf)) := by
  refine .tryCatch (Q := Prog.ends (fun found t => found.args = plan.args ∧
    Clear plan.args.dest_parent_fd plan.args.dest_leaf t) (Clear plan.args.dest_parent_fd plan.args.dest_leaf)) ?_
    (fun _ _ ht => ht) fun e t ht => ?_
  · exact .bind (keeps_publish_claimed_destination hid hleaf d h) (fun _ t ht => .pure ⟨rfl, ht⟩) fun e t ht => ht
  · split
    · refine (reads_preflight_claim plan.args).ensures_bind (fun raced _ => ?_) fun e => ht
      cases raced with
      | none => exact .throw ht
      | some raced =>
        refine .read ?_
        cases hadopted : adopt_claim plan.args (some plan.source_head) raced with
        | error e => exact ht
        | ok found => exact ⟨adopt_claim_args hadopted, ht⟩
    · exact .throw ht

theorem fresh_copy_ensures (hhex : Hexadecimal) (hminted : is_operation_id minted = true)
    (hleaf : args.dest_leaf ≠ "" ∧ '/' ∉ args.dest_leaf.toList) (haccepted : ∀ fork ∈ args.fork, fork.Accepted)
    (source : Except Raised CopySource) (hformed : s.disk.Formed) (hparent : args.dest_parent_fd < s.disk.next)
    (habsent : s.disk.lookup args.dest_parent_fd args.dest_leaf = none) (hrow : s.carrier.tables.operation = none) :
    (fresh_copy depth args source minted).Ensures s (InCopy args) fun _ t => InCopy args t := by
  have hstart : InCopy args s := .absent hformed hparent habsent hrow
  refine in_root_lift_bind (fun source _ => in_root_lift_bind (fun plan hplan => in_root_lift_bind (fun claim _ => ?_)
    fun e _ => hstart) fun e _ => hstart) fun e _ => hstart
  obtain ⟨rfl, rfl⟩ := fresh_plan_args hplan
  have hclear : Clear plan.args.dest_parent_fd plan.args.dest_leaf s.disk := by
    refine ⟨hformed, hparent, fun entry hentry => ?_⟩
    rw [habsent] at hentry
    cases hentry
  have hin : ∀ d, Clear plan.args.dest_parent_fd plan.args.dest_leaf d → InCopy plan.args { s with disk := d } :=
    fun d hd => hd.in_copy haccepted hrow
  refine in_root_bind ((publish_or_adopt_ensures hminted hleaf hclear).mono hin fun _ _ hd => hd) ?_ fun e d hd => hin d hd
  rintro found d ⟨hargs, hd⟩
  refine (claimed_destination_lease_ensures (hin d hd)).bind ?_ fun e t ht => ht
  rintro root t ⟨ht, hversion⟩
  refine .bind (InDestination.kept (advance_copy_ensures hhex hargs ht hversion) fun _ _ hu => hu) (fun _ u hu => .pure hu)
    fun e u hu => hu

/-! The commands. -/

omit [UnicodeData] [Sha256] in
/-- A destination that is there is found. -/
theorem find_destination_returns {d : Disk} (h : d.child args.dest_parent_fd args.dest_leaf = some root) :
    (find_destination args).Returns d (some root) := by
  rw [Disk.child_eq_some_iff] at h
  exact .try_ok (.bind (.read (by rw [h])) .pure)

theorem copy_root_ensures (hhex : Hexadecimal) (hminted : is_operation_id minted = true)
    (hleaf : args.dest_leaf ≠ "" ∧ '/' ∉ args.dest_leaf.toList) (haccepted : ∀ fork ∈ args.fork, fork.Accepted)
    (source : Except Raised CopySource) : Prog.Keeps (InCopy args) (copy_root depth args source minted) := by
  intro s h
  refine in_root_reads_bind (reads_preflight_claim args) (fun found _ => ?_) fun e => h
  cases found with
  | some claim =>
    refine in_root_lift_bind (fun plan hplan => ?_) fun e _ => h
    exact resume_copy_ensures hhex (fun _ heq => Option.some.inj heq ▸ adopt_claim_args hplan) source s h
  | none =>
    refine in_root_reads_bind (reads_find_destination args) (fun found hfound => ?_) fun e => h
    cases found with
    | none =>
      cases h with
      | absent hformed hparent habsent hrow => exact fresh_copy_ensures hhex hminted hleaf haccepted source hformed hparent habsent hrow
      | present h => cases ((find_destination_returns h.destination).completes hfound).1
    | some root =>
      refine .read_bind (fun version _ => ?_) fun e _ => h
      have hkept : Prog.Keeps (InCopy args) (resume_copy depth args none source) :=
        resume_copy_ensures hhex (fun _ heq => by cases heq) source
      exact Prog.Keeps.ite (.throw _) hkept s h

/-- A request for a copy. -/
theorem copy_command_ensures (hhex : Hexadecimal) (hminted : is_operation_id minted = true)
    (hleaf : args.dest_leaf ≠ "" ∧ '/' ∉ args.dest_leaf.toList) (source : Except Raised CopySource) :
    Prog.Keeps (InCopy args) (copy_command depth args source minted) := by
  intro s h
  unfold copy_command
  cases hfork : args.fork with
  | none =>
    refine copy_root_ensures hhex hminted hleaf (fun fork hmem => ?_) source s h
    rw [hfork] at hmem
    cases hmem
  | some fork =>
    refine in_root_lift_bind (fun _ hvalid => ?_) fun e _ => h
    obtain ⟨_, _, hvalid⟩ := bind_eq_ok_iff.mp hvalid
    obtain ⟨_, hsurface, hoverrides⟩ := bind_eq_ok_iff.mp hvalid
    refine copy_root_ensures hhex hminted hleaf (fun fork' hmem => ?_) source s h
    rw [hfork] at hmem
    obtain rfl := Option.some.inj hmem
    exact ⟨hsurface, hoverrides⟩

end atoms.coordinator
