import Atoms.Coordinator.Register.Operation

open atoms.errors atoms.fingerprint atoms.identifiers atoms.spec atoms.fs atoms.store atoms.chain checked crash

namespace atoms.coordinator

variable [UnicodeData] [Sha256] {depth : Nat} {root : Inode} {args : Registration} {base : Disk} {s : RootState}
  {operation_id : String} {request : OperationRequest} {claim : List UInt8} {snapshot : Snapshot} {digest : String}

/-- The root is writable for the caller, without a claim, and its chain is one genesis with the payload and the surface. -/
structure Registered (root : Inode) (args : Registration) (digest : String) (s : RootState) : Prop where
  writable : ∃ view, classify_carrier s.carrier args.machine_id args.project_root = .ok view ∧ view.state = .WRITABLE
  unclaimed : s.disk.lookup root ROOT_CLAIM_LEAF = none
  genesis : ∃ chain_fd genesis, s.disk.lookup root CHAIN_LEAF = some ⟨.directory, chain_fd⟩ ∧
    (validate_chain chain_fd []).Completes s.disk ⟨[(digest, .GenesisEntry genesis)], some digest, none⟩ s.disk ∧
    genesis.payload = args.genesis_payload ∧ genesis.baseline.map Prod.fst = args.registered_surface

/-- An operation whose tree proof is stored. -/
structure Durable (depth : Nat) (root : Inode) (args : Registration) (base : Disk) (claim : List UInt8) (digest : String)
    (s : RootState) : Prop where
  beside : Beside root base s.disk
  accepted : Accepted depth root args base
  rows : ∃ operation_id request snapshot, Claims args operation_id request claim ∧
    s.carrier = ⟨3, some (durable_row operation_id request snapshot digest),
      some (lifecycle_row args .read_only_unserviceable)⟩ ∧
    snapshot_of s.disk depth root digest false = .ok snapshot
  claim : ∀ bytes ∈ leaf s.disk root ROOT_CLAIM_LEAF, bytes = some claim
  chain : Founded root args base digest s.disk

theorem Durable.left (h : Durable depth root args base claim digest s) : Left depth root args base s := by
  obtain ⟨operation_id, request, snapshot, hclaims, hcarrier, hsnapshot⟩ := h.rows
  exact ⟨h.beside, .durable hclaims h.accepted hcarrier h.claim h.chain hsnapshot⟩

theorem Founded.congr {d d' : Disk} (h : Founded root args base digest d) (hold : root < base.next)
    (hlookup : ∀ parent name, (parent, name) ≠ (root, ROOT_CLAIM_LEAF) → d'.lookup parent name = d.lookup parent name)
    (hcontents : ∀ inode, d'.contents.get inode = d.contents.get inode) : Founded root args base digest d' := by
  obtain ⟨fd, baseline, envelope, hfd, hnew, hgenesis, hdigest, hdirectory⟩ := h
  refine ⟨fd, baseline, envelope, ?_, hnew, hgenesis, hdigest, hdirectory.congr fun name => ?_⟩
  · rw [hlookup _ _ fun heq => absurd (Prod.mk.inj heq).2 (by decide), hfd]
  · refine leaf_congr (hlookup fd name fun heq => ?_) fun entry _ => hcontents _
    exact absurd (Prod.mk.inj heq).1 (Nat.ne_of_gt (hold.trans_le hnew))

/-- A durable operation stays so where the claim alone may be gone. -/
theorem Durable.congr (h : Durable depth root args base claim digest s) (hold : root < base.next)
    (hroot : base.Unreached root) {d : Disk} (hbeside : Beside root base d)
    (hlookup : ∀ parent name, (parent, name) ≠ (root, ROOT_CLAIM_LEAF) → d.lookup parent name = s.disk.lookup parent name)
    (hcontents : ∀ inode, d.contents.get inode = s.disk.contents.get inode)
    (hmodes : ∀ inode, d.modes.get inode = s.disk.modes.get inode)
    (hclaim : ∀ bytes ∈ leaf d root ROOT_CLAIM_LEAF, bytes = some claim) :
    Durable depth root args base claim digest { s with disk := d } where
  beside := hbeside
  accepted := h.accepted
  rows := by
    obtain ⟨operation_id, request, snapshot, hclaims, hcarrier, hsnapshot⟩ := h.rows
    refine ⟨operation_id, request, snapshot, hclaims, hcarrier, ?_⟩
    rw [snapshot_of_congr (h.beside.apart.unreached hold hroot) hlookup hcontents hmodes, hsnapshot]
  claim := hclaim
  chain := h.chain.congr hold hlookup hcontents

theorem Durable.fsync (h : Durable depth root args base claim digest s) (hold : root < base.next)
    (hroot : base.Unreached root) (inode : Inode) :
    Durable depth root args base claim digest { s with disk := s.disk.fsync inode } := by
  refine h.congr hold hroot (h.beside.fsync inode) (fun parent name _ => Disk.lookup_fsync _ _ _ _)
    (fun other => Disk.get_contents_fsync _ _ _) (fun other => writeback.Cache.get_flush _ _ _) fun bytes hbytes => ?_
  rw [leaf_fsync] at hbytes
  exact h.claim bytes hbytes

/-- The chain of a founded root validates as the one genesis. -/
theorem Founded.validates {d : Disk} (hbeside : Beside root base d) (hbase : base.Numbered) (hroot : base.Unreached root)
    (hold : root < base.next) (hsurface : validate_registered_surface args.registered_surface = .ok ())
    (h : Founded root args base digest d) : ∃ chain_fd genesis, d.lookup root CHAIN_LEAF = some ⟨.directory, chain_fd⟩ ∧
      (validate_chain chain_fd []).Completes d ⟨[(digest, .GenesisEntry genesis)], some digest, none⟩ d ∧
      genesis.payload = args.genesis_payload ∧ genesis.baseline.map Prod.fst = args.registered_surface := by
  obtain ⟨fd, baseline, envelope, hfd, _, hgenesis, rfl, hdirectory⟩ := h
  exact ⟨fd, _, hfd, ⟨[], validate_chain_nil hdirectory (valid_genesis_of args baseline envelope)⟩, rfl,
    genesis_paths hbeside hbase hroot hold hsurface hgenesis.captured⟩

theorem Founded.hex {d : Disk} (hhex : Hexadecimal) (h : Founded root args base digest d) : is_hex_digest digest = true := by
  obtain ⟨fd, baseline, envelope, _, _, _, rfl, _⟩ := h
  exact hhex envelope

omit [Sha256] in
theorem classify_complete (operation_id : String) (request : OperationRequest) (snapshot : Snapshot) (digest : String) :
    classify_carrier ⟨3, some (complete_row operation_id request snapshot digest), some (lifecycle_row args .writable)⟩
      args.machine_id args.project_root =
    .ok ⟨.WRITABLE, some (complete_row operation_id request snapshot digest), 3⟩ := by
  simp [classify_carrier, require_root_row_pair, lifecycle_row, complete_row, durable_row, recorded_row,
    RootOperationKind.origin, lifecycle_state]

/-- The end of a registration whose operation is durable. -/
def complete_registration (root_fd : Inode) (claim : List UInt8) (digest : String) : Rooted String := do
  in_root (remove_root_claim root_fd claim)
  complete_root_operation .writable
  pure digest

theorem complete_registration_ensures (hhex : Hexadecimal) (hold : root < base.next) (hbase : base.Numbered)
    (hroot : base.Unreached root) (h : Durable depth root args base claim digest s) :
    (complete_registration root claim digest).Ensures s (Left depth root args base)
      (Prog.ends (fun found t => Left depth root args base t ∧ Registered root args found t) fun _ => False) := by
  have hremove : (remove_root_claim root claim).Ensures s.disk
      (fun d => Durable depth root args base claim digest { s with disk := d })
      fun r d => r = .ok () ∧ Durable depth root args base claim digest { s with disk := d } ∧
        leaf d root ROOT_CLAIM_LEAF = none := by
    cases hleaf : leaf s.disk root ROOT_CLAIM_LEAF with
    | none =>
      have hread : (read_root_claim root).Returns s.disk none := read_root_claim_returns hleaf
      have hreturns : (remove_root_claim root claim).Returns s.disk () := .bind hread .pure
      exact hreturns.ensures ⟨rfl, h, hleaf⟩
    | some bytes =>
      have hleaf' : leaf s.disk root ROOT_CLAIM_LEAF = some (some claim) := h.claim bytes hleaf ▸ hleaf
      have hgone : leaf (s.disk.set_entry root ROOT_CLAIM_LEAF none) root ROOT_CLAIM_LEAF = none :=
        leaf_eq_none_iff.mpr (Disk.lookup_set_entry_self _ _ _ _)
      have hbeside : Beside root base (s.disk.set_entry root ROOT_CLAIM_LEAF none) :=
        ⟨h.beside.apart.set_entry (.inr ⟨rfl, .inl rfl⟩) fun found hfound => absurd hfound (Option.not_mem_none found),
          h.beside.numbered.set_entry fun found hfound => absurd hfound (Option.not_mem_none found)⟩
      have hremoved : Durable depth root args base claim digest
          { s with disk := s.disk.set_entry root ROOT_CLAIM_LEAF none } := by
        refine h.congr hold hroot hbeside (fun parent name hne => ?_) (fun _ => rfl) (fun _ => rfl) fun bytes hbytes => ?_
        · exact Disk.lookup_set_entry_of_ne _ (Ne.symm hne) _
        · rw [hgone] at hbytes
          cases hbytes
      refine (remove_root_claim_ensures hleaf').mono ?_ ?_
      · rintro d (rfl | rfl)
        · exact hremoved
        · exact hremoved.fsync hold hroot root
      · rintro r d ⟨rfl, rfl⟩
        exact ⟨rfl, hremoved.fsync hold hroot root, (leaf_fsync _ _ _ _).trans hgone⟩
  refine in_root_bind (hremove.mono (fun _ hd => hd.left) fun _ _ hd => hd) ?_ ?_
  · rintro _ d ⟨_, hdurable, hgone⟩
    obtain ⟨operation_id, request, snapshot, hclaims, hcarrier, hsnapshot⟩ := hdurable.rows
    have hdigest := hdurable.chain.hex hhex
    have hcarrier' : s.carrier = _ := hcarrier
    refine commit_tables_bind (fun tables hbody => ?_) fun hnone e => ?_
    · simp only [hcarrier'] at hbody
      obtain rfl := (complete_rows_iff hdigest).mp hbody
      have hcomplete : Left depth root args base { disk := d, carrier := { s.carrier with
          tables := ⟨some (complete_row operation_id request snapshot digest), some (lifecycle_row args .writable)⟩ } } :=
        ⟨hdurable.beside, .complete hclaims.requested hdurable.accepted (by rw [hcarrier']) hgone hdurable.chain⟩
      have hview : classify_carrier ⟨s.carrier.version, some (complete_row operation_id request snapshot digest),
          some (lifecycle_row args .writable)⟩ args.machine_id args.project_root =
          .ok ⟨.WRITABLE, some (complete_row operation_id request snapshot digest), 3⟩ := by
        rw [hcarrier']
        exact classify_complete operation_id request snapshot digest
      exact ⟨hcomplete, .pure ⟨hcomplete, ⟨_, hview, rfl⟩, leaf_eq_none_iff.mp hgone,
        hdurable.chain.validates hdurable.beside hbase hroot hold hclaims.surface⟩⟩
    · refine hnone ⟨some (complete_row operation_id request snapshot digest), some (lifecycle_row args .writable)⟩ ?_
      simp only [hcarrier']
      exact (complete_rows_iff hdigest).mpr rfl
  · rintro e d ⟨heq, _⟩
    cases heq

/-! `_prove_register_tree` -/

/-- The stored proof is the tree that is there. -/
theorem prove_register_tree_returns (h : Durable depth root args base claim digest s) :
    (prove_register_tree depth root digest).Returns s () := by
  obtain ⟨operation_id, request, snapshot, _, hcarrier, hsnapshot⟩ := h.rows
  have htree : (tree_snapshot depth root digest false).Returns s.disk snapshot := .read hsnapshot
  refine Prog.Returns.bind (Prog.Returns.zoom htree) (Prog.Returns.bind (.read rfl) ?_)
  rw [hcarrier]
  have hdigest : require_valid ((durable_row operation_id request snapshot digest).genesis_digest = some digest)
      "the recorded genesis digest does not name the durable genesis" = .ok () := require_of rfl
  have hproof : require_valid ((durable_row operation_id request snapshot digest).destination_snapshot = some snapshot)
      "the recorded tree proof does not match the pre-grant tree" = .ok () := require_of rfl
  exact Prog.Returns.bind (Prog.Returns.zoom (lift_returns hdigest _)) (Prog.Returns.zoom (lift_returns hproof _))

/-- The proof of a recorded operation whose chain is founded. -/
theorem prove_register_tree_ensures (hhex : Hexadecimal) (hold : root < base.next) (hbase : base.Numbered)
    (hroot : base.Unreached root) (habsent : base.lookup root CHAIN_LEAF = none) (hbeside : Beside root base s.disk)
    (hclaims : Claims args operation_id request claim) (hbindable : Bindable args)
    (hcarrier : s.carrier = ⟨3, some (recorded_row operation_id request),
      some (lifecycle_row args .read_only_unserviceable)⟩)
    (hclaim : leaf s.disk root ROOT_CLAIM_LEAF = some (some claim)) (hchain : Founded root args base digest s.disk) :
    (prove_register_tree depth root digest).Ensures s (Left depth root args base)
      (Prog.ends (fun _ t => Durable depth root args base claim digest t)
        fun t => Left depth root args base t ∧ ¬ Accepted depth root args base) := by
  have hleft : Left depth root args base s := ⟨hbeside, .recorded hclaims hbindable hcarrier hclaim (.inr ⟨digest, hchain⟩)⟩
  obtain ⟨fd, baseline, envelope, hfd, hnew, hgenesis, hnamed, hdirectory⟩ := hchain
  have hfounded : Founded root args base digest s.disk :=
    ⟨fd, baseline, envelope, hfd, hnew, hgenesis, hnamed, hdirectory⟩
  have hdeep := walk_founded_iff hbeside hbase hroot hold habsent hfd hdirectory depth
  refine in_root_bind (Q := fun r d => r = snapshot_of s.disk depth root digest false ∧ d = s.disk) (.read ⟨rfl, rfl⟩) ?_ ?_
  · rintro snapshot d ⟨hsnapshot, rfl⟩
    have hwalk : ∃ found, walk_tree s.disk depth root "" (passed_over false) = .ok found := by
      obtain ⟨found, hfound, _⟩ := bind_eq_ok_iff.mp hsnapshot.symm
      exact ⟨found, hfound⟩
    obtain ⟨hdepth, htree⟩ := hdeep.mp hwalk
    have haccepted : Accepted depth root args base :=
      ⟨hclaims.surface, ⟨request, hclaims.requested⟩, hbindable, ⟨baseline, envelope, hgenesis⟩, hdepth, htree⟩
    refine .read_bind (fun row hrow => ?_) fun e herror => by cases herror
    simp only [hcarrier] at hrow
    obtain rfl := Except.ok.inj hrow
    have hdurable : Durable depth root args base claim digest { s with carrier := { s.carrier with
        tables := ⟨some (durable_row operation_id request snapshot digest),
          some (lifecycle_row args .read_only_unserviceable)⟩ } } := by
      refine ⟨hbeside, haccepted, ⟨operation_id, request, snapshot, hclaims, by rw [hcarrier], hsnapshot.symm⟩,
        fun bytes hbytes => ?_, hfounded⟩
      rw [hclaim] at hbytes
      exact (Option.some.inj hbytes).symm
    have hphase : (recorded_row operation_id request).phase = .recorded := rfl
    simp only [if_pos hphase]
    refine commit_tables_ensures (fun tables hbody => ?_) fun hnone e => ?_
    · rw [hcarrier] at hbody
      obtain rfl := (prove_rows_iff (hfounded.hex hhex)).mp hbody
      exact ⟨hdurable.left, hdurable⟩
    · refine absurd ?_ (hnone ⟨some (durable_row operation_id request snapshot digest),
        some (lifecycle_row args .read_only_unserviceable)⟩)
      rw [hcarrier]
      exact (prove_rows_iff (hfounded.hex hhex)).mpr rfl
  · rintro e d ⟨hsnapshot, rfl⟩
    refine ⟨hleft, fun haccepted => ?_⟩
    obtain ⟨found, hfound⟩ := hdeep.mpr ⟨haccepted.deep, haccepted.tree⟩
    rw [snapshot_of, hfound] at hsnapshot
    cases hsnapshot

end atoms.coordinator
