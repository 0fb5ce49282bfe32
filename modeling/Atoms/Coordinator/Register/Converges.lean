import Atoms.Coordinator.Register.Completion

open atoms.errors atoms.fingerprint atoms.identifiers atoms.spec atoms.fs atoms.store atoms.chain checked crash

namespace atoms.coordinator

variable [UnicodeData] [Sha256] {depth : Nat} {root : Inode} {args : Registration} {start s t : RootState}
  {operation_id minted : String} {request : OperationRequest} {claim : List UInt8} {digest : String}

/-- `register_root` once the operation is known. -/
def claimed_registration (depth : Nat) (root_fd : Inode) (args : Registration) (request : OperationRequest)
    (operation_id : String) : Rooted String := do
  let claim ← in_root (lift (encode_claim operation_id request))
  let digest ← in_root (register_genesis root_fd args)
  prove_register_tree depth root_fd digest
  complete_registration root_fd claim digest

/-- What is left of a durable operation completes. -/
theorem durable_registration_ensures (hhex : Hexadecimal) (hstart : Unregistered root start)
    (hencoded : encode_claim operation_id request = .ok claim)
    (h : Durable depth root args start.disk claim digest s) :
    (claimed_registration depth root args request operation_id).Ensures s (Left depth root args start.disk)
      (Prog.ends (fun found t => Left depth root args start.disk t ∧ Registered root args found t) fun _ => False) := by
  have hflushed := h.fsync hstart.old hstart.unreached root
  refine in_root_returns_bind (lift_returns hencoded _) ?_
  refine in_root_bind ((register_genesis_adopts hstart.old hstart.numbered hstart.unreached h.accepted.surface h.beside
    h.chain).mono ?_ fun _ _ ht => ht) ?_ ?_
  · rintro d rfl
    exact hflushed.left
  · rintro _ _ ⟨⟨rfl⟩, rfl⟩
    refine (prove_register_tree_returns hflushed).ensures_bind ?_
    exact complete_registration_ensures hhex hstart.old hstart.numbered hstart.unreached hflushed
  · rintro e d ⟨heq, _⟩
    cases heq

/-- What is left of a recorded operation completes where the registration is accepted. -/
theorem recorded_registration_ensures (hhex : Hexadecimal) (hstart : Unregistered root start)
    (hbeside : Beside root start.disk s.disk) (hclaims : Claims args operation_id request claim) (hbindable : Bindable args)
    (hcarrier : s.carrier = ⟨3, some (recorded_row operation_id request),
      some (lifecycle_row args .read_only_unserviceable)⟩)
    (hclaim : leaf s.disk root ROOT_CLAIM_LEAF = some (some claim))
    (hchain : (Bare root start.disk s.disk ∨ ∃ fd, s.disk.lookup root CHAIN_LEAF = some ⟨.directory, fd⟩ ∧
      start.disk.next ≤ fd ∧ Directory s.disk fd [] none) ∨ ∃ digest, Founded root args start.disk digest s.disk) :
    (claimed_registration depth root args request operation_id).Ensures s (Left depth root args start.disk)
      (Prog.ends
        (fun found t => Left depth root args start.disk t ∧ Registered root args found t ∧ Accepted depth root args start.disk)
        fun t => Left depth root args start.disk t ∧ ¬ Accepted depth root args start.disk) := by
  have hleft : ∀ d, Chained root args start.disk (leaf s.disk root ROOT_CLAIM_LEAF) d →
      Left depth root args start.disk { s with disk := d } := fun d hchained =>
    ⟨hchained.beside, .recorded hclaims hbindable hcarrier (hchained.claim.trans hclaim) hchained.chain⟩
  have hgenesis : (register_genesis root args).Ensures s.disk
      (Chained root args start.disk (leaf s.disk root ROOT_CLAIM_LEAF))
      (Prog.ends (fun digest t => Chained root args start.disk (leaf s.disk root ROOT_CLAIM_LEAF) t ∧
          Founded root args start.disk digest t)
        fun t => Chained root args start.disk (leaf s.disk root ROOT_CLAIM_LEAF) t ∧
          ¬ Accepted depth root args start.disk) := by
    rcases hchain with hempty | ⟨digest, hfounded⟩
    · refine (register_genesis_appends hhex hstart.old hstart.numbered hstart.unreached hclaims.surface hbeside hempty).mono
        (fun _ ht => ht) ?_
      rintro (e | digest) t ht
      · refine ⟨ht.1, fun haccepted => ?_⟩
        obtain ⟨baseline, envelope, hgenesis⟩ := haccepted.genesis
        exact ht.2 hstart.progresses baseline envelope hgenesis
      · exact ht
    · have hflushed : Founded root args start.disk digest (s.disk.fsync root) :=
        hfounded.congr hstart.old (fun _ _ _ => Disk.lookup_fsync _ _ _ _) fun _ => Disk.get_contents_fsync _ _ _
      have hchained : Chained root args start.disk (leaf s.disk root ROOT_CLAIM_LEAF) (s.disk.fsync root) :=
        ⟨hbeside.fsync root, leaf_fsync _ _ _ _, .inr ⟨digest, hflushed⟩⟩
      refine (register_genesis_adopts hstart.old hstart.numbered hstart.unreached hclaims.surface hbeside hfounded).mono
        ?_ ?_
      · rintro d rfl
        exact hchained
      · rintro r d ⟨rfl, rfl⟩
        exact ⟨hchained, hflushed⟩
  refine in_root_returns_bind (lift_returns hclaims.encoded _) ?_
  refine in_root_bind (hgenesis.mono hleft fun _ _ ht => ht) ?_ ?_
  · rintro digest d ⟨hchained, hfounded⟩
    refine (prove_register_tree_ensures (s := { s with disk := d }) hhex hstart.old hstart.numbered hstart.unreached
      hstart.chain hchained.beside hclaims hbindable hcarrier (hchained.claim.trans hclaim) hfounded).bind ?_ fun _ _ ht => ht
    intro _ t hdurable
    refine (complete_registration_ensures hhex hstart.old hstart.numbered hstart.unreached hdurable).mono
      (fun _ ht => ht) ?_
    rintro (e | found) t' ht'
    · exact ht'.elim
    · exact ⟨ht'.1, ht'.2, hdurable.accepted⟩
  · rintro e d ⟨hchained, hnot⟩
    exact ⟨hleft d hchained, hnot⟩

omit [UnicodeData] [Sha256] in
/-- The store is there, with empty tables if there was none. -/
theorem open_store_completes (hcarrier : s.carrier.version = 0 ∨ s.carrier = ⟨3, ⟨none, none⟩⟩) :
    open_store.Completes s () { s with carrier := ⟨3, ⟨none, none⟩⟩ } := by
  refine Prog.completes_call_iff.mpr ?_
  rcases hcarrier with hversion | hcarrier
  · rw [if_pos hversion]
  · have hsame : s = { s with carrier := ⟨3, ⟨none, none⟩⟩ } := by rw [← hcarrier]
    rw [hcarrier, if_neg (by decide), if_neg (by decide), ← hsame]

omit [UnicodeData] [Sha256] in
theorem open_store_blank {β : Type} {f : Unit → Rooted β} {I : RootState → Prop} {R : Except Raised β → RootState → Prop}
    (hcarrier : s.carrier.version = 0 ∨ s.carrier = ⟨3, ⟨none, none⟩⟩) (hI : I { s with carrier := ⟨3, ⟨none, none⟩⟩ })
    (hf : (f ()).Ensures { s with carrier := ⟨3, ⟨none, none⟩⟩ } I R) : (open_store >>= f).Ensures s I R :=
  .call_ok_bind (Prog.completes_call_iff.mp (open_store_completes hcarrier)) hI hf

omit [UnicodeData] [Sha256] in
theorem open_store_kept {β : Type} {f : Unit → Rooted β} {I : RootState → Prop} {R : Except Raised β → RootState → Prop}
    (hversion : s.carrier.version = 3) (hI : I s) (hf : (f ()).Ensures s I R) : (open_store >>= f).Ensures s I R := by
  refine .call_ok_bind (a := ()) (t := s) ?_ hI hf
  rw [hversion, if_neg (by decide), if_neg (by decide)]

/-- `resolve` before the chain of a recorded operation is founded. -/
theorem resolve_unfounded (hold : root < start.disk.next) {d : Disk} (hbeside : Beside root start.disk d)
    (h : Unfounded root start.disk d) :
    (resolve_chain root).Ensures d
      (fun t => Beside root start.disk t ∧ leaf t root ROOT_CLAIM_LEAF = leaf d root ROOT_CLAIM_LEAF ∧
        Unfounded root start.disk t)
      fun r t => r = .ok () ∧ Beside root start.disk t ∧ leaf t root ROOT_CLAIM_LEAF = leaf d root ROOT_CLAIM_LEAF ∧
        (Bare root start.disk t ∨ ∃ fd, t.lookup root CHAIN_LEAF = some ⟨.directory, fd⟩ ∧ start.disk.next ≤ fd ∧
          Directory t fd [] none) := by
  rcases h with hbare | ⟨fd, staged, hfd, hnew, hdirectory⟩
  · exact (resolve_chain_absent hbare.1).ensures ⟨rfl, hbeside, rfl, .inl hbare⟩
  · have hafter : ∀ t, Published fd [] t → d.Apart (fun parent _ => parent = fd) t →
        Beside root start.disk t ∧ leaf t root ROOT_CLAIM_LEAF = leaf d root ROOT_CLAIM_LEAF ∧
          t.lookup root CHAIN_LEAF = some ⟨.directory, fd⟩ := by
      intro t hpublished hapart
      obtain ⟨hbeside', hnames⟩ := hbeside.within hold hnew hapart hpublished.numbered
      exact ⟨hbeside', (hnames _).2, (hnames _).1.trans hfd⟩
    refine (resolve_chain_ensures hfd hbeside.numbered hdirectory valid_nil).mono ?_ ?_
    · rintro t ⟨hpublished, hapart⟩
      obtain ⟨hbeside', hclaim, hfd'⟩ := hafter t hpublished hapart
      exact ⟨hbeside', hclaim, .of_directory hfd' hnew hpublished.directory⟩
    · rintro r t ⟨rfl, hpublished, hapart⟩
      obtain ⟨hbeside', hclaim, hfd'⟩ := hafter t hpublished hapart
      exact ⟨rfl, hbeside', hclaim, .inr ⟨fd, hfd', hnew, hpublished.directory⟩⟩

theorem Founded.resolves {d : Disk} (h : Founded root args start.disk digest d) : (resolve_chain root).Returns d () := by
  obtain ⟨fd, baseline, envelope, hfd, _, _, _, hdirectory⟩ := h
  exact resolve_chain_returns hfd hdirectory (valid_genesis_of args baseline envelope)

/-- The rest of a registration, once the claim and the rows of the operation are there. -/
theorem Recorded.ensures (hhex : Hexadecimal) (hstart : Unregistered root start)
    (h : Recorded root args start.disk request operation_id s) :
    (claimed_registration depth root args request operation_id).Ensures s (Left depth root args start.disk)
      (Prog.ends
        (fun found t => Left depth root args start.disk t ∧ Registered root args found t ∧ Accepted depth root args start.disk)
        fun t => Left depth root args start.disk t ∧ ¬ Accepted depth root args start.disk) := by
  obtain ⟨claim, hclaims, hclaiming⟩ := h.claimed
  exact recorded_registration_ensures hhex hstart hclaiming.beside hclaims h.bindable h.carrier hclaiming.claim
    (.inl (.inl hclaiming.bare))

/-- How an attempt ends: with the root registered, or refused, or stopped by a claim that was cut before it. -/
abbrev Ended (depth : Nat) (root : Inode) (args : Registration) (base : Disk) (s : RootState) :
    Except Raised String → RootState → Prop :=
  Prog.ends
    (fun digest t => Left depth root args base t ∧ Registered root args digest t ∧ Accepted depth root args base ∧
      ¬ ClaimCut root s.disk)
    fun t => Left depth root args base t ∧ (Accepted depth root args base → ClaimCut root s.disk)

/-- A registration under the lease, where no operation is recorded yet. -/
theorem blank_under_lease (hhex : Hexadecimal) (hstart : Unregistered root start) (hminted : is_operation_id minted = true)
    (hsurface : validate_registered_surface args.registered_surface = .ok ()) (hbeside : Beside root start.disk s.disk)
    (hcarrier : s.carrier.version = 0 ∨ s.carrier = ⟨3, ⟨none, none⟩⟩) (hbare : Bare root start.disk s.disk)
    (hclaim : leaf s.disk root ROOT_CLAIM_LEAF = none ∨ ∃ operation_id request claim bytes,
      Claims args operation_id request claim ∧ leaf s.disk root ROOT_CLAIM_LEAF = some (some bytes) ∧ bytes <+: claim) :
    (register_under_lease depth root args minted).Ensures s (Left depth root args start.disk)
      (Ended depth root args start.disk s) := by
  have hleft : Left depth root args start.disk { s with carrier := ⟨3, ⟨none, none⟩⟩ } := by
    refine ⟨hbeside, ?_⟩
    rcases hclaim with hclaim | ⟨operation_id, request, claim, bytes, hclaims, hclaim, hstart⟩
    · exact .unclaimed (.inr rfl) hclaim hbare
    · exact .claimed (.inr rfl) hclaims hclaim hstart hbare
  refine open_store_blank hcarrier hleft ?_
  refine in_root_returns_bind (resolve_chain_absent hbare.1) (in_root_lift_bind (fun request hrequest => ?_) ?_)
  · refine (register_operation_records (s := { s with carrier := ⟨3, ⟨none, none⟩⟩ }) hhex hstart.old rfl hsurface hrequest
      hminted hbeside hbare hclaim).bind ?_ ?_
    · rintro operation_id t ⟨hrecorded, huncut⟩
      refine (hrecorded.ensures hhex hstart).mono (fun _ ht => ht) ?_
      rintro (e | found) t' ht'
      · exact ⟨ht'.1, fun haccepted => absurd haccepted ht'.2⟩
      · exact ⟨ht'.1, ht'.2.1, ht'.2.2, huncut⟩
    · rintro e t ⟨hleft', hcut⟩
      exact ⟨hleft', fun haccepted => hcut hstart.progresses haccepted.bindable⟩
  · intro e herror
    refine ⟨hleft, fun haccepted => ?_⟩
    obtain ⟨request, hrequest⟩ := haccepted.requested
    rw [hrequest] at herror
    cases herror

/-- A registration under the lease, from any state that attempts at it may have left. -/
theorem register_under_lease_ensures (hhex : Hexadecimal) (hstart : Unregistered root start)
    (hminted : is_operation_id minted = true) (hsurface : validate_registered_surface args.registered_surface = .ok ())
    (h : Left depth root args start.disk s)
    (hcarrier : s.carrier.version = 3 → ∀ row ∈ s.carrier.tables.lifecycle, row.state ≠ .writable) :
    (register_under_lease depth root args minted).Ensures s (Left depth root args start.disk)
      (Ended depth root args start.disk s) := by
  have hbeside := h.beside
  cases h.stage with
  | unclaimed hblank hclaim hbare => exact blank_under_lease hhex hstart hminted hsurface hbeside hblank hbare (.inl hclaim)
  | claimed hblank hclaims hclaim hprefix hbare =>
    exact blank_under_lease hhex hstart hminted hsurface hbeside hblank hbare
      (.inr ⟨_, _, _, _, hclaims, hclaim, hprefix⟩)
  | recorded hclaims hbindable hrows hclaim hchain =>
    rename_i operation_id request claim
    have huncut : ¬ ClaimCut root s.disk := by
      rintro ⟨bytes, hbytes, hcut⟩
      rw [hclaim] at hbytes
      cases hbytes
      exact hcut _ (hclaims.decoded hhex)
    have hresolve : (resolve_chain root).Ensures s.disk (fun d => Left depth root args start.disk { s with disk := d })
        fun r d => r = .ok () ∧ Beside root start.disk d ∧ leaf d root ROOT_CLAIM_LEAF = some (some claim) ∧
          ((Bare root start.disk d ∨ ∃ fd, d.lookup root CHAIN_LEAF = some ⟨.directory, fd⟩ ∧ start.disk.next ≤ fd ∧
            Directory d fd [] none) ∨ ∃ digest, Founded root args start.disk digest d) := by
      rcases hchain with hunfounded | ⟨digest, hfounded⟩
      · refine (resolve_unfounded hstart.old hbeside hunfounded).mono ?_ ?_
        · rintro d ⟨hbeside', hclaim', hunfounded'⟩
          exact ⟨hbeside', .recorded hclaims hbindable hrows (hclaim'.trans hclaim) (.inl hunfounded')⟩
        · rintro r d ⟨rfl, hbeside', hclaim', hempty⟩
          exact ⟨rfl, hbeside', hclaim'.trans hclaim, .inl hempty⟩
      · exact hfounded.resolves.ensures ⟨rfl, hbeside, hclaim, .inr ⟨digest, hfounded⟩⟩
    refine open_store_kept (by rw [hrows]) h (in_root_bind hresolve ?_ ?_)
    · rintro _ d ⟨_, hbeside', hclaim', hchain'⟩
      refine in_root_returns_bind (lift_returns hclaims.requested _) ?_
      have hrow : s.carrier.tables.operation = some (recorded_row operation_id request) := by rw [hrows]
      refine (register_operation_adopts (s := { s with disk := d }) hhex hclaims hrow ⟨rfl, rfl, rfl⟩ ?_).ensures_bind ?_
      · intro bytes hbytes
        rw [hclaim'] at hbytes
        exact (Option.some.inj hbytes).symm
      refine (recorded_registration_ensures (s := { s with disk := d }) hhex hstart hbeside' hclaims hbindable hrows hclaim'
        hchain').mono (fun _ ht => ht) ?_
      rintro (e | found) t ht
      · exact ⟨ht.1, fun haccepted => absurd haccepted ht.2⟩
      · exact ⟨ht.1, ht.2.1, ht.2.2, huncut⟩
    · rintro e d ⟨heq, _⟩
      cases heq
  | durable hclaims haccepted hrows hclaim hchain hsnapshot =>
    rename_i operation_id request claim snapshot digest
    have huncut : ¬ ClaimCut root s.disk := by
      rintro ⟨bytes, hbytes, hcut⟩
      rw [Option.some.inj (hclaim _ hbytes)] at hcut
      exact hcut _ (hclaims.decoded hhex)
    have hdurable : Durable depth root args start.disk claim digest s :=
      ⟨hbeside, haccepted, ⟨_, _, _, hclaims, hrows, hsnapshot⟩, hclaim, hchain⟩
    refine open_store_kept (by rw [hrows]) h (in_root_returns_bind hchain.resolves ?_)
    refine in_root_returns_bind (lift_returns hclaims.requested _) ?_
    have hrow : s.carrier.tables.operation = some (durable_row operation_id request snapshot digest) := by rw [hrows]
    refine (register_operation_adopts hhex hclaims hrow ⟨rfl, rfl, rfl⟩ hclaim).ensures_bind ?_
    refine (durable_registration_ensures hhex hstart hclaims.encoded hdurable).mono (fun _ ht => ht) ?_
    rintro (e | found) t ht
    · exact ht.elim
    · exact ⟨ht.1, ht.2, haccepted, huncut⟩
  | complete _ _ hrows _ _ =>
    have hrow : lifecycle_row args .writable ∈ s.carrier.tables.lifecycle := by
      rw [hrows]
      rfl
    exact absurd rfl (hcarrier (by rw [hrows]) _ hrow)

/-! `register_root` -/

omit [Sha256] in
/-- A root on which nothing is recorded has no metadata of its own. -/
theorem classify_blank (hcarrier : s.carrier.version = 0 ∨ s.carrier = ⟨3, ⟨none, none⟩⟩) :
    ∃ view, classify_carrier s.carrier args.machine_id args.project_root = .ok view ∧ view.state = .METADATA_LESS ∧
      view.schema_version ≠ 2 := by
  rcases hcarrier with hversion | hcarrier
  · exact ⟨⟨.METADATA_LESS, none, 0⟩, by rw [classify_carrier, if_pos hversion]; rfl, rfl, by decide⟩
  · refine ⟨⟨.METADATA_LESS, none, 3⟩, ?_, rfl, by decide⟩
    rw [hcarrier]
    simp [classify_carrier, require_root_row_pair]

omit [Sha256] in
/-- A root whose registration was interrupted is read only. -/
theorem classify_interrupted {row : RootOperationRow} (hkind : row.kind = .register)
    (hcarrier : s.carrier = ⟨3, some row, some (lifecycle_row args .read_only_unserviceable)⟩) :
    classify_carrier s.carrier args.machine_id args.project_root = .ok ⟨.READ_ONLY_UNSERVICEABLE, some row, 3⟩ := by
  rw [hcarrier]
  simp [classify_carrier, require_root_row_pair, lifecycle_row, RootOperationKind.origin, lifecycle_state, hkind]

omit [UnicodeData] [Sha256] in
theorem require_precondition_returns {condition : Prop} [Decidable condition] {message : String} (h : condition) :
    (require_precondition condition message).Returns s () := by
  rw [require_precondition, if_pos h]
  exact .pure

theorem admit_interrupted {row : RootOperationRow} (hkind : row.kind = .register) :
    (admit_carrier root args ⟨.READ_ONLY_UNSERVICEABLE, some row, 3⟩).Returns s () := by
  have hversion : (3 : Nat) ≠ 2 := by decide
  refine Prog.Returns.bind (require_precondition_returns hversion) ?_
  rw [if_pos rfl]
  exact require_precondition_returns ⟨row, rfl, hkind⟩

theorem admit_blank {view : CarrierView} (hstate : view.state = .METADATA_LESS) (hversion : view.schema_version ≠ 2)
    {held : Option (List UInt8)} (hclaim : leaf s.disk root ROOT_CLAIM_LEAF = held.map some)
    (hchain : s.disk.lookup root CHAIN_LEAF = none) : (admit_carrier root args view).Returns s () := by
  obtain ⟨state, operation, version⟩ := view
  obtain rfl : state = .METADATA_LESS := hstate
  refine Prog.Returns.bind (require_precondition_returns hversion) ?_
  rw [if_neg fun heq => by cases heq]
  refine Prog.Returns.bind (Prog.Returns.zoom (read_root_claim_returns hclaim)) ?_
  cases held with
  | some bytes =>
    rw [if_neg (Option.some_ne_none bytes)]
    exact .pure
  | none =>
    rw [if_pos rfl]
    have hopen : (open_child_directory root CHAIN_LEAF).Fails s.disk (.OSError .ENOENT) := .read (by rw [hchain])
    refine Prog.Returns.zoom (Prog.Returns.bind (a := none) (.try_error hopen.bind ?_) .pure)
    simp only [List.mem_cons, true_or, if_true]
    exact .pure

/-- A root that is not writable is registered under the lease. -/
theorem registers_under_lease {view : CarrierView} {Q : Except Raised String → RootState → Prop} {I : RootState → Prop}
    (hsurface : validate_registered_surface args.registered_surface = .ok ())
    (hview : classify_carrier s.carrier args.machine_id args.project_root = .ok view) (hstate : view.state ≠ .WRITABLE)
    (hadmits : (admit_carrier root args view).Returns s ()) (h : (register_under_lease depth root args minted).Ensures s I Q) :
    (register_root depth root args minted).Ensures s I Q := by
  have hread : (Prog.read fun state : RootState =>
      classify_carrier state.carrier args.machine_id args.project_root).Returns s view := .read hview
  refine in_root_returns_bind (lift_returns hsurface _) (hread.ensures_bind ?_)
  rw [if_neg hstate]
  exact hadmits.ensures_bind h

/-- A registration that is complete answers with its digest. -/
theorem registered_retry {snapshot : Snapshot} (hsurface : validate_registered_surface args.registered_surface = .ok ())
    (hrequest : args.request = .ok request)
    (hcarrier : s.carrier = ⟨3, some (complete_row operation_id request snapshot digest),
      some (lifecycle_row args .writable)⟩) :
    (register_root depth root args minted).Returns s digest := by
  have hview : classify_carrier s.carrier args.machine_id args.project_root =
      .ok ⟨.WRITABLE, some (complete_row operation_id request snapshot digest), 3⟩ := by
    rw [hcarrier]
    exact classify_complete operation_id request snapshot digest
  have hread : (Prog.read fun state : RootState =>
      classify_carrier state.carrier args.machine_id args.project_root).Returns s _ := .read hview
  refine Prog.Returns.bind (Prog.Returns.zoom (lift_returns hsurface _)) (Prog.Returns.bind hread ?_)
  rw [if_pos rfl]
  refine Prog.Returns.zoom (lift_returns ?_ _)
  have hkind : (complete_row operation_id request snapshot digest).kind = .register := rfl
  have hjson : (complete_row operation_id request snapshot digest).request_json = request.operation_json := rfl
  simp only [register_completed_retry, hkind, hjson, hrequest, ok_bind, require_true, ne_eq, not_true, if_false]
  rfl

/-- A registration, from any state that attempts at it may have left. -/
theorem register_root_ensures (hhex : Hexadecimal) (hstart : Unregistered root start)
    (hminted : is_operation_id minted = true) (h : Left depth root args start.disk s) :
    (register_root depth root args minted).Ensures s (Left depth root args start.disk)
      (Ended depth root args start.disk s) := by
  cases hsurface : validate_registered_surface args.registered_surface with
  | error e =>
    refine in_root_lift_bind (fun u hok => ?_) fun e _ => ⟨h, fun haccepted => ?_⟩
    · rw [hsurface] at hok
      cases hok
    · rw [haccepted.surface] at hsurface
      cases hsurface
  | ok u =>
    have hlease := register_under_lease_ensures hhex hstart hminted hsurface h
    have hblank : (s.carrier.version = 0 ∨ s.carrier = ⟨3, ⟨none, none⟩⟩) → s.carrier.version = 3 →
        ∀ row ∈ s.carrier.tables.lifecycle, row.state ≠ .writable := by
      rintro (hzero | hcarrier) hversion row hrow
      · rw [hzero] at hversion
        cases hversion
      · rw [hcarrier] at hrow
        cases hrow
    cases h.stage with
    | unclaimed hcarrier hclaim hbare =>
      obtain ⟨view, hview, hstate, hversion⟩ := classify_blank hcarrier
      refine registers_under_lease hsurface hview (by rw [hstate]; decide) ?_ (hlease (hblank hcarrier))
      have hheld : leaf s.disk root ROOT_CLAIM_LEAF = (none : Option (List UInt8)).map some := hclaim
      exact admit_blank hstate hversion hheld hbare.1
    | @claimed operation_id request claim bytes hcarrier hclaims hclaim hprefix hbare =>
      obtain ⟨view, hview, hstate, hversion⟩ := classify_blank hcarrier
      refine registers_under_lease hsurface hview (by rw [hstate]; decide) ?_ (hlease (hblank hcarrier))
      have hheld : leaf s.disk root ROOT_CLAIM_LEAF = (some bytes).map some := hclaim
      exact admit_blank hstate hversion hheld hbare.1
    | recorded hclaims hbindable hcarrier hclaim hchain =>
      refine registers_under_lease hsurface (classify_interrupted rfl hcarrier) (fun heq => by cases heq)
        (admit_interrupted rfl) (hlease fun _ row hrow heq => ?_)
      rw [hcarrier] at hrow
      obtain rfl := Option.some.inj hrow
      cases heq
    | durable hclaims haccepted hcarrier hclaim hchain hsnapshot =>
      refine registers_under_lease hsurface (classify_interrupted rfl hcarrier) (fun heq => by cases heq)
        (admit_interrupted rfl) (hlease fun _ row hrow heq => ?_)
      rw [hcarrier] at hrow
      obtain rfl := Option.some.inj hrow
      cases heq
    | complete hrequest haccepted hcarrier hclaim hchain =>
      rename_i operation_id request snapshot digest
      have hview : classify_carrier s.carrier args.machine_id args.project_root =
          .ok ⟨.WRITABLE, some (complete_row operation_id request snapshot digest), 3⟩ := by
        rw [hcarrier]
        exact classify_complete operation_id request snapshot digest
      have hregistered : Registered root args digest s := ⟨⟨_, hview, rfl⟩, leaf_eq_none_iff.mp hclaim,
        hchain.validates h.beside hstart.numbered hstart.unreached hstart.old hsurface⟩
      refine (registered_retry hsurface hrequest hcarrier).ensures ⟨h, hregistered, haccepted, ?_⟩
      rintro ⟨bytes, hbytes, _⟩
      rw [hclaim] at hbytes
      cases hbytes

end atoms.coordinator
