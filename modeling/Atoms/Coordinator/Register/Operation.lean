import Atoms.Coordinator.Register.Genesis

open atoms.errors atoms.fingerprint atoms.identifiers atoms.spec atoms.fs atoms.store atoms.chain checked crash

namespace atoms.coordinator

/-! Calls on the volume of a root. -/

section

variable {α β : Type} {s : RootState} {p : Call α} {f : α → Rooted β} {a : α} {I : RootState → Prop}
  {Q : Except Raised α → RootState → Prop} {R : Except Raised β → RootState → Prop}

theorem in_root_bind {Q : Except Raised α → Disk → Prop} (h : p.Ensures s.disk (fun d => I { s with disk := d }) Q)
    (hok : ∀ a d, Q (.ok a) d → (f a).Ensures { s with disk := d } I R)
    (herror : ∀ e d, Q (.error e) d → R (.error e) { s with disk := d }) : (in_root p >>= f).Ensures s I R := by
  refine .bind (Q := fun r t => ∃ d, t = { s with disk := d } ∧ Q r d) (.zoom ?_) ?_ ?_
  · exact h.mono (fun _ ht => ht) fun r d ht => ⟨d, rfl, ht⟩
  · rintro a _ ⟨d, rfl, ht⟩
    exact hok a d ht
  · rintro e _ ⟨d, rfl, ht⟩
    exact herror e d ht

theorem in_root_returns_bind (hp : p.Returns s.disk a) (hf : (f a).Ensures s I R) : (in_root p >>= f).Ensures s I R :=
  (Prog.Returns.zoom hp).ensures_bind hf

/-- What follows a program that only looks. -/
theorem in_root_reads_bind (hp : p.Reads) (hok : ∀ a, p.Completes s.disk a s.disk → (f a).Ensures s I R)
    (herror : ∀ e, R (.error e) s) : (in_root p >>= f).Ensures s I R := by
  refine in_root_bind (Q := fun r d => d = s.disk ∧ ∀ a, r = .ok a → p.Completes s.disk a s.disk) (hp.ensures ?_ ?_) ?_ ?_
  · exact fun a ha => ⟨rfl, fun _ heq => Except.ok.inj heq ▸ ha⟩
  · exact fun e => ⟨rfl, fun _ heq => nomatch heq⟩
  · rintro a _ ⟨rfl, ha⟩
    exact hok a (ha a rfl)
  · rintro e _ ⟨rfl, _⟩
    exact herror e

theorem in_root_lift_bind {value : Except Raised α} (hok : ∀ a, value = .ok a → (f a).Ensures s I R)
    (herror : ∀ e, value = .error e → R (.error e) s) : (in_root (lift value) >>= f).Ensures s I R := by
  refine in_root_bind (Q := fun r d => r = value ∧ d = s.disk) (.read ⟨rfl, rfl⟩) ?_ ?_
  · rintro a d ⟨heq, rfl⟩
    exact hok a heq.symm
  · rintro e d ⟨heq, rfl⟩
    exact herror e heq.symm

/-- A commit of the tables. -/
theorem commit_tables_ensures {body : RootTables → Except Raised RootTables} {Q : Except Raised Unit → RootState → Prop}
    (hok : ∀ tables, body s.carrier.tables = .ok tables →
      I { s with carrier := { s.carrier with tables } } ∧ Q (.ok ()) { s with carrier := { s.carrier with tables } })
    (herror : (∀ tables, body s.carrier.tables ≠ .ok tables) → ∀ e, Q (.error e) s) :
    (commit_tables body).Ensures s I Q := by
  refine .call (fun u t hcall => ?_) fun e hcall => ?_
  · obtain ⟨tables, hbody, hstate⟩ := bind_eq_ok_iff.mp hcall
    cases hstate
    exact hok tables hbody
  · refine herror (fun tables hbody => ?_) e
    rw [hbody] at hcall
    cases hcall

theorem commit_tables_bind {body : RootTables → Except Raised RootTables} {f : Unit → Rooted β}
    (hok : ∀ tables, body s.carrier.tables = .ok tables →
      I { s with carrier := { s.carrier with tables } } ∧ (f ()).Ensures { s with carrier := { s.carrier with tables } } I R)
    (herror : (∀ tables, body s.carrier.tables ≠ .ok tables) → ∀ e, R (.error e) s) :
    (commit_tables body >>= f).Ensures s I R := by
  refine .bind (commit_tables_ensures (Q := Prog.ends (fun _ t => (f ()).Ensures t I R) fun t => ∀ e, R (.error e) t)
    hok fun hnone _ => herror hnone) (fun _ _ ht => ht) fun e _ ht => ht e

end

variable [UnicodeData] [Sha256] {depth : Nat} {root : Inode} {args : Registration} {base : Disk} {s : RootState}
  {operation_id minted : String} {request : OperationRequest} {claim bytes : List UInt8}

omit [UnicodeData] in
theorem Registration.sound (h : args.request = .ok request) : request.Sound :=
  sound_of_request (plain_register_request _ _ _ _ _) h

/-- The claim of a request is decoded to its operation and its text. -/
theorem Claims.decoded (h : Claims args operation_id request claim) (hhex : Hexadecimal) :
    decode_claim claim = .ok ⟨operation_id, request.operation_hash, request.operation_json⟩ :=
  decode_encode_claim h.encoded (Registration.sound h.requested) h.minted hhex

theorem Claims.claimed (h : Claims args operation_id request claim) (hhex : Hexadecimal) :
    claimed_operation (some claim) request = .ok (some operation_id) := by
  simp only [claimed_operation, h.decoded hhex, ok_bind, require_claimed, require_true]
  rfl

omit [UnicodeData] in
/-- The rows of a new operation. -/
theorem insert_rows_iff (hhex : Hexadecimal) (hrequest : args.request = .ok request)
    (hminted : is_operation_id operation_id = true) {tables : RootTables} :
    (do
      let tables ← RootTables.insert_root_operation ⟨none, none⟩ operation_id .register request.operation_json
        request.operation_hash
      tables.insert_root_lifecycle .read_only_unserviceable args.machine_id args.project_root .register) = .ok tables ↔
    Bindable args ∧
      tables = ⟨some (recorded_row operation_id request), some (lifecycle_row args .read_only_unserviceable)⟩ := by
  have hhash : is_hex_digest request.operation_hash = true := by
    rw [← (Registration.sound hrequest).digest]
    exact hhex _
  have hadmits : RootTables.admits_lifecycle (some (recorded_row operation_id request)) .read_only_unserviceable .register =
      true := by
    simp [RootTables.admits_lifecycle, recorded_row, RootOperationKind.origin]
  have hinsert : RootTables.insert_root_operation ⟨none, none⟩ operation_id .register request.operation_json
      request.operation_hash = .ok ⟨some (recorded_row operation_id request), none⟩ := by
    simp only [RootTables.insert_root_operation, require_trigger, hminted, hhash, and_self, require_true, ok_bind]
    rfl
  rw [hinsert, ok_bind]
  unfold RootTables.insert_root_lifecycle
  simp only [require_trigger, hadmits, require_true, ok_bind, bind_eq_ok_iff, require_eq_ok_iff, pure_eq_ok_iff]
  constructor
  · rintro ⟨_, hcheck, rfl⟩
    exact ⟨⟨hcheck.1, hcheck.2.1, hcheck.2.2.1⟩, rfl⟩
  · rintro ⟨hbind, rfl⟩
    exact ⟨(), ⟨hbind.1, hbind.2.1, hbind.2.2, by decide⟩, rfl⟩

omit [UnicodeData] [Sha256] in
/-- The tree proof of a recorded operation. -/
theorem prove_rows_iff {snapshot : Snapshot} {digest : String} (hdigest : is_hex_digest digest = true)
    {tables : RootTables} :
    RootTables.set_root_operation_tree_proof
      ⟨some (recorded_row operation_id request), some (lifecycle_row args .read_only_unserviceable)⟩ snapshot (some digest) =
      .ok tables ↔
    tables = ⟨some (durable_row operation_id request snapshot digest), some (lifecycle_row args .read_only_unserviceable)⟩ := by
  rw [eq_comm (a := tables)]
  simp [RootTables.set_root_operation_tree_proof, RootTables.update_operation, require_trigger, recorded_row, durable_row,
    RootTables.write_once, follows, RootOperationRow.proved, hdigest]

omit [UnicodeData] [Sha256] in
/-- The completion of a durable operation. -/
theorem complete_rows_iff {snapshot : Snapshot} {digest : String} (hdigest : is_hex_digest digest = true)
    {tables : RootTables} :
    (do
      let tables ← RootTables.set_root_lifecycle_state
        ⟨some (durable_row operation_id request snapshot digest), some (lifecycle_row args .read_only_unserviceable)⟩ .writable
      tables.set_root_operation_phase .complete) = .ok tables ↔
    tables = ⟨some (complete_row operation_id request snapshot digest), some (lifecycle_row args .writable)⟩ := by
  rw [eq_comm (a := tables)]
  simp [RootTables.set_root_operation_phase, RootTables.set_root_lifecycle_state, RootTables.update_operation, require_trigger,
    recorded_row, durable_row, complete_row, lifecycle_row, RootTables.write_once, follows, RootOperationRow.proved, hdigest,
    RootTables.admits_transition, RootLifecycleOrigin.states, RootOperationKind.origin]

/-! `_register_operation` -/

/-- An operation that is recorded, with its claim, before there is a chain. -/
structure Recorded (root : Inode) (args : Registration) (base : Disk) (request : OperationRequest) (operation_id : String)
    (s : RootState) : Prop where
  bindable : Bindable args
  carrier : s.carrier = ⟨3, some (recorded_row operation_id request), some (lifecycle_row args .read_only_unserviceable)⟩
  claimed : ∃ claim, Claims args operation_id request claim ∧ Claiming root base claim s.disk

theorem Recorded.left (h : Recorded root args base request operation_id s) : Left depth root args base s := by
  obtain ⟨claim, hclaims, hclaiming⟩ := h.claimed
  exact ⟨hclaiming.beside, .recorded hclaims h.bindable h.carrier hclaiming.claim (.inl (.inl hclaiming.bare))⟩

/-- The commit of the rows of a claimed operation. -/
theorem record_operation_ensures (hhex : Hexadecimal) (hcarrier : s.carrier = ⟨3, ⟨none, none⟩⟩)
    (hclaims : Claims args operation_id request claim) (hclaiming : Claiming root base claim s.disk) :
    (do
      commit_tables fun tables => do
        let tables ← tables.insert_root_operation operation_id .register request.operation_json request.operation_hash
        tables.insert_root_lifecycle .read_only_unserviceable args.machine_id args.project_root .register
      pure operation_id).Ensures s (Left depth root args base)
      (Prog.ends (fun operation_id t => Recorded root args base request operation_id t)
        fun t => Left depth root args base t ∧ ¬ Bindable args) := by
  refine commit_tables_bind ?_ ?_
  · intro tables hrows
    rw [hcarrier] at hrows
    obtain ⟨hbindable, rfl⟩ := (insert_rows_iff hhex hclaims.requested hclaims.minted).mp hrows
    have hrecorded : Recorded root args base request operation_id { s with carrier := { s.carrier with
        tables := ⟨some (recorded_row operation_id request), some (lifecycle_row args .read_only_unserviceable)⟩ } } :=
      ⟨hbindable, by rw [hcarrier], claim, hclaims, hclaiming⟩
    exact ⟨hrecorded.left, .pure hrecorded⟩
  · intro hnone e
    refine ⟨⟨hclaiming.beside, .claimed (.inr hcarrier) hclaims hclaiming.claim (List.prefix_refl _) hclaiming.bare⟩,
      fun hbindable => ?_⟩
    refine hnone ⟨some (recorded_row operation_id request), some (lifecycle_row args .read_only_unserviceable)⟩ ?_
    rw [hcarrier]
    exact (insert_rows_iff hhex hclaims.requested hclaims.minted).mpr ⟨hbindable, rfl⟩

/-- The claim of a caller that finds none. -/
theorem publish_root_claim_ensures (hhex : Hexadecimal) (hold : root < base.next) {d : Disk} (h : Beside root base d) (hbare : Bare root base d)
    (hclaim : leaf d root ROOT_CLAIM_LEAF = none) (hclaims : Claims args minted request claim) :
    (publish_root_claim root minted request).Ensures d (fun t => ∃ bytes, bytes <+: claim ∧ Claiming root base bytes t)
      (Prog.ends (fun operation_id t => operation_id = minted ∧ Claiming root base claim t)
        fun t => (∃ bytes, bytes <+: claim ∧ Claiming root base bytes t) ∧ ¬ base.Progresses) := by
  refine (lift_returns hclaims.encoded d).ensures_bind ?_
  have hcreate := create_root_claim_ensures h hold hbare hclaim claim
  have hpublish : (do create_root_claim root claim; pure minted).Ensures d
      (fun t => ∃ bytes, bytes <+: claim ∧ Claiming root base bytes t)
      (Prog.ends (fun operation_id t => operation_id = minted ∧ Claiming root base claim t)
        fun t => (∃ bytes, bytes <+: claim ∧ Claiming root base bytes t) ∧ ¬ base.Progresses) :=
    hcreate.bind (fun _ t ht => .pure ⟨rfl, ht⟩) fun _ _ ht => ht
  refine hpublish.tryCatch (fun _ _ ht => ht) fun e t ht => ?_
  obtain ⟨⟨bytes, hstart, hclaiming⟩, hstuck⟩ := ht
  split
  · -- what a failed attempt of its own left is read as a claim of another
    have hread : (read_root_claim root).Returns t (some bytes) := read_root_claim_returns hclaiming.claim
    refine hread.ensures_bind ?_
    refine .read_bind (fun found hfound => ?_) fun _ _ => ⟨⟨bytes, hstart, hclaiming⟩, hstuck⟩
    obtain rfl := decode_claim_of_isPrefix hclaims.encoded hstart hfound
    rw [hclaims.decoded hhex] at hfound
    obtain rfl := Except.ok.inj hfound
    exact .read_bind (fun _ _ => .pure ⟨rfl, hclaiming⟩) fun _ _ => ⟨⟨bytes, hstart, hclaiming⟩, hstuck⟩
  · exact .throw ⟨⟨bytes, hstart, hclaiming⟩, hstuck⟩

/-- An operation that is not recorded yet takes the claim that is there, or a new one. -/
theorem register_operation_records (hhex : Hexadecimal) (hold : root < base.next) (hcarrier : s.carrier = ⟨3, ⟨none, none⟩⟩)
    (hsurface : validate_registered_surface args.registered_surface = .ok ()) (hrequest : args.request = .ok request)
    (hminted : is_operation_id minted = true) (hbeside : Beside root base s.disk) (hbare : Bare root base s.disk)
    (hclaim : leaf s.disk root ROOT_CLAIM_LEAF = none ∨ ∃ operation_id request claim bytes,
      Claims args operation_id request claim ∧ leaf s.disk root ROOT_CLAIM_LEAF = some (some bytes) ∧ bytes <+: claim) :
    (register_operation root args minted request).Ensures s (Left depth root args base)
      (Prog.ends (fun operation_id t => Recorded root args base request operation_id t ∧ ¬ ClaimCut root s.disk)
        fun t => Left depth root args base t ∧ (base.Progresses → Bindable args → ClaimCut root s.disk)) := by
  refine .read_bind (fun row hrow => ?_) fun e herror => by cases herror
  rw [hcarrier] at hrow
  obtain rfl := Except.ok.inj hrow
  rcases hclaim with hclaim | ⟨operation_id, request', claim, bytes, hclaims, hclaim, hstart⟩
  · have huncut : ¬ ClaimCut root s.disk := by
      rintro ⟨bytes, hbytes, _⟩
      rw [hclaim] at hbytes
      cases hbytes
    obtain ⟨claim, hencoded⟩ := encode_claim_total (plain_register_request _ _ _ _ _) hrequest hminted hhex
    have hclaims : Claims args minted request claim := ⟨hsurface, hrequest, hencoded, hminted⟩
    have hleft : ∀ d, (∃ bytes, bytes <+: claim ∧ Claiming root base bytes d) →
        Left depth root args base { s with disk := d } := by
      rintro d ⟨bytes, hstart, hclaiming⟩
      exact ⟨hclaiming.beside, .claimed (.inr hcarrier) hclaims hclaiming.claim hstart hclaiming.bare⟩
    have hread : (read_root_claim root).Returns s.disk none := read_root_claim_returns hclaim
    refine in_root_returns_bind hread ?_
    refine in_root_returns_bind (lift_returns (a := none) rfl _) ?_
    refine in_root_bind ((publish_root_claim_ensures hhex hold hbeside hbare hclaim hclaims).mono hleft fun _ _ ht => ht)
      ?_ ?_
    · rintro _ d ⟨rfl, hclaiming⟩
      refine (record_operation_ensures (s := { s with disk := d }) hhex hcarrier hclaims hclaiming).mono (fun _ ht => ht) ?_
      rintro (e | operation_id) t ht
      · exact ⟨ht.1, fun _ hbindable => absurd hbindable ht.2⟩
      · exact ⟨ht, huncut⟩
    · rintro e d ⟨hpart, hstuck⟩
      exact ⟨hleft d hpart, fun hbase => absurd hbase hstuck⟩
  · obtain rfl : request' = request := Except.ok.inj (hclaims.requested.symm.trans hrequest)
    have hleft : Left depth root args base s := ⟨hbeside, .claimed (.inr hcarrier) hclaims hclaim hstart hbare⟩
    have hread : (read_root_claim root).Returns s.disk (some bytes) := read_root_claim_returns hclaim
    refine in_root_returns_bind hread ?_
    cases hdecode : decode_claim bytes with
    | error e =>
      refine in_root_lift_bind (fun found hfound => ?_) fun _ _ => ⟨hleft, fun _ _ => ⟨bytes, hclaim, fun found hfound => ?_⟩⟩
      · rw [claimed_operation, hdecode] at hfound
        cases hfound
      · rw [hdecode] at hfound
        cases hfound
    | ok found =>
      obtain rfl := decode_claim_of_isPrefix hclaims.encoded hstart hdecode
      have huncut : ¬ ClaimCut root s.disk := by
        rintro ⟨bytes', hbytes, hcut⟩
        rw [hclaim] at hbytes
        cases hbytes
        exact hcut found hdecode
      refine in_root_returns_bind (lift_returns (hclaims.claimed hhex) _) ?_
      refine (record_operation_ensures hhex hcarrier hclaims ⟨hbeside, hclaim, hbare⟩).mono (fun _ ht => ht) ?_
      rintro (e | operation_id) t ht
      · exact ⟨ht.1, fun _ hbindable => absurd hbindable ht.2⟩
      · exact ⟨ht, huncut⟩

/-- An operation that is recorded is taken up again, with or without its claim. -/
theorem register_operation_adopts (hhex : Hexadecimal) (hclaims : Claims args operation_id request claim)
    {row : RootOperationRow} (hrow : s.carrier.tables.operation = some row)
    (hnames : row.operation_id = operation_id ∧ row.kind = .register ∧ row.request_json = request.operation_json)
    (hclaim : ∀ bytes ∈ leaf s.disk root ROOT_CLAIM_LEAF, bytes = some claim) :
    (register_operation root args minted request).Returns s operation_id := by
  obtain ⟨rfl, hkind, hjson⟩ := hnames
  obtain ⟨held, hheld, hclaimed⟩ : ∃ held, leaf s.disk root ROOT_CLAIM_LEAF = held.map some ∧
      ∃ claimed_id, claimed_operation held request = .ok claimed_id ∧ ∀ found ∈ claimed_id, found = row.operation_id := by
    cases hleaf : leaf s.disk root ROOT_CLAIM_LEAF with
    | none => exact ⟨none, rfl, none, rfl, fun found hfound => absurd hfound (Option.not_mem_none found)⟩
    | some bytes =>
      rw [hclaim bytes hleaf]
      refine ⟨some claim, rfl, _, hclaims.claimed hhex, ?_⟩
      rintro found ⟨rfl⟩
      rfl
  obtain ⟨claimed_id, hclaimed, hagree⟩ := hclaimed
  refine Prog.Returns.bind (.read rfl) ?_
  refine Prog.Returns.bind (Prog.Returns.zoom (read_root_claim_returns hheld)) ?_
  refine Prog.Returns.bind (Prog.Returns.zoom (lift_returns hclaimed _)) ?_
  rw [hrow]
  refine Prog.Returns.zoom (lift_returns ?_ _)
  simp only [adopt_row, hkind, hjson, and_self, require_true, ok_bind, require_of hagree]
  rfl

end atoms.coordinator
