import Atoms.Coordinator.Copy.Fork
import Atoms.Coordinator.Register.Operation

open atoms.errors atoms.fingerprint atoms.identifiers atoms.paths atoms.spec atoms.recovery atoms.fs atoms.store atoms.chain
  checked crash

namespace atoms.coordinator

/-! The phases of a copy. -/

variable [UnicodeData] [Sha256] {depth : Nat} {args : CopyArguments} {root : Inode} {d t u : Disk}
  {entries : List (String × PathState)} {source : Option CopySource}

/-- How far the tree of the destination has come since `base`. -/
structure Constructing (args : CopyArguments) (root : Inode) (entries : List (String × PathState)) (base d : Disk) : Prop where
  tree : d.Tree root
  retains : base.Retains d
  chain : ∀ fork ∈ args.fork, Unbegun root d ∨ ∃ digest, Forked root fork entries digest d

/-- The tree of the destination is constructed: every entry of the snapshot stands, or it is the tree of a fork. -/
def Constructed (args : CopyArguments) (root : Inode) (entries : List (String × PathState)) (digest : Option String) (d : Disk) :
    Prop :=
  match args.fork with
  | none => ∀ item ∈ entries, state_at d root (components item.1) = some item.2
  | some fork => ∃ found, digest = some found ∧ Forked root fork entries found d

/-- A copy that passes the chain over leaves it as it is. -/
theorem Unbegun.filled {skipped : List String} (h : Unbegun root d) (hd : d.Tree root) (ht : t.Tree root)
    (hfilled : d.Filled root skipped t) (hskipped : CHAIN_LEAF ∈ skipped) : Unbegun root t := by
  rcases h with habsent | ⟨fd, staged, hfd, hdirectory⟩
  · exact .inl (hfilled.absent ht hskipped habsent)
  · have hchain : d.directory_at root [CHAIN_LEAF] = some fd := by
      rw [Disk.directory_at_cons, Disk.child_eq_some_iff.mpr hfd]
      rfl
    refine .inr ⟨fd, staged, hfilled.kept _ _ _ hfd, hdirectory.congr fun name => leaf_congr ?_ fun entry hentry => ?_⟩
    · exact hfilled.lookup_below ht hskipped hchain name
    · exact hfilled.contents _ (hd.numbered _ _ _ hentry)

/-- The tree of a fork is copied beside its chain: one that is begun stays, since then nothing is missing of what the copy
looks for. -/
theorem copy_tree_forking {fork : ForkArguments} (source_root : Option Inode) {skipped : List String} (ht : t.Tree root)
    (hskipped : CHAIN_LEAF ∈ skipped) (hlisted : Listing skipped entries)
    (hchain : Unbegun root t ∨ ∃ digest, Forked root fork entries digest t) :
    (copy_tree source_root root entries).Ensures t (Forking root fork entries t)
      (Prog.ends (fun missing u => Forking root fork entries t u ∧
          (missing = [] → ∀ item ∈ entries, state_at u root (components item.1) = some item.2))
        (Forking root fork entries t)) := by
  have hfilled := copy_tree_ensures source_root ht hlisted
  rcases hchain with hunbegun | ⟨digest, hforked⟩
  · have hkept : ∀ u, t.Filled root skipped u ∧ u.Tree root → Forking root fork entries t u :=
      fun u hu => ⟨hu.2, hu.1.retains, .inl (hunbegun.filled ht hu.2 hu.1 hskipped)⟩
    refine hfilled.mono hkept ?_
    rintro (e | missing) u hu
    · exact hkept u hu
    · exact ⟨hkept u hu.1, hu.2⟩
  · have hstart : Forking root fork entries t t := ⟨ht, .refl _, .inr ⟨digest, hforked⟩⟩
    have hsettled : (copy_tree source_root root entries).Ensures t (fun _ => False) fun _ u => u = t :=
      copy_tree_settled fun _ item hitem => hforked.there hitem
    refine (hsettled.and hfilled).mono (fun u hu => hu.1.elim) ?_
    rintro (e | missing) u ⟨rfl, hu⟩
    · exact hstart
    · exact ⟨hstart, hu.2⟩

theorem construct_destination_ensures (hhex : Hexadecimal) (ht : t.Tree root) (hfork : ∀ fork ∈ args.fork, fork.Accepted)
    (hlisted : Listing (passed_over args.fork.isSome) entries)
    (hchain : ∀ fork ∈ args.fork, Unbegun root t ∨ ∃ digest, Forked root fork entries digest t) :
    (construct_destination args source root entries).Ensures t (Constructing args root entries t)
      (Prog.ends (fun digest u => Constructing args root entries t u ∧ Constructed args root entries digest u)
        (Constructing args root entries t)) := by
  cases hargs : args.fork with
  | none =>
    have hplain : ∀ u, t.Filled root (passed_over args.fork.isSome) u ∧ u.Tree root → Constructing args root entries t u := by
      rintro u ⟨hfilled, htree⟩
      refine ⟨htree, hfilled.retains, fun fork hmem => ?_⟩
      rw [hargs] at hmem
      cases hmem
    refine ((copy_tree_ensures _ ht hlisted).mono hplain fun _ _ hu => hu).bind ?_ fun e u hu => hplain u hu
    rintro missing u ⟨hu, hstands⟩
    by_cases hmissing : missing = []
    · rw [if_pos hmissing, hargs]
      refine .pure ⟨hplain u hu, ?_⟩
      rw [Constructed, hargs]
      exact hstands hmissing
    · rw [if_neg hmissing]
      exact .throw (hplain u hu)
  | some fork =>
    have hskipped : CHAIN_LEAF ∈ passed_over args.fork.isSome := by
      rw [hargs]
      exact List.mem_cons_of_mem _ List.mem_cons_self
    have hbeside : ∀ item ∈ entries, BesideChain (components item.1) := by
      intro item hitem first hfirst heq
      exact hlisted.passed item hitem first hfirst (heq ▸ hskipped)
    have hforking : ∀ u, Forking root fork entries t u → Constructing args root entries t u := by
      intro u hu
      refine ⟨hu.tree, hu.retains, fun fork' hmem => ?_⟩
      rw [hargs] at hmem
      cases hmem
      exact hu.chain
    have hcopy := copy_tree_forking (source.map CopySource.root_fd) ht hskipped hlisted (hchain fork (by rw [hargs]; rfl))
    refine (hcopy.mono hforking fun _ _ hu => hu).bind ?_ fun e u hu => hforking u hu
    rintro missing u ⟨hu, hstands⟩
    by_cases hmissing : missing = []
    · rw [if_pos hmissing, hargs]
      have hsince : ∀ v, Forking root fork entries u v → Constructing args root entries t v :=
        fun v hv => hforking v ⟨hv.tree, hu.retains.trans hv.retains, hv.chain⟩
      refine ((finish_fork_construction_ensures hhex hu.tree (hfork fork (by rw [hargs]; rfl)) hbeside (hstands hmissing)
        hu.chain).mono hsince fun _ _ hv => hv).bind ?_ fun e v hv => hsince v hv
      rintro digest v ⟨hv, hforked⟩
      refine .pure ⟨hsince v hv, ?_⟩
      rw [Constructed, hargs]
      exact ⟨digest, rfl, hforked⟩
    · rw [if_neg hmissing]
      exact .throw (hforking u hu)

/-- The destination is finished: what is constructed has the paths that are expected and no others, the claim aside. -/
structure Copied (args : CopyArguments) (root : Inode) (entries : List (String × PathState)) (digest : Option String) (d : Disk) :
    Prop where
  constructed : Constructed args root entries digest d
  proof : ∃ proof, Lists d root [ROOT_CLAIM_LEAF] proof ∧
    ∀ path, path ∈ proof.map Prod.fst ↔ path ∈ expected_paths args (entries.map Prod.fst) digest

/-- What the attempts at a copy may have left in its destination, phase by phase. -/
def Phased (args : CopyArguments) (root : Inode) (d : Disk) : Option RootOperationRow → Prop
  | none => ∀ fork ∈ args.fork, Unbegun root d
  | some row => match row.phase with
    | .recorded => ∀ fork ∈ args.fork, Unbegun root d
    | .source_snapshot_durable => ∃ snapshot, row.source_snapshot = some snapshot ∧
        Listing (passed_over args.fork.isSome) snapshot.entries ∧
        ∀ fork ∈ args.fork, Unbegun root d ∨ ∃ digest, Forked root fork snapshot.entries digest d
    | .tree_durable => ∃ snapshot, row.source_snapshot = some snapshot ∧
        Listing (passed_over args.fork.isSome) snapshot.entries ∧ Copied args root snapshot.entries row.genesis_digest d
    | .complete => ∃ snapshot, row.source_snapshot = some snapshot ∧
        Listing (passed_over args.fork.isSome) snapshot.entries ∧ Copied args root snapshot.entries row.genesis_digest d ∧
        d.lookup root ROOT_CLAIM_LEAF = none

/-- A destination that attempts at a copy have made. -/
structure InDestination (args : CopyArguments) (root : Inode) (s : RootState) : Prop where
  destination : s.disk.child args.dest_parent_fd args.dest_leaf = some root
  tree : s.disk.Tree root
  accepted : ∀ fork ∈ args.fork, fork.Accepted
  fresh : s.carrier.version = 0 → s.carrier.tables.operation = none
  phased : Phased args root s.disk s.carrier.tables.operation

/-! What a change of the volume leaves. -/

section

variable {digest : Option String} {skipped : List String}

omit [UnicodeData] in
theorem Lists.agrees {part : List String → Prop} (h : Lists d root skipped entries) (hagrees : d.Agrees root part t)
    (hpart : ∀ name rest, name ∉ skipped → part (name :: rest)) : Lists t root skipped entries := by
  intro path state
  rw [h path state]
  refine exists_congr fun name => exists_congr fun rest => and_congr_right fun hname => ?_
  rw [state_at_agrees hagrees (hpart name rest hname)]

/-- The names of the destination but for the claim. -/
def BesideClaim (names : List String) : Prop := names ≠ [ROOT_CLAIM_LEAF]

omit [UnicodeData] [Sha256] in
theorem besideClaim_of_head {names : List String} (h : ∀ first ∈ names.head?, first ≠ ROOT_CLAIM_LEAF) : BesideClaim names := by
  rintro rfl
  exact h ROOT_CLAIM_LEAF rfl rfl

omit [UnicodeData] [Sha256] in
theorem mem_passed_over (exclude_chain : Bool) : ROOT_CLAIM_LEAF ∈ passed_over exclude_chain := by
  cases exclude_chain <;> exact List.mem_cons_self

omit [UnicodeData] [Sha256] in
theorem Listing.beside_claim {exclude_chain : Bool} (h : Listing (passed_over exclude_chain) entries) :
    ∀ item ∈ entries, BesideClaim (components item.1) := fun item hitem =>
  besideClaim_of_head fun first hfirst heq => h.passed item hitem first hfirst (heq ▸ mem_passed_over exclude_chain)

omit [Sha256] in
theorem ForkArguments.Accepted.beside_claim {fork : ForkArguments} (h : fork.Accepted) :
    (∀ override ∈ fork.overrides, BesideClaim (components override.path)) ∧
      ∀ path ∈ fork.surface_paths, BesideClaim (components path) := by
  have hbeside : ∀ path, Passable path → BesideClaim (components path) := fun path hpath =>
    besideClaim_of_head fun first hfirst => (hpath first (List.mem_of_mem_head? hfirst)).1
  exact ⟨fun override hoverride => hbeside _ ((overrides_accepted h.overrides).2 override hoverride).2,
    fun path hpath => hbeside path (passable_of_surface h.surface path hpath)⟩

theorem Forked.beside_claim {fork : ForkArguments} {digest : String} (h : Forked root fork entries digest d)
    (hagrees : d.Agrees root BesideClaim t) {exclude_chain : Bool} (hlisted : Listing (passed_over exclude_chain) entries)
    (haccepted : fork.Accepted) : Forked root fork entries digest t :=
  h.agrees hagrees hlisted.beside_claim haccepted.beside_claim.1 haccepted.beside_claim.2
    ⟨besideClaim_of_head (by rintro first ⟨rfl⟩; decide), fun name => besideClaim_of_head (by rintro first ⟨rfl⟩; decide)⟩

theorem Copied.beside_claim (h : Copied args root entries digest d) (hagrees : d.Agrees root BesideClaim t)
    {exclude_chain : Bool} (hlisted : Listing (passed_over exclude_chain) entries) (haccepted : ∀ fork ∈ args.fork, fork.Accepted) :
    Copied args root entries digest t := by
  refine ⟨?_, ?_⟩
  · have hconstructed := h.constructed
    unfold Constructed at hconstructed ⊢
    split at hconstructed
    · intro item hitem
      rw [state_at_agrees hagrees (hlisted.beside_claim item hitem)]
      exact hconstructed item hitem
    · rename_i fork hfork
      obtain ⟨found, rfl, hforked⟩ := hconstructed
      exact ⟨found, rfl, hforked.beside_claim hagrees hlisted (haccepted fork (by rw [hfork]; rfl))⟩
  · obtain ⟨proof, hlists, hpaths⟩ := h.proof
    refine ⟨proof, hlists.agrees hagrees fun name rest hname => besideClaim_of_head ?_, hpaths⟩
    rintro first ⟨rfl⟩ heq
    exact hname (heq ▸ List.mem_singleton_self _)

/-- What the attempts have left stands where the whole destination agrees. -/
theorem Phased.agrees {row : Option RootOperationRow} (h : Phased args root d row) (hagrees : d.Agrees root (fun _ => True) t)
    (haccepted : ∀ fork ∈ args.fork, fork.Accepted) : Phased args root t row := by
  have hunbegun : Unbegun root d → Unbegun root t := fun h => h.agrees hagrees ⟨trivial, fun _ => trivial⟩
  have hclaim : d.Agrees root BesideClaim t := hagrees.mono fun _ _ => trivial
  cases row with
  | none => exact fun fork hfork => hunbegun (h fork hfork)
  | some row =>
    cases hphase : row.phase <;> simp only [Phased, hphase] at h ⊢
    case recorded => exact fun fork hfork => hunbegun (h fork hfork)
    case source_snapshot_durable =>
      obtain ⟨snapshot, hsnapshot, hlisted, hchain⟩ := h
      refine ⟨snapshot, hsnapshot, hlisted, fun fork hfork => (hchain fork hfork).imp hunbegun ?_⟩
      rintro ⟨digest, hforked⟩
      exact ⟨digest, hforked.beside_claim hclaim hlisted (haccepted fork hfork)⟩
    case tree_durable =>
      obtain ⟨snapshot, hsnapshot, hlisted, hcopied⟩ := h
      exact ⟨snapshot, hsnapshot, hlisted, hcopied.beside_claim hclaim hlisted haccepted⟩
    case complete =>
      obtain ⟨snapshot, hsnapshot, hlisted, hcopied, habsent⟩ := h
      refine ⟨snapshot, hsnapshot, hlisted, hcopied.beside_claim hclaim hlisted haccepted, ?_⟩
      exact (hagrees.entry_at [ROOT_CLAIM_LEAF] trivial).trans habsent

end

/-! The rows. -/

section

variable {s s' : RootState} {row : RootOperationRow}

omit [UnicodeData] [Sha256] in
theorem update_operation_eq_ok {tables tables' : RootTables} {absent : String} {update : RootOperationRow → RootOperationRow}
    (h : tables.update_operation absent update = .ok tables') (hrow : tables.operation = some row) :
    tables'.operation = some (update row) := by
  unfold RootTables.update_operation at h
  rw [hrow] at h
  obtain ⟨_, _, h⟩ := bind_eq_ok_iff.mp h
  obtain ⟨_, _, h⟩ := bind_eq_ok_iff.mp h
  obtain ⟨_, _, h⟩ := bind_eq_ok_iff.mp h
  obtain ⟨_, _, h⟩ := bind_eq_ok_iff.mp h
  obtain rfl := pure_eq_ok_iff.mp h
  rfl

omit [UnicodeData] [Sha256] in
/-- The row that is read is the one that is there. -/
theorem operation_row_ensures {I : RootState → Prop} : operation_row.Ensures s I
    (Prog.ends (fun row t => t = s ∧ s.carrier.tables.operation = some row) fun t => t = s) := by
  refine .read_bind (fun found hfound => ?_) fun e _ => rfl
  cases hfound
  cases hrow : s.carrier.tables.operation with
  | none => exact .throw rfl
  | some row => exact .pure ⟨rfl, rfl⟩

omit [UnicodeData] in
theorem InDestination.on_disk [UnicodeData] (h : InDestination args root s) (htree : d.Tree root) (hretains : s.disk.Retains d)
    (hphased : Phased args root d s.carrier.tables.operation) : InDestination args root { s with disk := d } :=
  ⟨hretains _ _ _ h.destination, htree, h.accepted, h.fresh, hphased⟩

theorem InDestination.versioned (h : InDestination args root s) (hrow : s.carrier.tables.operation = some row) :
    s.carrier.version ≠ 0 := by
  intro hzero
  rw [h.fresh hzero] at hrow
  cases hrow

/-- A commit of the tables, after which the destination is what the new row says. -/
theorem InDestination.commit {body : RootTables → Except Raised RootTables} (h : InDestination args root s)
    (hversion : s.carrier.version ≠ 0) (row' : RootOperationRow)
    (hbody : ∀ tables, body s.carrier.tables = .ok tables → tables.operation = some row' ∧
      Phased args root s.disk (some row')) :
    (commit_tables body).Ensures s (InDestination args root) fun _ t => InDestination args root t := by
  refine commit_tables_ensures (fun tables htables => ?_) fun _ _ => h
  obtain ⟨hoperation, hphased⟩ := hbody tables htables
  have hnew : InDestination args root { s with carrier := { s.carrier with tables } } :=
    ⟨h.destination, h.tree, h.accepted, fun hzero => absurd hzero hversion, hoperation ▸ hphased⟩
  exact ⟨hnew, hnew⟩

/-- The source snapshot is taken and stored. -/
theorem take_source_snapshot_ensures {plan : CopyPlan} (hplan : plan.args = args) (h : InDestination args root s)
    (hrow : s.carrier.tables.operation = some row) (hphase : row.phase = .recorded) :
    (take_source_snapshot depth plan source).Ensures s (InDestination args root) fun _ t => InDestination args root t := by
  cases source with
  | none => exact .throw h
  | some source =>
    refine in_root_bind (Q := fun r d => d = s.disk ∧
      r = snapshot_of s.disk depth source.root_fd plan.source_head plan.args.fork.isSome) (.read ⟨rfl, rfl⟩) ?_ ?_
    · rintro snapshot _ ⟨rfl, hsnapshot⟩
      have hlisted := (snapshot_lists h.tree.spelled hsnapshot.symm).2.2
      rw [hplan] at hlisted
      have hchain := h.phased
      rw [hrow, Phased, hphase] at hchain
      refine h.commit (h.versioned hrow) { row with source_snapshot := some snapshot, phase := .source_snapshot_durable }
        fun tables htables => ⟨update_operation_eq_ok htables hrow, snapshot, rfl, hlisted, fun fork hfork => ?_⟩
      exact .inl (hchain fork hfork)
    · rintro e _ ⟨rfl, _⟩
      exact h

omit [UnicodeData] [Sha256] in
/-- The proof that a row carries. -/
theorem proof_of_bind {β : Type} {found : Option Snapshot} {f : Snapshot → Rooted β} {I : RootState → Prop}
    {R : Except Raised β → RootState → Prop} (hok : ∀ snapshot, found = some snapshot → (f snapshot).Ensures s I R)
    (herror : ∀ e, R (.error e) s) : (proof_of found >>= f).Ensures s I R := by
  cases found with
  | none => exact .throw (herror _)
  | some snapshot => exact hok snapshot rfl

/-- The destination is constructed, proved and flushed before its proof is stored. -/
theorem copy_destination_ensures (hhex : Hexadecimal) {plan : CopyPlan} (hplan : plan.args = args)
    (h : InDestination args root s) (hrow : s.carrier.tables.operation = some row)
    (hphase : row.phase = .source_snapshot_durable) :
    (copy_destination depth plan source root row).Ensures s (InDestination args root) fun _ t => InDestination args root t := by
  subst hplan
  refine proof_of_bind (fun snapshot hfound => ?_) fun _ => h
  have hphased := h.phased
  simp only [hrow, Phased, hphase, hfound, Option.some.injEq, exists_eq_left'] at hphased
  obtain ⟨hlisted, hchain⟩ := hphased
  have hsame : ∀ d, Constructing plan.args root snapshot.entries s.disk d → InDestination plan.args root { s with disk := d } := by
    intro d hd
    refine h.on_disk hd.tree hd.retains ?_
    simp only [hrow, Phased, hphase]
    exact ⟨snapshot, hfound, hlisted, hd.chain⟩
  refine in_root_bind ((construct_destination_ensures hhex h.tree h.accepted hlisted hchain).mono hsame fun _ _ hd => hd) ?_
    fun e d hd => hsame d hd
  rintro genesis_digest d ⟨hd, hconstructed⟩
  have hproof : (prove_destination depth plan root (snapshot.entries.map Prod.fst) genesis_digest).Ensures d
      (fun t => InDestination plan.args root { s with disk := t })
      (Prog.ends (fun _ t => t = d ∧ Copied plan.args root snapshot.entries genesis_digest d) fun t => t = d) := by
    refine (reads_prove_destination _ _ _ _ _).ensures (fun proof hproved => ⟨rfl, hconstructed, proof.entries, ?_⟩) fun e => rfl
    exact prove_destination_completes hd.tree.spelled hproved
  refine in_root_bind hproof ?_ ?_
  · rintro proof u ⟨rfl, hcopied⟩
    have hflushed : Constructing plan.args root snapshot.entries s.disk (u.fsync root) := by
      refine ⟨hd.tree.fsync root, hd.retains.trans (.fsync u root), fun fork hfork => ?_⟩
      rcases hd.chain fork hfork with hunbegun | ⟨digest, hforked⟩
      · exact .inl (hunbegun.agrees (.fsync hd.tree root fun _ => True) ⟨trivial, fun _ => trivial⟩)
      · exact .inr ⟨digest, hforked.fsync hd.tree root⟩
    refine in_root_bind (Q := fun r t => t = u.fsync root) (.call_ok rfl (hsame _ hflushed) rfl) ?_ ?_
    · rintro _ _ rfl
      have hcopied' : Copied plan.args root snapshot.entries genesis_digest (u.fsync root) :=
        hcopied.beside_claim (.fsync hd.tree root _) hlisted h.accepted
      refine (hsame _ hflushed).commit (h.versioned hrow)
        { row with destination_snapshot := some proof, genesis_digest, phase := .tree_durable }
        fun tables htables => ⟨update_operation_eq_ok htables hrow, snapshot, hfound, hlisted, hcopied'⟩
    · rintro e _ rfl
      exact hsame _ hflushed
  · rintro e u rfl
    exact hsame u hd

omit [UnicodeData] [Sha256] in
/-- A claim that is read is what the claim leaf holds. -/
theorem read_root_claim_completes {found : Option (List UInt8)} (h : (read_root_claim root).Completes d found t) :
    leaf d root ROOT_CLAIM_LEAF = found.map some := by
  cases hentry : d.lookup root ROOT_CLAIM_LEAF with
  | none =>
    have hnone : leaf d root ROOT_CLAIM_LEAF = (none : Option (List UInt8)).map some := leaf_eq_none_iff.mpr hentry
    rw [← ((read_root_claim_returns hnone).completes h).1]
    exact hnone
  | some entry =>
    obtain ⟨kind, inode⟩ := entry
    cases kind with
    | file =>
      have hsome : leaf d root ROOT_CLAIM_LEAF = (some (d.contents.get inode)).map some := by
        rw [leaf, hentry]
        rfl
      rw [← ((read_root_claim_returns hsome).completes h).1]
      exact hsome
    | symlink target =>
      have hopen : (open_regular_nofollow root ROOT_CLAIM_LEAF).Fails d (.OSError .ELOOP) := .read (by rw [hentry])
      have hfails : (read_root_claim root).Fails d (.AtomsError (.RootOperationInvalid
          "the reserved root-claim leaf is not a regular file")) := Prog.Fails.bind (.try_error hopen.bind .throw)
      exact absurd h hfails.not_completes
    | directory =>
      have hopen : (open_regular_nofollow root ROOT_CLAIM_LEAF).Returns d ⟨.directory, inode⟩ := .read (by rw [hentry])
      have hopened : ∀ handler, (tryCatch (do
          let entry ← open_regular_nofollow root ROOT_CLAIM_LEAF
          pure (some entry)) handler : Call (Option fs.Entry)).Returns d (some ⟨.directory, inode⟩) :=
        fun handler => .try_ok (hopen.bind .pure)
      have h := (hopened _).completes_bind h
      obtain ⟨_, hread, _⟩ := Prog.Reads.completes_bind (.read _) h
      cases (Prog.completes_read_iff.mp hread).1

omit [UnicodeData] [Sha256] in
theorem reads_read_root_claim (root : Inode) : (read_root_claim root).Reads := by
  refine .bind (.tryCatch (.bind (.read _) fun _ => .pure _) fun caught => ?_) fun opened => ?_
  · split
    · exact .ite (.pure _) (.ite (.throw _) (.throw _))
    · exact .throw _
  · cases opened with
    | none => exact .pure _
    | some entry => exact .bind (.read _) fun _ => .pure _

omit [UnicodeData] [Sha256] in
/-- The claim is removed, and nothing else. -/
theorem remove_root_claim_leaves (hd : d.Tree root) (claim : List UInt8) :
    (remove_root_claim root claim).Ensures d (fun t => t.Tree root ∧ d.Retains t ∧ d.Agrees root BesideClaim t)
      (Prog.ends (fun _ t => (t.Tree root ∧ d.Retains t ∧ d.Agrees root BesideClaim t) ∧ t.lookup root ROOT_CLAIM_LEAF = none)
        fun t => t.Tree root ∧ d.Retains t ∧ d.Agrees root BesideClaim t) := by
  have hstart : d.Tree root ∧ d.Retains d ∧ d.Agrees root BesideClaim d := ⟨hd, .refl d, .refl _ _ _⟩
  refine (reads_read_root_claim root).ensures_bind (fun found hfound => ?_) fun e => hstart
  have hleaf := read_root_claim_completes hfound
  cases found with
  | none => exact .pure ⟨hstart, leaf_eq_none_iff.mp hleaf⟩
  | some bytes =>
    obtain ⟨inode, hfile, _⟩ := file_of_leaf hleaf
    refine .read_bind (fun _ _ => ?_) fun e _ => hstart
    have hroot : d.directory_at root [] = some root := rfl
    have hcomponents : components ROOT_CLAIM_LEAF = [] ++ [ROOT_CLAIM_LEAF] := by decide
    have hremoved := swapped_removed hd hcomponents hroot hfile
    have hbeside : d.Agrees root BesideClaim (d.set_entry root ROOT_CLAIM_LEAF none) :=
      hremoved.agrees.mono fun names hnames => by rwa [hcomponents]
    refine .call_ok_bind (a := ()) (by rw [hfile]) ⟨hremoved.tree, hremoved.retains, hbeside⟩ ?_
    have hflushed := And.intro (hremoved.tree.fsync root) (And.intro (hremoved.retains.trans (.fsync _ root))
      (hbeside.trans (.fsync hremoved.tree root _)))
    refine .call_ok rfl hflushed ⟨hflushed, ?_⟩
    rw [Disk.lookup_fsync, Disk.lookup_set_entry_self]

omit [UnicodeData] [Sha256] in
theorem insert_root_operation_row {tables tables' : RootTables} {operation_id request_json request_hash : String}
    {kind : RootOperationKind} (h : tables.insert_root_operation operation_id kind request_json request_hash = .ok tables') :
    tables'.operation = some ⟨operation_id, kind, .recorded, request_json, request_hash, none, none, none⟩ := by
  obtain ⟨_, _, h⟩ := bind_eq_ok_iff.mp h
  obtain ⟨_, _, h⟩ := bind_eq_ok_iff.mp h
  obtain ⟨_, _, h⟩ := bind_eq_ok_iff.mp h
  obtain rfl := pure_eq_ok_iff.mp h
  rfl

omit [UnicodeData] [Sha256] in
theorem insert_root_lifecycle_operation {tables tables' : RootTables} {state : RootLifecycleState} {machine_id root_path : String}
    {origin : RootLifecycleOrigin} (h : tables.insert_root_lifecycle state machine_id root_path origin = .ok tables') :
    tables'.operation = tables.operation := by
  obtain ⟨_, _, h⟩ := bind_eq_ok_iff.mp h
  obtain ⟨_, _, h⟩ := bind_eq_ok_iff.mp h
  obtain ⟨_, _, h⟩ := bind_eq_ok_iff.mp h
  obtain rfl := pure_eq_ok_iff.mp h
  rfl

omit [UnicodeData] [Sha256] in
theorem set_root_lifecycle_state_operation {tables tables' : RootTables} {state : RootLifecycleState}
    (h : tables.set_root_lifecycle_state state = .ok tables') : tables'.operation = tables.operation := by
  unfold RootTables.set_root_lifecycle_state at h
  split at h
  · cases h
  · obtain ⟨_, _, h⟩ := bind_eq_ok_iff.mp h
    obtain ⟨_, _, h⟩ := bind_eq_ok_iff.mp h
    obtain rfl := pure_eq_ok_iff.mp h
    rfl

/-- The claim of a finished destination is removed, and the operation completed. -/
theorem grant_destination_ensures {plan : CopyPlan} (h : InDestination args root s)
    (hrow : s.carrier.tables.operation = some row) (hphase : row.phase = .tree_durable) :
    (grant_destination depth plan root row).Ensures s (InDestination args root) fun _ t => InDestination args root t := by
  refine proof_of_bind (fun source_snapshot hsource => proof_of_bind (fun proof hproof => ?_) fun _ => h) fun _ => h
  have hphased := h.phased
  simp only [hrow, Phased, hphase, hsource, Option.some.injEq, exists_eq_left'] at hphased
  obtain ⟨hlisted, hcopied⟩ := hphased
  refine in_root_bind (Q := fun _ d => d = s.disk) ((reads_prove_destination _ _ _ _ _).ensures (fun _ _ => rfl) fun _ => rfl)
    ?_ fun e d hd => by rw [hd]; exact h
  rintro reproved _ rfl
  refine in_root_lift_bind (fun _ _ => in_root_lift_bind (fun claim _ => ?_) fun e _ => h) fun e _ => h
  have hsame : ∀ d, d.Tree root ∧ s.disk.Retains d ∧ s.disk.Agrees root BesideClaim d →
      InDestination args root { s with disk := d } ∧ Copied args root source_snapshot.entries row.genesis_digest d := by
    rintro d ⟨htree, hretains, hagrees⟩
    have hcopied' := hcopied.beside_claim hagrees hlisted h.accepted
    refine ⟨h.on_disk htree hretains ?_, hcopied'⟩
    simp only [hrow, Phased, hphase]
    exact ⟨source_snapshot, hsource, hlisted, hcopied'⟩
  refine in_root_bind ((remove_root_claim_leaves h.tree claim).mono (fun d hd => (hsame d hd).1) fun _ _ hd => hd) ?_
    fun e d hd => (hsame d hd).1
  rintro _ d ⟨hd, habsent⟩
  refine (hsame d hd).1.commit (h.versioned hrow) { row with phase := .complete } fun tables htables => ?_
  obtain ⟨middle, hmiddle, htables⟩ := bind_eq_ok_iff.mp htables
  have hoperation : middle.operation = some row := (set_root_lifecycle_state_operation hmiddle).trans hrow
  exact ⟨update_operation_eq_ok htables hoperation, source_snapshot, hsource, hlisted, (hsame d hd).2, habsent⟩

/-- A copy whose row is not there yet gets one. -/
theorem stamped_row_ensures {plan : CopyPlan} (h : InDestination args root s) (hversion : s.carrier.version ≠ 0) :
    (stamped_row plan).Ensures s (InDestination args root)
      (Prog.ends (fun row t => InDestination args root t ∧ t.carrier.tables.operation = some row) (InDestination args root)) := by
  refine .read_bind (fun found hfound => ?_) fun e _ => h
  cases hfound
  cases hrow : s.carrier.tables.operation with
  | some row => exact in_root_lift_bind (fun _ _ => .pure ⟨h, hrow⟩) fun e _ => h
  | none =>
    refine .bind (Q := fun _ t => InDestination args root t) ?_ (fun _ t ht => ?_) fun e t ht => ht
    · refine in_root_lift_bind (fun request _ => ?_) fun e _ => h
      have hphased := h.phased
      rw [hrow] at hphased
      refine h.commit hversion
        ⟨plan.operation_id, plan.args.kind, .recorded, request.operation_json, request.operation_hash, none, none, none⟩
        fun tables htables => ?_
      obtain ⟨middle, hmiddle, htables⟩ := bind_eq_ok_iff.mp htables
      refine ⟨(insert_root_lifecycle_operation htables).trans (insert_root_operation_row hmiddle), hphased⟩
    · refine operation_row_ensures.mono (fun _ hu => hu) ?_
      rintro (e | row) _ hu
      · exact hu ▸ ht
      · obtain ⟨rfl, hrow⟩ := hu
        exact ⟨ht, hrow⟩

/-- A phase leaves the row that the next one goes on from. -/
theorem in_phase_ensures {phase : RootOperationPhase} {body : Rooted Unit} (h : InDestination args root s)
    (hrow : s.carrier.tables.operation = some row)
    (hbody : row.phase = phase → body.Ensures s (InDestination args root) fun _ t => InDestination args root t) :
    (in_phase phase row body).Ensures s (InDestination args root)
      (Prog.ends (fun row t => InDestination args root t ∧ t.carrier.tables.operation = some row) (InDestination args root)) := by
  unfold in_phase
  split
  · rename_i hphase
    refine (hbody hphase).bind (fun _ t ht => ?_) fun e t ht => ht
    refine operation_row_ensures.mono (fun _ hu => hu) ?_
    rintro (e | row) _ hu
    · exact hu ▸ ht
    · obtain ⟨rfl, hrow⟩ := hu
      exact ⟨ht, hrow⟩
  · exact .pure ⟨h, hrow⟩

/-- A copy is advanced phase by phase. -/
theorem advance_copy_ensures (hhex : Hexadecimal) {plan : CopyPlan} (hplan : plan.args = args) (h : InDestination args root s)
    (hversion : s.carrier.version ≠ 0) :
    (advance_copy depth plan source root).Ensures s (InDestination args root) fun _ t => InDestination args root t := by
  refine (stamped_row_ensures h hversion).bind ?_ fun e t ht => ht
  rintro row t ⟨ht, hrow⟩
  refine (in_phase_ensures ht hrow fun hphase => take_source_snapshot_ensures hplan ht hrow hphase).bind ?_ fun e t ht => ht
  rintro row u ⟨hu, hrow⟩
  refine (in_phase_ensures hu hrow fun hphase => copy_destination_ensures hhex hplan hu hrow hphase).bind ?_ fun e t ht => ht
  rintro row v ⟨hv, hrow⟩
  split
  · rename_i hphase
    exact grant_destination_ensures hv hrow hphase
  · exact .pure hv

end

end atoms.coordinator
