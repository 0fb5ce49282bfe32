import Atoms.Coordinator.Register.Capture

open atoms.errors atoms.fingerprint atoms.identifiers atoms.spec atoms.fs atoms.store atoms.chain checked crash

namespace atoms.coordinator

variable {root fd : Inode} {base d t : Disk}

/-! The chain directory. -/

/-- A change within a new directory. -/
theorem Beside.within (h : Beside root base d) (hold : root < base.next) (hnew : base.next ≤ fd)
    (ht : d.Apart (fun parent _ => parent = fd) t) (hnumbered : t.Numbered) :
    Beside root base t ∧ ∀ name, t.lookup root name = d.lookup root name ∧ leaf t root name = leaf d root name := by
  have hne : root ≠ fd := Nat.ne_of_lt (hold.trans_le hnew)
  refine ⟨⟨h.apart.trans (ht.mono fun parent name heq => .inl (heq ▸ hnew)), hnumbered⟩, fun name => ?_⟩
  have hlookup := ht.lookup root name hne
  exact ⟨hlookup, leaf_congr hlookup fun entry hentry => ht.contents _ (h.numbered _ _ _ hentry)⟩

theorem Beside.fsync (h : Beside root base d) (inode : Inode) : Beside root base (d.fsync inode) :=
  ⟨h.apart.fsync inode, h.numbered.fsync inode⟩

theorem leaf_fsync (d : Disk) (inode parent : Inode) (name : String) : leaf (d.fsync inode) parent name = leaf d parent name :=
  leaf_congr (Disk.lookup_fsync d _ _ _) fun _ _ => Disk.get_contents_fsync d _ _

section

variable [UnicodeData] [Sha256] {rows : List Row} {staged : Option (List UInt8)}

omit [UnicodeData] [Sha256] in
theorem open_chain_returns (hfd : d.lookup root CHAIN_LEAF = some ⟨.directory, fd⟩) :
    (open_child_directory root CHAIN_LEAF).Returns d fd := by
  refine .read ?_
  rw [hfd]

omit [UnicodeData] [Sha256] in
theorem find_chain_returns (hfd : d.lookup root CHAIN_LEAF = some ⟨.directory, fd⟩) :
    (find_chain root).Returns d (some fd) := .try_ok (.bind (open_chain_returns hfd) .pure)

omit [UnicodeData] [Sha256] in
theorem find_chain_absent (hfd : d.lookup root CHAIN_LEAF = none) : (find_chain root).Returns d none := by
  have hopen : (open_child_directory root CHAIN_LEAF).Fails d (.OSError .ENOENT) := .read (by rw [hfd])
  exact .try_error hopen.bind .pure

theorem resolve_chain_absent (hfd : d.lookup root CHAIN_LEAF = none) : (resolve_chain root).Returns d () :=
  .bind (find_chain_absent hfd) .pure

/-- `resolve` leaves a chain without a staging leaf as it is. -/
theorem resolve_chain_returns (hfd : d.lookup root CHAIN_LEAF = some ⟨.directory, fd⟩) (h : Directory d fd rows none)
    (hvalid : Valid rows) : (resolve_chain root).Returns d () := by
  have hvalidates := validate_chain_nil h hvalid
  refine Prog.Returns.bind (find_chain_returns hfd) (Prog.Returns.bind hvalidates (Prog.Returns.bind hvalidates ?_))
  have hsame : same_history ⟨rows.map Row.link, last_digest none rows, none⟩
      ⟨rows.map Row.link, last_digest none rows, none⟩ = true := by
    rw [same_history, decide_eq_true_eq]
    exact ⟨rfl, rfl⟩
  rw [Option.map_none, require_chain, if_pos hsame]
  exact Prog.Returns.bind .pure (Prog.Returns.bind (apply_none h hvalid) .pure)

/-- `resolve` removes a staging leaf. -/
theorem resolve_chain_ensures (hfd : d.lookup root CHAIN_LEAF = some ⟨.directory, fd⟩) (hnumbered : d.Numbered)
    (h : Directory d fd rows staged) (hvalid : Valid rows) :
    (resolve_chain root).Ensures d (fun t => Published fd rows t ∧ d.Apart (fun parent _ => parent = fd) t)
      fun r t => r = .ok () ∧ Published fd rows t ∧ d.Apart (fun parent _ => parent = fd) t := by
  refine (find_chain_returns hfd).ensures_bind ?_
  refine (validate_chain_nil h hvalid).ensures_bind ((validate_chain_nil h hvalid).ensures_bind ?_)
  refine .guard_bind (fun _ => ?_) fun hnot => absurd ?_ hnot
  · have hkeeps : Prog.Keeps (d.Apart fun parent _ => parent = fd) (apply_survivors fd
        ⟨rows.map Row.link, last_digest none rows, staged.map fun _ => .REMOVE⟩) := keeps_apply_survivors (fun _ => rfl) _
    refine ((apply_removal hnumbered h hvalid).and (hkeeps d (.refl _ d))).bind ?_ ?_
    · rintro validated t ⟨⟨_, hpublished, _⟩, hapart⟩
      exact .pure ⟨rfl, hpublished, hapart⟩
    · rintro e t ⟨⟨heq, _⟩, _⟩
      cases heq
  · rw [same_history, decide_eq_true_eq]
    exact ⟨rfl, rfl⟩

omit [UnicodeData] [Sha256] in
theorem valid_nil : Valid [] := ⟨trivial, _, rfl⟩

omit [UnicodeData] in
theorem valid_genesis_of (args : Registration) (baseline : List (String × PathStateJSON)) (envelope : List UInt8) :
    Valid [next_row [] (genesis_of args baseline) envelope] := ⟨⟨rfl, trivial⟩, _, rfl⟩

omit [UnicodeData] [Sha256] in
/-- The chain directory is opened, and flushed into the root. -/
theorem bootstrap_opens (hfd : d.lookup root CHAIN_LEAF = some ⟨.directory, fd⟩) :
    (bootstrap_chain root).Ensures d (fun t => t = d.fsync root) fun r t => r = .ok fd ∧ t = d.fsync root := by
  have htaken : (mkdir_child root CHAIN_LEAF 0o700).Fails d (.OSError .EEXIST) := .call (by rw [hfd])
  refine (Prog.Returns.try_error htaken .pure).ensures_bind ?_
  refine (Prog.Returns.try_ok (open_chain_returns hfd)).ensures_bind ?_
  exact .call_ok_bind rfl rfl (.pure ⟨rfl, rfl⟩)

/-- A chain directory is made where there is none. -/
theorem bootstrap_makes (h : Bare root base d) (hold : root < base.next) (hbeside : Beside root base d) :
    (bootstrap_chain root).Ensures d
      (fun t => Beside root base t ∧ t.lookup root CHAIN_LEAF = some ⟨.directory, d.next⟩ ∧ Directory t d.next [] none ∧
        leaf t root ROOT_CLAIM_LEAF = leaf d root ROOT_CLAIM_LEAF)
      fun r t => r = .ok d.next ∧ Beside root base t ∧ t.lookup root CHAIN_LEAF = some ⟨.directory, d.next⟩ ∧
        Directory t d.next [] none ∧ leaf t root ROOT_CLAIM_LEAF = leaf d root ROOT_CLAIM_LEAF := by
  obtain ⟨habsent, hempty⟩ := h
  let made := d.allocate .directory root CHAIN_LEAF 0o700
  have hfd : made.lookup root CHAIN_LEAF = some ⟨.directory, d.next⟩ := by
    rw [Disk.lookup_allocate, if_pos rfl]
  have hbeside' : Beside root base made :=
    ⟨hbeside.apart.allocate (.inr ⟨rfl, .inr rfl⟩) _ _, hbeside.numbered.allocate _ _ _ _⟩
  have hnone : ∀ name, made.lookup d.next name = none := by
    intro name
    rw [Disk.lookup_allocate, if_neg fun heq => ?_, hempty _ _ hbeside.apart.next]
    exact absurd (Prod.mk.inj heq).1 (Nat.ne_of_lt (hold.trans_le hbeside.apart.next))
  have hleaf : ∀ name, leaf made d.next name = none := by
    intro name
    rw [leaf, hnone name]
    rfl
  have hdirectory : Directory made d.next [] none := by
    refine ⟨List.nodup_nil, fun row hrow => absurd hrow List.not_mem_nil, hleaf _, fun row hrow => absurd hrow List.not_mem_nil,
      fun name hname => ?_⟩
    rw [hleaf name] at hname
    cases hname
  have hclaim : leaf made root ROOT_CLAIM_LEAF = leaf d root ROOT_CLAIM_LEAF := by
    refine leaf_congr ?_ fun entry hentry => ?_
    · rw [Disk.lookup_allocate, if_neg fun heq => absurd (Prod.mk.inj heq).2 (by decide)]
    · rw [Disk.get_contents_allocate, if_neg (Nat.ne_of_gt (hbeside.numbered _ _ _ hentry))]
  refine .bind (Q := fun r t => r = .ok () ∧ t = made) ?_ ?_ ?_
  · refine .tryCatch (Q := fun r t => r = .ok () ∧ t = made) (.call_ok ?_ ⟨hbeside', hfd, hdirectory, hclaim⟩ ⟨rfl, rfl⟩)
      (fun _ _ ht => ht) ?_
    · rw [habsent]
    · rintro e t ⟨heq, _⟩
      cases heq
  · rintro _ t ⟨_, rfl⟩
    refine (Prog.Returns.try_ok (open_chain_returns hfd)).ensures_bind ?_
    have hflushed : Beside root base (made.fsync root) ∧ (made.fsync root).lookup root CHAIN_LEAF = some ⟨.directory, d.next⟩ ∧
        Directory (made.fsync root) d.next [] none ∧ leaf (made.fsync root) root ROOT_CLAIM_LEAF = leaf d root ROOT_CLAIM_LEAF := by
      refine ⟨hbeside'.fsync root, ?_, hdirectory.fsync root, ?_⟩
      · rw [Disk.lookup_fsync, hfd]
      · rw [leaf_fsync, hclaim]
    exact .call_ok_bind rfl hflushed (.pure ⟨rfl, hflushed⟩)
  · rintro e t ⟨heq, _⟩
    cases heq

omit [UnicodeData] [Sha256]

/-! The claim. -/

theorem file_of_leaf {name : String} {bytes : List UInt8} (h : leaf d fd name = some (some bytes)) :
    ∃ inode, d.lookup fd name = some ⟨.file, inode⟩ ∧ d.contents.get inode = bytes := by
  rw [leaf, Option.map_eq_some_iff] at h
  obtain ⟨⟨kind, inode⟩, hlookup, hbytes⟩ := h
  cases kind with
  | file => exact ⟨inode, hlookup, Option.some.inj hbytes⟩
  | symlink target => cases hbytes
  | directory => cases hbytes

theorem leaf_eq_none_iff {name : String} : leaf d fd name = none ↔ d.lookup fd name = none := by
  rw [leaf, Option.map_eq_none_iff]

theorem read_root_claim_returns {claim : Option (List UInt8)} (h : leaf d root ROOT_CLAIM_LEAF = claim.map some) :
    (read_root_claim root).Returns d claim := by
  cases claim with
  | none =>
    have hlookup := leaf_eq_none_iff.mp h
    have hopen : (open_regular_nofollow root ROOT_CLAIM_LEAF).Fails d (.OSError .ENOENT) := .read (by rw [hlookup])
    exact .bind (a := none) (.try_error hopen.bind .pure) .pure
  | some bytes =>
    obtain ⟨inode, hlookup, hbytes⟩ := file_of_leaf h
    have hopen : (open_regular_nofollow root ROOT_CLAIM_LEAF).Returns d ⟨.file, inode⟩ := by
      refine .read ?_
      rw [hlookup]
    refine .bind (.try_ok (.bind hopen .pure)) (.bind (.read ?_) .pure)
    rw [hbytes]

/-- A claim leaf with some bytes, and nothing else of a registration. -/
structure Claiming (root : Inode) (base : Disk) (bytes : List UInt8) (d : Disk) : Prop where
  beside : Beside root base d
  claim : leaf d root ROOT_CLAIM_LEAF = some (some bytes)
  bare : Bare root base d

theorem Claiming.fsync {bytes : List UInt8} (h : Claiming root base bytes d) (inode : Inode) :
    Claiming root base bytes (d.fsync inode) where
  beside := h.beside.fsync inode
  claim := (leaf_fsync d inode root _).trans h.claim
  bare := by
    refine ⟨?_, fun parent name hnew => ?_⟩
    · rw [Disk.lookup_fsync, h.bare.1]
    · rw [Disk.lookup_fsync, h.bare.2 parent name hnew]

/-- The claim is written in place: until it is whole, the leaf holds a part of it. -/
theorem create_root_claim_ensures (h : Beside root base d) (hold : root < base.next) (hbare : Bare root base d)
    (hclaim : leaf d root ROOT_CLAIM_LEAF = none) (claim : List UInt8) :
    (create_root_claim root claim).Ensures d (fun t => ∃ bytes, bytes <+: claim ∧ Claiming root base bytes t)
      (Prog.ends (fun _ t => Claiming root base claim t)
        fun t => (∃ bytes, bytes <+: claim ∧ Claiming root base bytes t) ∧ ¬ base.Progresses) := by
  let made := d.allocate .file root ROOT_CLAIM_LEAF CLAIM_MODE
  have happart : base.Apart (Touched root base) made := h.apart.allocate (.inr ⟨rfl, .inl rfl⟩) _ _
  have hgrown : ∀ bytes t, made.Grown d.next bytes t → Claiming root base bytes t := by
    intro bytes t hgrown
    have hlookup := hgrown.lookup
    refine ⟨⟨happart.grown h.apart.next hgrown, fun parent name entry hentry => ?_⟩, ?_, ?_, fun parent name hnew => ?_⟩
    · rw [hlookup] at hentry
      rw [hgrown.next]
      exact h.numbered.allocate _ _ _ _ parent name entry hentry
    · rw [leaf, hlookup, Disk.lookup_allocate, if_pos rfl, Option.map_some, hgrown.contents, if_pos rfl,
        Disk.get_contents_allocate, if_pos rfl, List.nil_append]
    · rw [hlookup, Disk.lookup_allocate, if_neg fun heq => absurd (Prod.mk.inj heq).2 (by decide), hbare.1]
    · rw [hlookup, Disk.lookup_allocate, if_neg fun heq => ?_, hbare.2 parent name hnew]
      exact absurd (Prod.mk.inj heq).1 (Nat.ne_of_lt (hold.trans_le hnew))
  refine .call_ok_bind (a := d.next) (t := made) ?_ ⟨[], List.nil_prefix, hgrown [] made (.refl _ _)⟩ ?_
  · rw [leaf_eq_none_iff.mp hclaim]
  have hpart : ∀ t, (∃ bytes, bytes <+: claim ∧ made.Grown d.next bytes t) →
      ∃ bytes, bytes <+: claim ∧ Claiming root base bytes t := by
    rintro t ⟨bytes, hstart, ht⟩
    exact ⟨bytes, hstart, hgrown bytes t ht⟩
  refine .bind ((write_all_ensures (Nat.le_refl _) made).mono hpart fun _ _ ht => ht) (fun _ t ht => ?_) fun e t ht => ?_
  · have hwhole := hgrown claim t ht
    refine .call_ok_bind rfl ⟨claim, List.prefix_refl _, hwhole.fsync _⟩ ?_
    exact .call_ok rfl ⟨claim, List.prefix_refl _, (hwhole.fsync _).fsync _⟩ ((hwhole.fsync _).fsync _)
  · exact ⟨hpart t ht.1, fun hbase => ht.2 (happart.progress hbase)⟩

/-- Nothing is left of the claim. -/
theorem remove_root_claim_ensures {claim : List UInt8} (h : leaf d root ROOT_CLAIM_LEAF = some (some claim)) :
    (remove_root_claim root claim).Ensures d
      (fun t => t = d.set_entry root ROOT_CLAIM_LEAF none ∨ t = (d.set_entry root ROOT_CLAIM_LEAF none).fsync root)
      fun r t => r = .ok () ∧ t = (d.set_entry root ROOT_CLAIM_LEAF none).fsync root := by
  obtain ⟨inode, hlookup, _⟩ := file_of_leaf h
  have hread : (read_root_claim root).Returns d (some claim) := read_root_claim_returns h
  refine hread.ensures_bind ?_
  refine .read_bind (fun _ _ => ?_) fun e herror => ?_
  · refine .call_ok_bind (a := ()) ?_ (.inl rfl) (.call_ok rfl (.inr rfl) ⟨rfl, rfl⟩)
    rw [hlookup]
  · rw [require_valid, require_of rfl] at herror
    cases herror

end

end atoms.coordinator
