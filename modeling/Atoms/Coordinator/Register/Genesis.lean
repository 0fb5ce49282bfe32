import Atoms.Chain.Append.Crashes
import Atoms.Coordinator.Register.Steps

open atoms.errors atoms.fingerprint atoms.identifiers atoms.spec atoms.fs atoms.store atoms.chain checked crash

namespace atoms.coordinator

variable [UnicodeData] [Sha256] {root fd : Inode} {args : Registration} {base d t : Disk} {digest : String}

/-- The start of a chain, beside a claim leaf that stays as it is. -/
structure Chained (root : Inode) (args : Registration) (base : Disk) (held : Option (Option (List UInt8))) (d : Disk) :
    Prop where
  beside : Beside root base d
  claim : leaf d root ROOT_CLAIM_LEAF = held
  chain : Unfounded root base d ∨ ∃ digest, Founded root args base digest d

/-- A chain directory of which nothing but a staging leaf is made is unfounded. -/
theorem Unfounded.of_directory {staged : Option (List UInt8)} (hfd : d.lookup root CHAIN_LEAF = some ⟨.directory, fd⟩)
    (hnew : base.next ≤ fd) (h : Directory d fd [] staged) : Unfounded root base d := .inr ⟨fd, staged, hfd, hnew, h⟩

/-- The append of the genesis to a chain directory in which there is nothing. -/
theorem append_genesis_ensures (hhex : Hexadecimal) (hold : root < base.next) (hbeside : Beside root base d)
    (hfd : d.lookup root CHAIN_LEAF = some ⟨.directory, fd⟩) (hnew : base.next ≤ fd) (h : Directory d fd [] none)
    {baseline : List (String × PathStateJSON)}
    (hcaptured : (capture_baseline root args.registered_surface).Returns base baseline) :
    (append_entry fd ⟨[], none, none⟩ (genesis_of args baseline)).Ensures d
      (Chained root args base (leaf d root ROOT_CLAIM_LEAF))
      (Prog.ends (fun digest t => Chained root args base (leaf d root ROOT_CLAIM_LEAF) t ∧ Founded root args base digest t)
        fun t => Chained root args base (leaf d root ROOT_CLAIM_LEAF) t ∧
          (base.Progresses → ∀ envelope, ¬ IsGenesis root args base baseline envelope)) := by
  have hkeeps : Prog.Keeps (d.Apart fun parent _ => parent = fd)
      (append_entry fd ⟨[], none, none⟩ (genesis_of args baseline)) := keeps_append_entry (fun _ => rfl) _ _
  have hwithin : ∀ t, t.Numbered → d.Apart (fun parent _ => parent = fd) t → Beside root base t ∧
      leaf t root ROOT_CLAIM_LEAF = leaf d root ROOT_CLAIM_LEAF ∧ t.lookup root CHAIN_LEAF = some ⟨.directory, fd⟩ := by
    intro t hnumbered hapart
    obtain ⟨hbeside', hnames⟩ := hbeside.within hold hnew hapart hnumbered
    exact ⟨hbeside', (hnames _).2, (hnames _).1.trans hfd⟩
  cases hencode : encode_entry none (genesis_of args baseline) with
  | error e =>
    refine (append_entry_refused h valid_nil hencode ⟨[], none, none⟩).mono (fun _ ht => ht) ?_
    rintro (e' | digest) t hend
    · obtain rfl := hend
      refine ⟨⟨hbeside, rfl, .inl (.of_directory hfd hnew h)⟩, fun _ envelope hgenesis => ?_⟩
      rw [hgenesis.encoded] at hencode
      cases hencode
    · exact hend.elim
  | ok envelope =>
    have hgenesis : IsGenesis root args base baseline envelope := ⟨hcaptured, hencode⟩
    have hunfounded : ∀ t, Unpublished fd [] envelope t → d.Apart (fun parent _ => parent = fd) t →
        Chained root args base (leaf d root ROOT_CLAIM_LEAF) t := by
      rintro t ⟨hnumbered, staged, hdirectory, _⟩ hapart
      obtain ⟨hbeside', hclaim, hfd'⟩ := hwithin t hnumbered hapart
      exact ⟨hbeside', hclaim, .inl (.of_directory hfd' hnew hdirectory)⟩
    have hfounded : ∀ t, Published fd [next_row [] (genesis_of args baseline) envelope] t →
        d.Apart (fun parent _ => parent = fd) t → Chained root args base (leaf d root ROOT_CLAIM_LEAF) t ∧
          Founded root args base (entry_digest envelope) t := by
      intro t hpublished hapart
      obtain ⟨hbeside', hclaim, hfd'⟩ := hwithin t hpublished.numbered hapart
      have hdone : Founded root args base (entry_digest envelope) t :=
        ⟨fd, baseline, envelope, hfd', hnew, hgenesis, rfl, hpublished.directory⟩
      exact ⟨⟨hbeside', hclaim, .inr ⟨_, hdone⟩⟩, hdone⟩
    have happend := append_entry_ensures h valid_nil hbeside.numbered hhex ⟨[], none, none⟩ hencode
    refine (happend.and (hkeeps d (.refl _ d))).mono ?_ ?_
    · rintro t ⟨hunpublished | hpublished, hapart⟩
      · exact hunfounded t hunpublished hapart
      · exact (hfounded t hpublished hapart).1
    · rintro (e | digest) t ⟨hend, hapart⟩
      · obtain ⟨hunpublished, hstuck⟩ := hend
        refine ⟨hunfounded t hunpublished hapart, fun hbase => ?_⟩
        exact absurd (hstuck rfl (hbeside.apart.progress hbase)) List.not_mem_nil
      · obtain ⟨rfl, hpublished⟩ := hend
        exact hfounded t hpublished hapart

theorem genesis_paths (hbeside : Beside root base d) (hbase : base.Numbered) (hroot : base.Unreached root)
    (hold : root < base.next) {paths : List String} (hsurface : validate_registered_surface paths = .ok ())
    {baseline : List (String × PathStateJSON)} (h : (capture_baseline root paths).Returns base baseline) :
    baseline.map Prod.fst = paths := by
  obtain ⟨result, hresult, _, hpaths⟩ := capture_baseline_alike hbeside hbase hroot hold (passable_of_surface hsurface)
  rw [Prog.Returns, hresult] at h
  cases h
  exact hpaths baseline rfl

/-- The genesis of an empty chain. -/
theorem register_genesis_appends (hhex : Hexadecimal) (hold : root < base.next) (hbase : base.Numbered)
    (hroot : base.Unreached root) (hsurface : validate_registered_surface args.registered_surface = .ok ())
    (hbeside : Beside root base d)
    (hchain : Bare root base d ∨ ∃ fd, d.lookup root CHAIN_LEAF = some ⟨.directory, fd⟩ ∧ base.next ≤ fd ∧
      Directory d fd [] none) :
    (register_genesis root args).Ensures d (Chained root args base (leaf d root ROOT_CLAIM_LEAF))
      (Prog.ends (fun digest t => Chained root args base (leaf d root ROOT_CLAIM_LEAF) t ∧ Founded root args base digest t)
        fun t => Chained root args base (leaf d root ROOT_CLAIM_LEAF) t ∧
          (base.Progresses → ∀ baseline envelope, ¬ IsGenesis root args base baseline envelope)) := by
  have hbootstrap : (bootstrap_chain root).Ensures d (Chained root args base (leaf d root ROOT_CLAIM_LEAF))
      fun r t => ∃ fd, r = .ok fd ∧ Beside root base t ∧ leaf t root ROOT_CLAIM_LEAF = leaf d root ROOT_CLAIM_LEAF ∧
        t.lookup root CHAIN_LEAF = some ⟨.directory, fd⟩ ∧ base.next ≤ fd ∧ Directory t fd [] none := by
    rcases hchain with hbare | ⟨fd, hfd, hnew, hdirectory⟩
    · refine (bootstrap_makes hbare hold hbeside).mono ?_ ?_
      · rintro t ⟨hbeside', hfd, hdirectory, hclaim⟩
        exact ⟨hbeside', hclaim, .inl (.of_directory hfd hbeside.apart.next hdirectory)⟩
      · rintro r t ⟨rfl, hbeside', hfd, hdirectory, hclaim⟩
        exact ⟨_, rfl, hbeside', hclaim, hfd, hbeside.apart.next, hdirectory⟩
    · have hfd' : (d.fsync root).lookup root CHAIN_LEAF = some ⟨.directory, fd⟩ := (Disk.lookup_fsync _ _ _ _).trans hfd
      refine (bootstrap_opens hfd).mono ?_ ?_
      · rintro t rfl
        exact ⟨hbeside.fsync root, leaf_fsync _ _ _ _, .inl (.of_directory hfd' hnew (hdirectory.fsync root))⟩
      · rintro r t ⟨rfl, rfl⟩
        exact ⟨fd, rfl, hbeside.fsync root, leaf_fsync _ _ _ _, hfd', hnew, hdirectory.fsync root⟩
  refine hbootstrap.bind ?_ ?_
  · rintro _ t ⟨fd, ⟨rfl⟩, hbeside', hclaim, hfd, hnew, hdirectory⟩
    refine (validate_chain_nil hdirectory valid_nil).ensures_bind (.guard_bind (fun _ => ?_) fun hnot => absurd rfl hnot)
    refine (lift_returns (a := ()) rfl t).ensures_bind ?_
    have hstart : Chained root args base (leaf d root ROOT_CLAIM_LEAF) t :=
      ⟨hbeside', hclaim, .inl (.of_directory hfd hnew hdirectory)⟩
    have hcapture := capture_baseline_alike hbeside' hbase hroot hold (passable_of_surface hsurface)
    have hcaptures : (capture_baseline root args.registered_surface).Ensures t
        (Chained root args base (leaf d root ROOT_CLAIM_LEAF)) (Prog.ends
          (fun baseline t' => t' = t ∧ (capture_baseline root args.registered_surface).Returns base baseline)
          fun t' => t' = t ∧ ∀ baseline, ¬ (capture_baseline root args.registered_surface).Returns base baseline) :=
      hcapture.ensures (fun baseline hreturns _ => ⟨rfl, hreturns⟩) fun e hnone => ⟨rfl, hnone⟩
    refine hcaptures.bind ?_ ?_
    · rintro baseline _ ⟨rfl, hcaptured⟩
      refine (hclaim ▸ append_genesis_ensures hhex hold hbeside' hfd hnew hdirectory hcaptured).mono (fun _ ht => ht) ?_
      rintro (e | digest) t' ht'
      · refine ⟨ht'.1, fun hprogress baseline' envelope hgenesis => ?_⟩
        have heq : baseline = baseline' := (hcaptured.completes ⟨[], hgenesis.captured⟩).1
        exact ht'.2 hprogress envelope (heq ▸ hgenesis)
      · exact ht'
    · rintro e _ ⟨rfl, hnone⟩
      exact ⟨hstart, fun _ baseline envelope hgenesis => hnone baseline hgenesis.captured⟩
  · rintro e t ⟨_, heq, _⟩
    cases heq

/-- The genesis of a chain that has one. -/
theorem register_genesis_adopts (hold : root < base.next) (hbase : base.Numbered) (hroot : base.Unreached root)
    (hsurface : validate_registered_surface args.registered_surface = .ok ()) (hbeside : Beside root base d)
    (h : Founded root args base digest d) :
    (register_genesis root args).Ensures d (fun t => t = d.fsync root) fun r t => r = .ok digest ∧ t = d.fsync root := by
  obtain ⟨fd, baseline, envelope, hfd, hnew, hgenesis, rfl, hdirectory⟩ := h
  refine (bootstrap_opens hfd).bind ?_ ?_
  · rintro _ _ ⟨⟨rfl⟩, rfl⟩
    refine (validate_chain_nil (hdirectory.fsync root) (valid_genesis_of args baseline envelope)).ensures_bind ?_
    refine .guard_bind (fun _ => ?_) fun hnot => absurd rfl hnot
    refine (lift_returns (a := ()) rfl _).ensures_bind ?_
    have hpaths := genesis_paths hbeside hbase hroot hold hsurface hgenesis.captured
    refine .read_bind (fun _ _ => .pure ⟨rfl, rfl⟩) fun e herror => ?_
    rw [require_valid, require_of (by simp [is_genesis_of, genesis_of, next_row, hpaths])] at herror
    cases herror
  · rintro e t ⟨heq, _⟩
    cases heq

/-! The tree, with the chain in it. -/

omit [UnicodeData] in
/-- A name that is neither the claim nor the chain is walked as before. -/
theorem walk_beside (hbeside : Beside root base d) (hbase : base.Numbered) (hroot : base.Unreached root)
    (hold : root < base.next) {name : String} (hname : name ≠ ROOT_CLAIM_LEAF ∧ name ≠ CHAIN_LEAF) (depth : Nat) :
    walk_name (fun child_fd path => walk_tree d depth child_fd path []) d root "" name =
      walk_name (fun child_fd path => walk_tree base depth child_fd path []) base root "" name := by
  have hsame : Disk.Same (fun inode => inode < base.next ∧ inode ≠ root) base d := by
    refine ⟨fun parent name entry _ hentry => ⟨hbase _ _ _ hentry, hroot _ _ _ hentry⟩, fun parent name hparent => ?_,
      fun inode hinode => hbeside.apart.contents inode hinode.1, fun inode hinode => hbeside.apart.modes inode hinode.1⟩
    refine hbeside.apart.lookup parent name ?_
    rintro (hnew | ⟨heq, _⟩)
    · exact absurd hparent.1 (Nat.not_lt.mpr hnew)
    · exact hparent.2 heq
  refine walk_name_congr (state_of_entry_congr (hbeside.lookup hold hname) fun entry hentry => ?_) fun child_fd hchild => ?_
  · exact ⟨hbeside.apart.contents _ (hbase _ _ _ hentry), hbeside.apart.modes _ (hbase _ _ _ hentry)⟩
  · exact walk_tree_congr hsame depth _ _ ⟨hbase _ _ _ hchild, hroot _ _ _ hchild⟩

/-- In a chain directory there are files only. -/
theorem walk_chain {rows : List Row} {staged : Option (List UInt8)} (h : Directory d fd rows staged) (depth : Nat)
    (lead : String) : ∃ found, walk_tree d (depth + 1) fd lead [] = .ok found := by
  refine walk_tree_succeeds_iff.mpr fun name _ hlisted => ?_
  have hfile : ∃ bytes, leaf d fd name = some (some bytes) := by
    rcases h.only name (leaf_isSome.mpr hlisted) with rfl | hmem
    · have hsome := leaf_isSome.mpr hlisted
      rw [h.stage, Option.isSome_map] at hsome
      obtain ⟨bytes, rfl⟩ := Option.isSome_iff_exists.mp hsome
      exact ⟨bytes, h.stage⟩
    · obtain ⟨row, hrow, rfl⟩ := List.mem_map.mp hmem
      exact ⟨_, h.named row hrow⟩
  obtain ⟨bytes, hfile⟩ := hfile
  obtain ⟨inode, hlookup, _⟩ := file_of_leaf hfile
  exact walk_name_file hlookup fun heq => by cases heq

/-- The walk with the chain goes two directories deep, and succeeds where it did before. -/
theorem walk_founded_iff (hbeside : Beside root base d) (hbase : base.Numbered) (hroot : base.Unreached root)
    (hold : root < base.next) (habsent : base.lookup root CHAIN_LEAF = none) {rows : List Row}
    (hfd : d.lookup root CHAIN_LEAF = some ⟨.directory, fd⟩) (h : Directory d fd rows none) (depth : Nat) :
    (∃ found, walk_tree d depth root "" (passed_over false) = .ok found) ↔
      2 ≤ depth ∧ ∃ found, walk_tree base depth root "" (passed_over false) = .ok found := by
  have hclaim : ∀ name, name ∉ passed_over false → name ≠ ROOT_CLAIM_LEAF := by
    rintro name hnot rfl
    exact hnot List.mem_cons_self
  cases depth with
  | zero =>
    constructor
    · rintro ⟨_, hfound⟩
      cases hfound
    · rintro ⟨hdepth, _⟩
      exact absurd hdepth (by decide)
  | succ depth =>
    rw [walk_tree_succeeds_iff, walk_tree_succeeds_iff]
    constructor
    · intro hwalk
      obtain ⟨found, hfound⟩ := (walk_name_directory hfd).mp
        (hwalk CHAIN_LEAF (by decide) (Disk.mem_listdir.mpr (by rw [hfd]; rfl)))
      refine ⟨?_, fun name hnot hlisted => ?_⟩
      · cases depth with
        | zero => cases hfound
        | succ depth => exact Nat.le_add_left 2 depth
      · have hchain : name ≠ CHAIN_LEAF := by
          rintro rfl
          rw [Disk.mem_listdir, habsent] at hlisted
          cases hlisted
        have hname := And.intro (hclaim name hnot) hchain
        rw [← walk_beside hbeside hbase hroot hold hname]
        exact hwalk name hnot ((listdir_mem_congr (hbeside.lookup hold hname)).mpr hlisted)
    · rintro ⟨hdepth, hwalk⟩ name hnot hlisted
      by_cases hchain : name = CHAIN_LEAF
      · rw [hchain, walk_name_directory hfd]
        obtain ⟨deeper, rfl⟩ := Nat.exists_eq_succ_of_ne_zero (Nat.ne_of_gt (Nat.le_of_succ_le_succ hdepth))
        exact walk_chain h deeper _
      · have hname := And.intro (hclaim name hnot) hchain
        rw [walk_beside hbeside hbase hroot hold hname]
        exact hwalk name hnot ((listdir_mem_congr (hbeside.lookup hold hname)).mp hlisted)

end atoms.coordinator
