import Atoms.Coordinator.Copy.Overrides
import Atoms.Coordinator.Register.Steps

open atoms.errors atoms.fingerprint atoms.identifiers atoms.paths atoms.spec atoms.recovery atoms.fs atoms.store atoms.chain
  checked crash writeback routes

namespace atoms.coordinator

/-! What a fork adds to the copy of a tree. -/

variable [UnicodeData] [Sha256] {d t u : Disk} {root fd : Inode} {fork : ForkArguments} {digest : String}
  {entries : List (String × PathState)}

/-- The names of the root that are no leaf of the chain, and all that is below them. -/
def BesideChain (names : List String) : Prop := ∀ first ∈ names.head?, first ≠ CHAIN_LEAF

/-- The genesis of a fork. -/
def fork_genesis (fork : ForkArguments) (baseline : List (String × PathStateJSON)) : chain.Entry :=
  .GenesisEntry { payload := fork.genesis_payload, baseline }

/-- The chain holds no entry yet: its directory is not there, or nothing but a staging leaf is in it. -/
def Unbegun (root : Inode) (d : Disk) : Prop :=
  d.lookup root CHAIN_LEAF = none ∨
    ∃ fd staged, d.lookup root CHAIN_LEAF = some ⟨.directory, fd⟩ ∧ Directory d fd [] staged

/-- The tree of a fork: what the snapshot has and no override replaces, the overrides, and a chain of one entry, the
genesis with the payload, whose baseline states the surface as it is in this tree. -/
structure Forked (root : Inode) (fork : ForkArguments) (entries : List (String × PathState)) (digest : String) (d : Disk) :
    Prop where
  kept : ∀ item ∈ entries, item.1 ∉ fork.overrides.map DestinationOverride.path →
    state_at d root (components item.1) = some item.2
  overridden : ∀ override ∈ fork.overrides, Overridden root override d
  chain : ∃ fd baseline envelope, d.lookup root CHAIN_LEAF = some ⟨.directory, fd⟩ ∧
    Baseline d root fork.surface_paths baseline ∧ encode_entry none (fork_genesis fork baseline) = .ok envelope ∧
    digest = entry_digest envelope ∧ Directory d fd [next_row [] (fork_genesis fork baseline) envelope] none

/-- What `replicate_root` and `fork_root` check of the arguments of a fork. -/
structure ForkArguments.Accepted (fork : ForkArguments) : Prop where
  surface : validate_registered_surface fork.surface_paths = .ok ()
  overrides : require_overrides fork.overrides = .ok ()

/-- How far the construction of a fork has come since `base`. -/
structure Forking (root : Inode) (fork : ForkArguments) (entries : List (String × PathState)) (base d : Disk) : Prop where
  tree : d.Tree root
  retains : base.Retains d
  chain : Unbegun root d ∨ ∃ digest, Forked root fork entries digest d

/-! The chain directory in the tree. -/

omit [UnicodeData] [Sha256] in
theorem entry_at_chain (hfd : d.lookup root CHAIN_LEAF = some ⟨.directory, fd⟩) (name : String) :
    d.entry_at root [CHAIN_LEAF, name] = d.lookup fd name := by
  rw [Disk.entry_at_cons _ _ _ (List.cons_ne_nil _ _), Disk.child_eq_some_iff.mpr hfd]
  rfl

/-- The chain directory is as it was where its names agree. -/
theorem directory_agrees {part : List String → Prop} {rows : List Row} {staged : Option (List UInt8)}
    (hfd : d.lookup root CHAIN_LEAF = some ⟨.directory, fd⟩) (h : Directory d fd rows staged) (hagrees : d.Agrees root part t)
    (hpart : part [CHAIN_LEAF] ∧ ∀ name, part [CHAIN_LEAF, name]) :
    t.lookup root CHAIN_LEAF = some ⟨.directory, fd⟩ ∧ Directory t fd rows staged := by
  have hfd' : t.lookup root CHAIN_LEAF = some ⟨.directory, fd⟩ := (hagrees.entry_at [CHAIN_LEAF] hpart.1).trans hfd
  refine ⟨hfd', h.congr fun name => leaf_congr ?_ fun entry hentry => ?_⟩
  · rw [← entry_at_chain hfd', ← entry_at_chain hfd]
    exact hagrees.entry_at _ (hpart.2 name)
  · rw [← entry_at_chain hfd] at hentry
    exact hagrees.contents _ entry (hpart.2 name) hentry

theorem Unbegun.agrees {part : List String → Prop} (h : Unbegun root d) (hagrees : d.Agrees root part t)
    (hpart : part [CHAIN_LEAF] ∧ ∀ name, part [CHAIN_LEAF, name]) : Unbegun root t := by
  rcases h with habsent | ⟨fd, staged, hfd, hdirectory⟩
  · exact .inl ((hagrees.entry_at [CHAIN_LEAF] hpart.1).trans habsent)
  · obtain ⟨hfd', hdirectory'⟩ := directory_agrees hfd hdirectory hagrees hpart
    exact .inr ⟨fd, staged, hfd', hdirectory'⟩

/-- A fork stands where all that it is made of agrees. -/
theorem Forked.agrees {part : List String → Prop} (h : Forked root fork entries digest d) (hagrees : d.Agrees root part t)
    (hentries : ∀ item ∈ entries, part (components item.1)) (hoverrides : ∀ override ∈ fork.overrides, part (components override.path))
    (hsurface : ∀ path ∈ fork.surface_paths, part (components path)) (hchain : part [CHAIN_LEAF] ∧ ∀ name, part [CHAIN_LEAF, name]) :
    Forked root fork entries digest t := by
  refine ⟨fun item hitem hnot => ?_, fun override hoverride =>
    (h.overridden override hoverride).agrees hagrees (hoverrides override hoverride), ?_⟩
  · rw [state_at_agrees hagrees (hentries item hitem)]
    exact h.kept item hitem hnot
  · obtain ⟨fd, baseline, envelope, hfd, hbaseline, hencode, hdigest, hdirectory⟩ := h.chain
    obtain ⟨hfd', hdirectory'⟩ := directory_agrees hfd hdirectory hagrees hchain
    exact ⟨fd, baseline, envelope, hfd', hbaseline.agrees hagrees hsurface, hencode, hdigest, hdirectory'⟩

theorem Forked.fsync (h : Forked root fork entries digest d) (hd : d.Tree root) (fd : Inode) :
    Forked root fork entries digest (d.fsync fd) :=
  h.agrees (.fsync hd fd fun _ => True) (fun _ _ => trivial) (fun _ _ => trivial) (fun _ _ => trivial) ⟨trivial, fun _ => trivial⟩

/-- Each path of the snapshot stands in a fork, as it was or with its override. -/
theorem Forked.there (h : Forked root fork entries digest d) {item : String × PathState} (hitem : item ∈ entries) :
    (d.entry_at root (components item.1)).isSome = true := by
  by_cases hoverride : item.1 ∈ fork.overrides.map DestinationOverride.path
  · obtain ⟨override, hmem, hpath⟩ := List.mem_map.mp hoverride
    obtain ⟨inode, hentry, _⟩ := h.overridden override hmem
    rw [← hpath, hentry]
    rfl
  · obtain ⟨entry, hentry, _⟩ := Option.map_eq_some_iff.mp (h.kept item hitem hoverride)
    rw [hentry]
    rfl

omit [Sha256] in
theorem ForkArguments.Accepted.beside_chain (h : fork.Accepted) :
    (∀ override ∈ fork.overrides, BesideChain (components override.path)) ∧
      ∀ path ∈ fork.surface_paths, BesideChain (components path) := by
  have hbeside : ∀ path, Passable path → BesideChain (components path) := fun path hpath first hfirst =>
    (hpath first (List.mem_of_mem_head? hfirst)).2
  exact ⟨fun override hoverride => hbeside _ ((overrides_accepted h.overrides).2 override hoverride).2,
    fun path hpath => hbeside path (passable_of_surface h.surface path hpath)⟩

/-- The overrides leave the chain as it is. -/
theorem ForkArguments.Accepted.chain_applied {rows : List Row} {staged : Option (List UInt8)} (h : fork.Accepted)
    (happlied : Applied root (fork.overrides.map DestinationOverride.path) d u)
    (hfd : d.lookup root CHAIN_LEAF = some ⟨.directory, fd⟩) (hdirectory : Directory d fd rows staged) :
    u.lookup root CHAIN_LEAF = some ⟨.directory, fd⟩ ∧ Directory u fd rows staged := by
  refine directory_agrees hfd hdirectory happlied.agrees ⟨fun path hpath => ?_, fun name path hpath => ?_⟩
  all_goals
    obtain ⟨override, hoverride, rfl⟩ := List.mem_map.mp hpath
    exact fun heq => (h.beside_chain.1 override hoverride) CHAIN_LEAF (by rw [← heq]; rfl) rfl

omit [UnicodeData] [Sha256] in
theorem spelled_of_hex {name : String} (h : is_hex_digest name = true) : name ≠ "" ∧ '/' ∉ name.toList := by
  obtain ⟨hall, hlength⟩ := (Bool.and_eq_true _ _).mp h
  refine ⟨?_, fun hmem => absurd (List.all_eq_true.mp hall _ hmem) (by decide)⟩
  rintro rfl
  cases hlength

/-- In a chain directory there are files only, under names of paths. -/
theorem directory_files {rows : List Row} {staged : Option (List UInt8)} (h : Directory d fd rows staged) {name : String}
    {entry : fs.Entry} (hentry : d.lookup fd name = some entry) :
    (name ≠ "" ∧ '/' ∉ name.toList) ∧ d.child fd name = none := by
  have hfile : ∀ bytes, leaf d fd name = some (some bytes) → d.child fd name = none := by
    intro bytes hbytes
    obtain ⟨inode, hlookup, _⟩ := file_of_leaf hbytes
    unfold Disk.child
    rw [hlookup]
  have hsome : (leaf d fd name).isSome = true := by
    rw [leaf, hentry]
    rfl
  rcases h.only name hsome with rfl | hmem
  · refine ⟨by decide, ?_⟩
    rw [h.stage, Option.isSome_map] at hsome
    obtain ⟨bytes, rfl⟩ := Option.isSome_iff_exists.mp hsome
    exact hfile bytes h.stage
  · obtain ⟨row, hrow, rfl⟩ := List.mem_map.mp hmem
    exact ⟨spelled_of_hex (h.sound row hrow).name, hfile _ (h.named row hrow)⟩

theorem directory_child {rows : List Row} {staged : Option (List UInt8)} (h : Directory d fd rows staged) (name : String) :
    d.child fd name = none := by
  cases hentry : d.lookup fd name with
  | none =>
    unfold Disk.child
    rw [hentry]
  | some entry => exact (directory_files h hentry).2

/-- What happens in the chain directory leaves the tree beside it as it is. -/
theorem tree_of_apart {rows rows' : List Row} {staged staged' : Option (List UInt8)} (hd : d.Tree root)
    (hfd : d.lookup root CHAIN_LEAF = some ⟨.directory, fd⟩) (hold : Directory d fd rows staged)
    (h : d.Apart (fun parent _ => parent = fd) t) (hnumbered : t.Numbered) (hnew : Directory t fd rows' staged') :
    (t.Tree root ∧ d.Retains t ∧ d.Agrees root BesideChain t) ∧ t.lookup root CHAIN_LEAF = some ⟨.directory, fd⟩ := by
  have hlt : fd < d.next := hd.numbered _ _ _ hfd
  have hchain : d.directory_at root [CHAIN_LEAF] = some fd := by
    rw [Disk.directory_at_cons, Disk.child_eq_some_iff.mpr hfd]
    rfl
  have hne : root ≠ fd := by
    rintro rfl
    cases hd.single [] [CHAIN_LEAF] root rfl hchain
  have hchild : ∀ parent name, t.child parent name = d.child parent name := by
    intro parent name
    by_cases hparent : parent = fd
    · subst hparent
      rw [directory_child hold, directory_child hnew]
    · exact Disk.child_congr (h.lookup parent name hparent)
  refine ⟨⟨hd.of_child ⟨hnumbered, fun parent name hparent => ?_, fun parent name entry hentry => ?_⟩ h.next
    fun parent name inode hinode => (hchild parent name).symm.trans hinode,
    fun parent name inode hinode => (hchild parent name).trans hinode, ?_⟩, (h.lookup root CHAIN_LEAF hne).trans hfd⟩
  · have hle := h.next.trans hparent
    rw [h.lookup parent name (Nat.ne_of_gt (hlt.trans_le hle))]
    exact hd.bare parent name hle
  · by_cases hparent : parent = fd
    · subst hparent
      exact (directory_files hnew hentry).1
    · rw [h.lookup parent name hparent] at hentry
      exact hd.spelled parent name entry hentry
  · refine .of_child hchild (fun front name parent hbeside hfront => h.lookup parent name ?_)
      (fun _ _ _ hentry => h.contents _ (hd.entry_lt hentry)) fun _ _ _ hentry => h.modes _ (hd.entry_lt hentry)
    rintro rfl
    have hsame : front = [CHAIN_LEAF] := hd.single _ _ _ hfront hchain
    exact hbeside CHAIN_LEAF (by rw [hsame]; rfl) rfl

/-- The genesis is appended to a chain directory in which there is nothing. -/
theorem append_fork_genesis (hhex : Hexadecimal) (hd : d.Tree root) (hfork : fork.Accepted)
    (hfd : d.lookup root CHAIN_LEAF = some ⟨.directory, fd⟩) (h : Directory d fd [] none)
    (hbeside : ∀ item ∈ entries, BesideChain (components item.1))
    (hkept : ∀ item ∈ entries, item.1 ∉ fork.overrides.map DestinationOverride.path →
      state_at d root (components item.1) = some item.2)
    (hoverridden : ∀ override ∈ fork.overrides, Overridden root override d) {baseline : List (String × PathStateJSON)}
    (hbaseline : Baseline d root fork.surface_paths baseline) :
    (append_entry fd ⟨[], none, none⟩ (fork_genesis fork baseline)).Ensures d (Forking root fork entries d)
      (Prog.ends (fun digest t => Forking root fork entries d t ∧ Forked root fork entries digest t) (Forking root fork entries d)) := by
  have hkeeps : Prog.Keeps (d.Apart fun parent _ => parent = fd)
      (append_entry fd ⟨[], none, none⟩ (fork_genesis fork baseline)) := keeps_append_entry (fun _ => rfl) _ _
  obtain ⟨hoverrides, hsurface⟩ := hfork.beside_chain
  cases hencode : encode_entry none (fork_genesis fork baseline) with
  | error e =>
    refine (append_entry_refused h valid_nil hencode ⟨[], none, none⟩).mono (fun _ ht => ht) ?_
    rintro (e' | digest) t hend
    · obtain rfl := hend
      exact ⟨hd, .refl _, .inl (.inr ⟨fd, none, hfd, h⟩)⟩
    · exact hend.elim
  | ok envelope =>
    have hunbegun : ∀ t, Unpublished fd [] envelope t → d.Apart (fun parent _ => parent = fd) t →
        Forking root fork entries d t := by
      rintro t ⟨hnumbered, staged, hdirectory, _⟩ hapart
      obtain ⟨⟨htree, hretains, _⟩, hfd'⟩ := tree_of_apart hd hfd h hapart hnumbered hdirectory
      exact ⟨htree, hretains, .inl (.inr ⟨fd, staged, hfd', hdirectory⟩)⟩
    have hforked : ∀ t, Published fd [next_row [] (fork_genesis fork baseline) envelope] t →
        d.Apart (fun parent _ => parent = fd) t →
        Forking root fork entries d t ∧ Forked root fork entries (entry_digest envelope) t := by
      intro t hpublished hapart
      obtain ⟨⟨htree, hretains, hagrees⟩, hfd'⟩ := tree_of_apart hd hfd h hapart hpublished.numbered hpublished.directory
      suffices hdone : Forked root fork entries (entry_digest envelope) t from ⟨⟨htree, hretains, .inr ⟨_, hdone⟩⟩, hdone⟩
      refine ⟨fun item hitem hnot => ?_, fun override hoverride => ?_, fd, baseline, envelope, hfd', ?_, hencode, rfl,
        hpublished.directory⟩
      · rw [state_at_agrees hagrees (hbeside item hitem)]
        exact hkept item hitem hnot
      · exact (hoverridden override hoverride).agrees hagrees (hoverrides override hoverride)
      · exact hbaseline.agrees hagrees hsurface
    have happend := append_entry_ensures h valid_nil hd.numbered hhex ⟨[], none, none⟩ hencode
    refine (happend.and (hkeeps d (.refl _ d))).mono ?_ ?_
    · rintro t ⟨hunpublished | hpublished, hapart⟩
      · exact hunbegun t hunpublished hapart
      · exact (hforked t hpublished hapart).1
    · rintro (e | digest) t ⟨hend, hapart⟩
      · exact hunbegun t hend.1 hapart
      · obtain ⟨rfl, hpublished⟩ := hend
        exact hforked t hpublished hapart

/-! The construction. -/

/-- The chain directory is made where there is none, and opened where there is one. -/
theorem bootstrap_fork_ensures (hd : d.Tree root) (h : Unbegun root d) :
    (bootstrap_chain root).Ensures d (fun t => t.Tree root ∧ d.Retains t ∧ Unbegun root t)
      (Prog.ends (fun fd t => (t.Tree root ∧ d.Retains t ∧ d.Agrees root BesideChain t) ∧
          t.lookup root CHAIN_LEAF = some ⟨.directory, fd⟩ ∧ ∃ staged, Directory t fd [] staged)
        fun t => t.Tree root ∧ d.Retains t ∧ Unbegun root t) := by
  rcases h with habsent | ⟨fd, staged, hfd, hdirectory⟩
  · have hmade : Disk.Created .directory root CHAIN_LEAF d (d.allocate .directory root CHAIN_LEAF 0o700) := .allocate _ _ _ _ _
    have hcall : (mkdir_child root CHAIN_LEAF 0o700).Ensures d
        (fun t => t = d.allocate .directory root CHAIN_LEAF 0o700)
        fun r t => r = .ok () ∧ t = d.allocate .directory root CHAIN_LEAF 0o700 :=
      .call_ok (by rw [habsent]) rfl ⟨rfl, rfl⟩
    generalize d.allocate .directory root CHAIN_LEAF 0o700 = made at hmade hcall
    have htree : made.Tree root := hmade.tree hd hd.old habsent (by decide)
    have hnone : ∀ name, leaf made d.next name = none := by
      intro name
      rw [leaf_eq_none_iff, hmade.same fun heq => Nat.ne_of_gt hd.old (Prod.mk.inj heq).1]
      exact hd.bare _ _ (Nat.le_refl _)
    have hdirectory : Directory made d.next [] none := by
      refine ⟨List.nodup_nil, fun row hrow => absurd hrow List.not_mem_nil, hnone _,
        fun row hrow => absurd hrow List.not_mem_nil, fun name hname => ?_⟩
      rw [hnone name] at hname
      cases hname
    have hagrees : d.Agrees root BesideChain made := by
      have hroot : made.directory_at root [] = some root := rfl
      refine (Disk.Agrees.of_created hmade hd htree hroot).mono ?_
      rintro names hbeside ⟨rest, rfl⟩
      exact hbeside CHAIN_LEAF rfl rfl
    refine .bind (Q := fun r t => r = .ok () ∧ t = made) (.tryCatch (hcall.mono ?_ fun _ _ ht => ht) (fun _ _ ht => ht) ?_) ?_ ?_
    · rintro t rfl
      exact ⟨htree, hmade.retains habsent, .inr ⟨_, none, hmade.new, hdirectory⟩⟩
    · rintro e t ⟨heq, _⟩
      cases heq
    · rintro _ t ⟨_, rfl⟩
      refine (Prog.Returns.try_ok (open_chain_returns hmade.new)).ensures_bind ?_
      have hfd : (t.fsync root).lookup root CHAIN_LEAF = some ⟨.directory, d.next⟩ := by
        rw [Disk.lookup_fsync]
        exact hmade.new
      have hflushed : Directory (t.fsync root) d.next [] none := hdirectory.fsync root
      have hretains : d.Retains (t.fsync root) := (hmade.retains habsent).trans (.fsync t root)
      refine .call_ok_bind rfl ⟨htree.fsync root, hretains, .inr ⟨_, none, hfd, hflushed⟩⟩ (.pure ?_)
      exact ⟨⟨htree.fsync root, hretains, hagrees.trans (.fsync htree root _)⟩, hfd, none, hflushed⟩
    · rintro e t ⟨heq, _⟩
      cases heq
  · have hfd' : (d.fsync root).lookup root CHAIN_LEAF = some ⟨.directory, fd⟩ := (Disk.lookup_fsync _ _ _ _).trans hfd
    refine (bootstrap_opens hfd).mono ?_ ?_
    · rintro t rfl
      exact ⟨hd.fsync root, .fsync d root, .inr ⟨fd, staged, hfd', hdirectory.fsync root⟩⟩
    · rintro r t ⟨rfl, rfl⟩
      exact ⟨⟨hd.fsync root, .fsync d root, .fsync hd root _⟩, hfd', staged, hdirectory.fsync root⟩

/-- A fork is constructed on a copy of the snapshot, or was constructed before. -/
theorem finish_fork_construction_ensures (hhex : Hexadecimal) (hd : d.Tree root) (hfork : fork.Accepted)
    (hbeside : ∀ item ∈ entries, BesideChain (components item.1))
    (hstands : ∀ item ∈ entries, state_at d root (components item.1) = some item.2)
    (hchain : Unbegun root d ∨ ∃ digest, Forked root fork entries digest d) :
    (finish_fork_construction fork root).Ensures d (Forking root fork entries d)
      (Prog.ends (fun digest t => Forking root fork entries d t ∧ Forked root fork entries digest t) (Forking root fork entries d)) := by
  rcases hchain with hunbegun | ⟨digest, hforked⟩
  · refine ((bootstrap_fork_ensures hd hunbegun).mono (fun t ht => ⟨ht.1, ht.2.1, .inl ht.2.2⟩) fun _ _ ht => ht).bind ?_
      fun e t ht => ⟨ht.1, ht.2.1, .inl ht.2.2⟩
    rintro fd t ⟨⟨htree, hretains, hagrees⟩, hfd, staged, hdirectory⟩
    have hstart : Forking root fork entries d t := ⟨htree, hretains, .inl (.inr ⟨fd, staged, hfd, hdirectory⟩)⟩
    refine (validate_chain_nil hdirectory valid_nil).ensures_bind ?_
    refine .read_bind (fun _ hsurvivor => ?_) fun e _ => hstart
    have hnone : staged = none := by
      have hsurvivor := require_eq_ok_iff.mp hsurvivor
      simpa using hsurvivor
    subst hnone
    -- the overrides leave the chain as it is, and the chain leaves them as they are
    obtain ⟨hnodup, hvalid⟩ := overrides_accepted hfork.overrides
    have hkept : ∀ u, Applied root (fork.overrides.map DestinationOverride.path) t u →
        u.lookup root CHAIN_LEAF = some ⟨.directory, fd⟩ ∧ Directory u fd [] none :=
      fun u hu => hfork.chain_applied hu hfd hdirectory
    have hforking : ∀ u, Applied root (fork.overrides.map DestinationOverride.path) t u → Forking root fork entries d u := by
      intro u hu
      obtain ⟨hfd', hdirectory'⟩ := hkept u hu
      exact ⟨hu.tree, hretains.trans hu.retains, .inl (.inr ⟨fd, none, hfd', hdirectory'⟩)⟩
    refine ((apply_overrides_ensures htree hnodup fun override hoverride => (hvalid override hoverride).1).mono hforking
      fun _ _ hu => hu).bind ?_ fun e u hu => hforking u hu
    rintro _ u ⟨hu, hoverridden⟩
    refine (reads_capture_baseline root fork.surface_paths).ensures_bind (fun baseline hbaseline => ?_) fun e => hforking u hu
    obtain ⟨hfd', hdirectory'⟩ := hkept u hu
    have hsince : ∀ v, Forking root fork entries u v → Forking root fork entries d v :=
      fun v hv => ⟨hv.tree, (hretains.trans hu.retains).trans hv.retains, hv.chain⟩
    refine (append_fork_genesis hhex hu.tree hfork hfd' hdirectory' hbeside (fun item hitem hnot => ?_) hoverridden
      (capture_baseline_completes hbaseline)).mono hsince ?_
    · rw [state_at_agrees hu.agrees, state_at_agrees hagrees (hbeside item hitem)]
      · exact hstands item hitem
      · exact fun path hpath heq => hnot (components_injective heq ▸ hpath)
    · rintro (e | digest) v hv
      · exact hsince v hv
      · exact ⟨hsince v hv.1, hv.2⟩
  · obtain ⟨fd, baseline, envelope, hfd, _, _, rfl, hdirectory⟩ := hforked.chain
    have hforked' : Forked root fork entries (entry_digest envelope) (d.fsync root) := hforked.fsync hd root
    have hflushed : Forking root fork entries d (d.fsync root) := ⟨hd.fsync root, .fsync d root, .inr ⟨_, hforked'⟩⟩
    refine ((bootstrap_opens hfd).mono (fun t ht => ht ▸ hflushed) fun _ _ ht => ht).bind ?_ ?_
    · rintro _ t ⟨⟨rfl⟩, rfl⟩
      have hvalid : Valid [next_row [] (fork_genesis fork baseline) envelope] := ⟨⟨rfl, trivial⟩, _, rfl⟩
      refine (validate_chain_nil (hdirectory.fsync root) hvalid).ensures_bind ?_
      refine .read_bind (fun _ _ => ?_) fun e _ => hflushed
      refine .read_bind (fun _ _ => .pure ⟨hflushed, hforked'⟩) fun e _ => hflushed
    · rintro e t ⟨heq, _⟩
      cases heq

end atoms.coordinator
