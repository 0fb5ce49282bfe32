import Atoms.Coordinator.Copy.Snapshot
import Atoms.Coordinator.Register.Capture

open atoms.errors atoms.fingerprint atoms.paths atoms.spec atoms.recovery atoms.fs atoms.store atoms.chain checked crash
  writeback

namespace atoms.coordinator

/-! The overrides of a fork. -/

variable {t u : Disk} {root : Inode} {override : DestinationOverride} {overrides : List DestinationOverride}

/-- An override stands: a file at its path holds its bytes, and has its mode. -/
def Overridden (root : Inode) (override : DestinationOverride) (d : Disk) : Prop :=
  ∃ inode, d.entry_at root (components override.path) = some ⟨.file, inode⟩ ∧ d.contents.get inode = override.payload ∧
    (d.modes.get inode : Int) = override.mode

/-- Nothing but what is at one path has changed. -/
structure Swapped (root : Inode) (path : String) (t u : Disk) : Prop where
  tree : u.Tree root
  retains : t.Retains u
  agrees : t.Agrees root (fun names => names ≠ components path) u

/-- Nothing but what is at some paths has changed. -/
structure Applied (root : Inode) (paths : List String) (t u : Disk) : Prop where
  tree : u.Tree root
  retains : t.Retains u
  agrees : t.Agrees root (fun names => ∀ path ∈ paths, names ≠ components path) u

theorem Overridden.agrees {part : List String → Prop} (h : Overridden root override t) (hagrees : t.Agrees root part u)
    (hpart : part (components override.path)) : Overridden root override u := by
  obtain ⟨inode, hentry, hcontents, hmode⟩ := h
  refine ⟨inode, (hagrees.entry_at _ hpart).trans hentry, (hagrees.contents _ _ hpart hentry).trans hcontents, ?_⟩
  rw [hagrees.modes _ _ hpart hentry]
  exact hmode

/-- The names of directories are opened one after the other. -/
theorem open_directories_completes {names : List String} {fd parent : Inode}
    (h : (names.foldlM open_child_directory fd).Completes t parent u) : t.directory_at fd names = some parent := by
  induction names generalizing fd with
  | nil =>
    obtain ⟨rfl, _⟩ := Prog.completes_pure_iff.mp h
    rfl
  | cons name rest ih =>
    rw [List.foldlM_cons] at h
    obtain ⟨opened, hopen, h⟩ := Prog.Reads.completes_bind (.read _) h
    rw [Disk.directory_at_cons, open_child_directory_completes hopen]
    exact ih h

theorem reads_open_directories (names : List String) (fd : Inode) : (names.foldlM open_child_directory fd).Reads :=
  .foldlM (fun _ _ => .read _) fd

theorem Swapped.trans {path : String} {v : Disk} (h : Swapped root path t u) (h' : Swapped root path u v) : Swapped root path t v :=
  ⟨h'.tree, h.retains.trans h'.retains, h.agrees.trans h'.agrees⟩

section

variable {front : List String} {parent : Inode} {leaf path : String}

theorem Swapped.directory_at (h : Swapped root path t u) (hsplit : components path = front ++ [leaf])
    (hfront : t.directory_at root front = some parent) : u.directory_at root front = some parent := by
  refine (h.agrees.directory_at (.inr ?_)).trans hfront
  rw [hsplit]
  simp

theorem swapped_created (ht : t.Tree root) (hsplit : components path = front ++ [leaf])
    (hfront : t.directory_at root front = some parent) (habsent : t.lookup parent leaf = none)
    (hleaf : leaf ≠ "" ∧ '/' ∉ leaf.toList) (h : Disk.Created .file parent leaf t u) : Swapped root path t u := by
  refine ⟨h.tree ht (ht.directory_lt hfront) habsent hleaf, h.retains habsent, ?_⟩
  rw [hsplit]
  refine .of_slot ht hfront ?_ ?_ (fun _ _ hne => h.same hne) h.contents h.modes
  · unfold Disk.child
    rw [habsent]
  · unfold Disk.child
    rw [h.new]

theorem swapped_removed {inode : Inode} (ht : t.Tree root) (hsplit : components path = front ++ [leaf])
    (hfront : t.directory_at root front = some parent) (hfile : t.lookup parent leaf = some ⟨.file, inode⟩) :
    Swapped root path t (t.set_entry parent leaf none) := by
  refine ⟨ht.remove parent leaf, fun parent' name' inode' hchild => ?_, ?_⟩
  · rw [Disk.child_eq_some_iff] at hchild ⊢
    rwa [Disk.lookup_set_entry_of_ne]
    rintro ⟨rfl, rfl⟩
    rw [hfile] at hchild
    cases hchild
  rw [hsplit]
  refine .of_slot ht hfront ?_ ?_ (fun _ _ hne => Disk.lookup_set_entry_of_ne _ (Ne.symm hne) _) (fun _ _ => rfl) fun _ _ => rfl
  · unfold Disk.child
    rw [hfile]
  · unfold Disk.child
    rw [Disk.lookup_set_entry_self]

/-- The file of an override is made where there is none. -/
theorem create_override_ensures (ht : t.Tree root) (hsplit : components override.path = front ++ [leaf])
    (hfront : t.directory_at root front = some parent) (habsent : t.lookup parent leaf = none)
    (hleaf : leaf ≠ "" ∧ '/' ∉ leaf.toList) (hmode : 0 ≤ override.mode) :
    (do
      let fd ← create_exclusive parent leaf override.mode.toNat
      write_all fd override.payload.length override.payload
      set_mode fd override.mode.toNat
      flush_file fd
      flush_directory parent : Call Unit).Ensures t (Swapped root override.path t)
      (Prog.ends (fun _ u => Swapped root override.path t u ∧ Overridden root override u) (Swapped root override.path t)) := by
  have hswapped : ∀ u, Disk.Created .file parent leaf t u → Swapped root override.path t u :=
    fun u h => swapped_created ht hsplit hfront habsent hleaf h
  refine create_file_ensures habsent hswapped (fun u hu hcontents hmodes => ?_) fun e u hu => hswapped u hu
  have hflushed := hu.fsync parent
  refine .call_ok rfl (hswapped _ hflushed) ⟨hswapped _ hflushed, t.next, ?_, ?_, ?_⟩
  · rw [hsplit, Disk.entry_at_concat, (hswapped _ hflushed).directory_at hsplit hfront]
    exact hflushed.new
  · exact (Disk.get_contents_fsync _ _ _).trans hcontents
  · rw [show (u.fsync parent).modes.get t.next = u.modes.get t.next from Cache.get_flush _ _ _, hmodes,
      Int.toNat_of_nonneg hmode]

end

variable [UnicodeData]

/-- An override is applied to its path, and to nothing else. -/
theorem apply_override_ensures (ht : t.Tree root) (hspelled : Spelled (components override.path)) (hmode : 0 ≤ override.mode) :
    (apply_override root override).Ensures t (Swapped root override.path t)
      (Prog.ends (fun _ u => Swapped root override.path t u ∧ Overridden root override u) (Swapped root override.path t)) := by
  have hstart : Swapped root override.path t t := ⟨ht, .refl _, .refl _ _ _⟩
  have hsplit := components_eq_concat override.path
  have hleaf := hspelled ((components override.path).getLast?.getD "") (by rw [hsplit]; simp)
  rw [apply_override]
  refine (reads_open_directories _ _).ensures_bind (fun parent hparent => ?_) fun e => hstart
  have hfront := open_directories_completes hparent
  generalize (components override.path).dropLast = front at hfront hsplit
  generalize (components override.path).getLast?.getD "" = leaf at hsplit hleaf
  have hrest : ∀ applied u, Swapped root override.path t u → (applied = true → Overridden root override u) →
      (applied = false → u.lookup parent leaf = none) →
      (if applied = true then pure () else do
        let fd ← create_exclusive parent leaf override.mode.toNat
        write_all fd override.payload.length override.payload
        set_mode fd override.mode.toNat
        flush_file fd
        flush_directory parent : Call Unit).Ensures u (Swapped root override.path t)
        (Prog.ends (fun _ u => Swapped root override.path t u ∧ Overridden root override u) (Swapped root override.path t)) := by
    intro applied u hu hstands habsent
    cases applied with
    | true => exact .pure ⟨hu, hstands rfl⟩
    | false =>
      refine (create_override_ensures hu.tree hsplit (hu.directory_at hsplit hfront) (habsent rfl) hleaf hmode).mono
        (fun v hv => hu.trans hv) ?_
      rintro (e | _) v hv
      · exact hu.trans hv
      · exact ⟨hu.trans hv.1, hv.2⟩
  refine .read_bind (fun info hinfo => ?_) fun e _ => hstart
  cases hinfo
  cases hentry : t.lookup parent leaf with
  | none => exact hrest false t hstart (fun h => absurd h Bool.false_ne_true) fun _ => hentry
  | some entry =>
    obtain ⟨kind, inode⟩ := entry
    by_cases hkind : kind = .file
    · subst hkind
      refine .read_bind (fun fd hfd => ?_) fun e _ => hstart
      rw [hentry] at hfd
      cases hfd
      refine .read_bind (fun existing hexisting => ?_) fun e _ => hstart
      cases hexisting
      by_cases hsame : t.contents.get inode = override.payload ∧ (t.modes.get inode : Int) = override.mode
      · simp only [if_pos hsame]
        refine hrest true t hstart (fun _ => ⟨inode, ?_, hsame⟩) fun h => absurd h.symm Bool.false_ne_true
        rw [hsplit, Disk.entry_at_concat, hfront]
        exact hentry
      · -- what is in the way is removed
        simp only [if_neg hsame]
        have hremoved := swapped_removed ht hsplit hfront hentry
        refine .call_ok_bind (a := ()) (by rw [hentry]) hremoved ?_
        exact hrest false _ hremoved (fun h => absurd h Bool.false_ne_true) fun _ => Disk.lookup_set_entry_self _ _ _ _
    · simp only [Option.map_some, ne_eq, hkind, not_false_eq_true, if_true]
      exact .throw hstart

omit [UnicodeData] in
theorem Applied.of_swapped {paths : List String} {path : String} {v : Disk} (h : Applied root paths t u) (hpath : path ∈ paths)
    (h' : Swapped root path u v) : Applied root paths t v :=
  ⟨h'.tree, h.retains.trans h'.retains, h.agrees.trans (h'.agrees.mono fun _ hnames => hnames path hpath)⟩

/-- The overrides of a fork are applied to their paths, and to nothing else. -/
theorem apply_overrides_ensures (ht : t.Tree root) (hnodup : (overrides.map DestinationOverride.path).Nodup)
    (hvalid : ∀ override ∈ overrides, Spelled (components override.path) ∧ 0 ≤ override.mode) :
    (overrides.forM (apply_override root)).Ensures t (Applied root (overrides.map DestinationOverride.path) t)
      (Prog.ends (fun _ u => Applied root (overrides.map DestinationOverride.path) t u ∧
          ∀ override ∈ overrides, Overridden root override u)
        (Applied root (overrides.map DestinationOverride.path) t)) := by
  have hloop : (overrides.forM (apply_override root)).Ensures t (Applied root (overrides.map DestinationOverride.path) t)
      (Prog.ends (fun _ u => Applied root (overrides.map DestinationOverride.path) t u ∧ [] ⊆ overrides ∧
          (([] : List DestinationOverride).map DestinationOverride.path).Nodup ∧
          ∀ override ∈ overrides, override ∈ ([] : List DestinationOverride) ∨ Overridden root override u ∧
            override.path ∉ ([] : List DestinationOverride).map DestinationOverride.path)
        (Applied root (overrides.map DestinationOverride.path) t)) := by
    refine .forM (J := fun rest u => Applied root (overrides.map DestinationOverride.path) t u ∧ rest ⊆ overrides ∧
      (rest.map DestinationOverride.path).Nodup ∧ ∀ override ∈ overrides, override ∈ rest ∨ Overridden root override u ∧
        override.path ∉ rest.map DestinationOverride.path) (fun override rest u hu => ?_)
      ⟨⟨ht, .refl _, .refl _ _ _⟩, fun item hitem => hitem, hnodup, fun item hitem => .inl hitem⟩
    obtain ⟨happlied, hsub, hdistinct, hdone⟩ := hu
    obtain ⟨hnot, hdistinct⟩ := List.nodup_cons.mp hdistinct
    have hitem := hsub List.mem_cons_self
    have hpath := List.mem_map_of_mem (f := DestinationOverride.path) hitem
    obtain ⟨hspelled, hmode⟩ := hvalid override hitem
    refine (apply_override_ensures happlied.tree hspelled hmode).mono (fun v hv => happlied.of_swapped hpath hv) ?_
    rintro (e | _) v hv
    · exact happlied.of_swapped hpath hv
    · obtain ⟨hv, hstands⟩ := hv
      refine ⟨happlied.of_swapped hpath hv, fun other hother => hsub (List.mem_cons_of_mem _ hother), hdistinct,
        fun other hother => ?_⟩
      rcases hdone other hother with hrest | ⟨hold, hpaths⟩
      · rcases List.mem_cons.mp hrest with rfl | hrest
        · exact .inr ⟨hstands, hnot⟩
        · exact .inl hrest
      · have hne : other.path ≠ override.path := fun heq => hpaths (heq ▸ List.mem_cons_self)
        exact .inr ⟨hold.agrees hv.agrees fun heq => hne (components_injective heq),
          fun hmem => hpaths (List.mem_cons_of_mem _ hmem)⟩
  refine hloop.mono (fun _ hu => hu) ?_
  rintro (e | _) u hu
  · exact hu
  · exact ⟨hu.1, fun override hoverride => ((hu.2.2.2 override hoverride).resolve_left List.not_mem_nil).1⟩

theorem passable_of_rel_path {kind path : String} (h : require_rel_path kind path = .ok ()) : Passable path := by
  intro component hcomponent
  simp only [require_rel_path, bind_eq_ok_iff, require_eq_ok_iff, forM_eq_ok_iff] at h
  obtain ⟨_, _, _, _, _, _, _, _, hcomponents⟩ := h
  obtain ⟨_, _, _, _, hsigil⟩ := hcomponents component hcomponent
  have hreserved : ∀ leaf, starts_with SCRATCH_SIGIL leaf = true → component ≠ leaf := by
    rintro leaf hleaf rfl
    refine hsigil ?_
    rw [aliases_scratch_sigil, List.any_cons, hleaf, Bool.true_or]
  exact ⟨hreserved _ (by decide), hreserved _ (by decide)⟩

theorem spelled_of_rel_path {kind path : String} (h : require_rel_path kind path = .ok ()) : Spelled (components path) := by
  intro component hcomponent
  simp only [require_rel_path, bind_eq_ok_iff, require_eq_ok_iff, forM_eq_ok_iff] at h
  obtain ⟨_, _, _, _, _, _, _, _, hcomponents⟩ := h
  obtain ⟨_, hne, _⟩ := hcomponents component hcomponent
  exact ⟨hne, plain_components path component hcomponent⟩

/-- The overrides that a fork accepts: each path once, of names that are no leaf of the engine, and each mode. -/
theorem overrides_accepted (h : require_overrides overrides = .ok ()) : (overrides.map DestinationOverride.path).Nodup ∧
    ∀ override ∈ overrides, (Spelled (components override.path) ∧ 0 ≤ override.mode) ∧ Passable override.path := by
  obtain ⟨_, _, h⟩ := bind_eq_ok_iff.mp h
  obtain ⟨_, hnodup, h⟩ := bind_eq_ok_iff.mp h
  obtain ⟨_, heach, _⟩ := bind_eq_ok_iff.mp h
  refine ⟨require_eq_ok_iff.mp hnodup, fun override hoverride => ?_⟩
  have hone := forM_eq_ok_iff.mp heach override hoverride
  unfold require_override at hone
  split at hone
  · cases hone
  · rename_i hchecked
    exact ⟨⟨spelled_of_rel_path hchecked, (require_eq_ok_iff.mp hone).1⟩, passable_of_rel_path hchecked⟩

end atoms.coordinator
