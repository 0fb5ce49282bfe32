import Atoms.Fs.Tree

open atoms.errors crash writeback routes

namespace atoms.fs

namespace Disk

variable {d t : Disk} {root parent fd : Inode} {name : String} {slot : Inode × String} {free : Set (Inode × String)}
  {dirty dirty' : Set Inode} {front : List String}

/-- What is pending is no part of the tree below `root`, nor of the name that leads to it, but for the objects of `dirty` and
the names of `free`. The mode of a symlink is no part of it. -/
structure Stable (root : Inode) (slot : Inode × String) (free : Set (Inode × String)) (dirty : Set Inode) (d : Disk) : Prop where
  place : d.child slot.1 slot.2 = some root
  names : ∀ write ∈ d.entries.pending, write.1.1 < d.next ∧ write.1 ≠ slot ∧
    ∀ names, d.directory_at root names = some write.1.1 → write.1.1 ∈ dirty ∨ write.1 ∈ free
  contents : ∀ write ∈ d.contents.pending, write.1 < d.next ∧
    ∀ names, d.entry_at root names = some ⟨.file, write.1⟩ → write.1 ∈ dirty
  modes : ∀ write ∈ d.modes.pending, write.1 < d.next ∧
    ∀ names kind, d.entry_at root names = some ⟨kind, write.1⟩ → write.1 ∈ dirty ∨ ∃ target, kind = .symlink target

/-- Where nothing comes into the tree but objects of `dirty'` and symlinks, and nothing else becomes pending. -/
theorem Stable.of_below (h : d.Stable root slot free dirty) (hplace : t.child slot.1 slot.2 = some root) (hdirty : dirty ⊆ dirty')
    (hnext : d.next ≤ t.next)
    (hdirectory : ∀ names fd, t.directory_at root names = some fd → fd ∈ dirty' ∨ ∃ names', d.directory_at root names' = some fd)
    (hentry : ∀ names kind inode, t.entry_at root names = some ⟨kind, inode⟩ →
      (inode ∈ dirty' ∨ ∃ target, kind = .symlink target) ∨ ∃ names', d.entry_at root names' = some ⟨kind, inode⟩)
    (hnames : ∀ write ∈ t.entries.pending, write ∈ d.entries.pending ∨
      write.1.1 < t.next ∧ write.1 ≠ slot ∧ (write.1.1 ∈ dirty' ∨ write.1 ∈ free))
    (hcontents : ∀ write ∈ t.contents.pending, write ∈ d.contents.pending ∨ write.1 < t.next ∧ write.1 ∈ dirty')
    (hmodes : ∀ write ∈ t.modes.pending, write ∈ d.modes.pending ∨ write.1 < t.next ∧
      ∀ names kind, t.entry_at root names = some ⟨kind, write.1⟩ → write.1 ∈ dirty' ∨ ∃ target, kind = .symlink target) :
    t.Stable root slot free dirty' := by
  refine ⟨hplace, fun write hwrite => ?_, fun write hwrite => ?_, fun write hwrite => ?_⟩
  · rcases hnames write hwrite with hold | ⟨hlt, hne, hnew⟩
    · obtain ⟨hlt, hne, hapart⟩ := h.names write hold
      refine ⟨hlt.trans_le hnext, hne, fun names hopen => ?_⟩
      rcases hdirectory names _ hopen with hfresh | ⟨names', hopen'⟩
      · exact .inl hfresh
      · exact (hapart names' hopen').imp_left fun hmem => hdirty hmem
    · exact ⟨hlt, hne, fun _ _ => hnew⟩
  · rcases hcontents write hwrite with hold | ⟨hlt, hnew⟩
    · obtain ⟨hlt, hapart⟩ := h.contents write hold
      refine ⟨hlt.trans_le hnext, fun names hfile => ?_⟩
      rcases hentry names _ _ hfile with (hfresh | ⟨target, hkind⟩) | ⟨names', hfile'⟩
      · exact hfresh
      · cases hkind
      · exact hdirty (hapart names' hfile')
    · exact ⟨hlt, fun _ _ => hnew⟩
  · rcases hmodes write hwrite with hold | ⟨hlt, hnew⟩
    · obtain ⟨hlt, hapart⟩ := h.modes write hold
      refine ⟨hlt.trans_le hnext, fun names kind hfound => ?_⟩
      rcases hentry names _ _ hfound with hfresh | ⟨names', hfound'⟩
      · exact hfresh
      · exact (hapart names' kind hfound').imp_left fun hmem => hdirty hmem
    · exact ⟨hlt, hnew⟩

theorem Stable.mono (h : d.Stable root slot free dirty) (hdirty : dirty ⊆ dirty') : d.Stable root slot free dirty' :=
  h.of_below h.place hdirty (Nat.le_refl _) (fun names _ hopen => .inr ⟨names, hopen⟩) (fun names _ _ hfound => .inr ⟨names, hfound⟩)
    (fun _ hwrite => .inl hwrite) (fun _ hwrite => .inl hwrite) fun _ hwrite => .inl hwrite

/-- What a flush of one object leaves pending. -/
theorem Stable.fsync (h : d.Stable root slot free dirty) (fd : Inode) : (d.fsync fd).Stable root slot free (dirty \ {fd}) := by
  have hdirectory : ∀ names, (d.fsync fd).directory_at root names = d.directory_at root names := fun names =>
    route_congr (fun _ parent _ => funext fun name => child_congr (lookup_fsync d fd parent name)) names
  have hentry : ∀ names, (d.fsync fd).entry_at root names = d.entry_at root names := by
    intro names
    unfold entry_at
    simp only [hdirectory, lookup_fsync]
  refine ⟨(child_congr (lookup_fsync d fd _ _)).trans h.place, fun write hwrite => ?_, fun write hwrite => ?_,
    fun write hwrite => ?_⟩
  · obtain ⟨hold, hother⟩ := List.mem_filter.mp hwrite
    obtain ⟨hlt, hslot, hapart⟩ := h.names write hold
    have hne : write.1.1 ≠ fd := by simpa using hother
    exact ⟨hlt, hslot, fun names hopen => (hapart names ((hdirectory names).symm.trans hopen)).imp_left fun hmem => ⟨hmem, hne⟩⟩
  · obtain ⟨hold, hother⟩ := List.mem_filter.mp hwrite
    obtain ⟨hlt, hapart⟩ := h.contents write hold
    have hne : write.1 ≠ fd := by simpa using hother
    exact ⟨hlt, fun names hfile => ⟨hapart names ((hentry names).symm.trans hfile), hne⟩⟩
  · obtain ⟨hold, hother⟩ := List.mem_filter.mp hwrite
    obtain ⟨hlt, hapart⟩ := h.modes write hold
    have hne : write.1 ≠ fd := by simpa using hother
    exact ⟨hlt, fun names kind hfound =>
      (hapart names kind ((hentry names).symm.trans hfound)).imp_left fun hmem => ⟨hmem, hne⟩⟩

/-- A flush of what is pending last leaves nothing of it. -/
theorem Stable.flushed (h : d.Stable root slot free (dirty ∪ {fd})) : (d.fsync fd).Stable root slot free dirty := by
  refine (h.fsync fd).mono ?_
  rintro inode ⟨hmem | hfd, hne⟩
  · exact hmem
  · exact absurd hfd hne

/-- The directories of a tree in which one object is new. -/
theorem Created.directory_at {kind : Kind} (h : Created kind parent name d t) (hd : d.Formed) (hparent : parent < d.next)
    {names : List String} (hopen : t.directory_at root names = some fd) : fd = d.next ∨ d.directory_at root names = some fd := by
  induction names using List.reverseRecOn generalizing fd with
  | nil => exact .inr hopen
  | append_singleton front leaf ih =>
    rw [directory_at_concat] at hopen
    obtain ⟨above, habove, hchild⟩ := Option.bind_eq_some_iff.mp hopen
    rw [child_eq_some_iff, h.lookup] at hchild
    rcases ih habove with rfl | hold
    · -- there is nothing in the new object
      rw [if_neg fun heq => absurd (Prod.mk.inj heq).1 (Nat.ne_of_lt hparent), hd.bare _ _ (Nat.le_refl _)] at hchild
      cases hchild
    · split at hchild
      · cases hchild
        exact .inl rfl
      · right
        rw [directory_at_concat, hold]
        exact child_eq_some_iff.mpr hchild

/-- The entries of a tree in which one object is new. -/
theorem Created.entry_at {kind : Kind} (h : Created kind parent name d t) (hd : d.Formed) (hparent : parent < d.next)
    {names : List String} {entry : Entry} (hfound : t.entry_at root names = some entry) :
    entry = ⟨kind, d.next⟩ ∨ d.entry_at root names = some entry := by
  cases names using List.reverseRecOn with
  | nil => cases hfound
  | append_singleton front leaf =>
    rw [entry_at_concat] at hfound
    obtain ⟨above, habove, hlookup⟩ := Option.bind_eq_some_iff.mp hfound
    rw [h.lookup] at hlookup
    rcases h.directory_at hd hparent habove with rfl | hold
    · rw [if_neg fun heq => absurd (Prod.mk.inj heq).1 (Nat.ne_of_lt hparent), hd.bare _ _ (Nat.le_refl _)] at hlookup
      cases hlookup
    · split at hlookup
      · cases hlookup
        exact .inl rfl
      · right
        rw [entry_at_concat, hold]
        exact hlookup

/-- No name in the tree is the one that leads to it. -/
theorem Tree.ne_slot (hd : d.Tree root) (hplace : d.child slot.1 slot.2 = some root)
    (hopen : d.directory_at root front = some parent) (name : String) : (parent, name) ≠ slot := by
  rintro rfl
  -- the root would be below itself
  have hbelow : d.directory_at root (front ++ [name]) = some root := by
    rw [directory_at_concat, hopen]
    exact hplace
  exact List.cons_ne_nil _ _ (List.append_eq_nil_iff.mp (hd.single _ [] root hbelow rfl)).2

theorem child_set_entry {key : Inode × String} {entry : Option Entry} (hne : (parent, name) ≠ key) :
    (d.set_entry parent name entry).child key.1 key.2 = d.child key.1 key.2 := by
  refine child_congr ?_
  rw [lookup_set_entry, if_neg hne]

/-- A new object leaves its directory pending, and itself where it is no symlink. -/
theorem Stable.created {kind : Kind} (h : d.Stable root slot free dirty) (hd : d.Tree root)
    (hopen : d.directory_at root front = some parent)
    (hcreated : Created kind parent name d t) (hdirty : dirty ⊆ dirty') (hin : parent ∈ dirty')
    (hnew : d.next ∈ dirty' ∨ ∃ target, kind = .symlink target)
    (hnames : ∀ write ∈ t.entries.pending, write ∈ d.entries.pending ∨ write.1.1 = parent)
    (hcontents : ∀ write ∈ t.contents.pending, write ∈ d.contents.pending ∨ write.1 = d.next ∧ d.next ∈ dirty')
    (hmodes : ∀ write ∈ t.modes.pending, write ∈ d.modes.pending ∨ write.1 = d.next) : t.Stable root slot free dirty' := by
  have hnext : d.next < t.next := hcreated.next ▸ Nat.lt_succ_self _
  have hparent := hd.directory_lt hopen
  have hplace : t.child slot.1 slot.2 = some root := by
    rw [child_congr (hcreated.same (hd.ne_slot h.place hopen name).symm)]
    exact h.place
  refine h.of_below hplace hdirty (Nat.le_of_lt hnext) (fun names fd hopen => ?_) (fun names kind' inode hfound => ?_)
    (fun write hwrite => ?_) (fun write hwrite => ?_) fun write hwrite => ?_
  · by_cases hfd : fd ∈ dirty'
    · exact .inl hfd
    · refine .inr ⟨names, (hcreated.directory_at hd.toFormed hparent hopen).resolve_left ?_⟩
      rintro rfl
      rcases hnew with hmem | ⟨target, rfl⟩
      · exact hfd hmem
      · have hroot : names ≠ [] := by
          rintro rfl
          exact absurd (Option.some.inj hopen) (Nat.ne_of_lt hd.old)
        rw [directory_at_eq_some_iff hroot] at hopen
        rcases hcreated.entry_at hd.toFormed hparent hopen with heq | hold
        · cases heq
        · exact absurd (hd.entry_lt hold) (Nat.lt_irrefl _)
  · rcases hcreated.entry_at hd.toFormed hparent hfound with heq | hold
    · cases heq
      exact .inl hnew
    · exact .inr ⟨names, hold⟩
  · rcases hnames write hwrite with hold | heq
    · exact .inl hold
    · have hne := hd.ne_slot h.place hopen write.1.2
      rw [← heq] at hne hparent hin
      exact .inr ⟨hparent.trans hnext, hne, .inl hin⟩
  · rcases hcontents write hwrite with hold | ⟨heq, hmem⟩
    · exact .inl hold
    · exact .inr ⟨heq ▸ hnext, heq ▸ hmem⟩
  · rcases hmodes write hwrite with hold | heq
    · exact .inl hold
    · refine .inr ⟨heq ▸ hnext, fun names kind' hfound => ?_⟩
      rw [heq] at hfound ⊢
      rcases hcreated.entry_at hd.toFormed hparent hfound with hsame | hold
      · cases hsame
        exact hnew
      · exact absurd (hd.entry_lt hold) (Nat.lt_irrefl _)

theorem Stable.allocate (h : d.Stable root slot free dirty) (hd : d.Tree root) (hopen : d.directory_at root front = some parent)
    (kind : Kind) (name : String) (mode : Nat) :
    (d.allocate kind parent name mode).Stable root slot free (dirty ∪ {parent, d.next}) := by
  refine h.created hd hopen (.allocate kind parent name mode d) Set.subset_union_left (.inr (.inl rfl)) (.inl (.inr (.inr rfl)))
    (fun write hwrite => ?_) (fun write hwrite => ?_) fun write hwrite => ?_
  · refine (Cache.mem_pending_set.mp hwrite).imp_right fun heq => ?_
    rw [heq]
  · refine (Cache.mem_pending_set.mp hwrite).imp_right fun heq => ⟨?_, .inr (.inr rfl)⟩
    rw [heq]
  · refine (Cache.mem_pending_set.mp hwrite).imp_right fun heq => ?_
    rw [heq]

/-- What is written to an object of `dirty` is pending. -/
theorem Stable.written (h : d.Stable root slot free dirty) (hfd : fd ∈ dirty) (hlt : fd < d.next) (content : List UInt8)
    (short_writes : List Nat) : { d with contents := d.contents.set fd content, short_writes }.Stable root slot free dirty := by
  refine h.of_below h.place (fun _ hmem => hmem) (Nat.le_refl _) (fun names _ hopen => .inr ⟨names, hopen⟩)
    (fun names _ _ hfound => .inr ⟨names, hfound⟩) (fun _ hwrite => .inl hwrite) (fun write hwrite => ?_) fun _ hwrite => .inl hwrite
  refine (Cache.mem_pending_set.mp hwrite).imp_right fun heq => ?_
  rw [heq]
  exact ⟨hlt, hfd⟩

theorem Stable.set_mode (h : d.Stable root slot free dirty) (hfd : fd ∈ dirty) (hlt : fd < d.next) (mode : Nat) :
    { d with modes := d.modes.set fd mode }.Stable root slot free dirty := by
  refine h.of_below h.place (fun _ hmem => hmem) (Nat.le_refl _) (fun names _ hopen => .inr ⟨names, hopen⟩)
    (fun names _ _ hfound => .inr ⟨names, hfound⟩) (fun _ hwrite => .inl hwrite) (fun _ hwrite => .inl hwrite) fun write hwrite => ?_
  refine (Cache.mem_pending_set.mp hwrite).imp_right fun heq => ?_
  rw [heq]
  exact ⟨hlt, fun _ _ _ => .inl hfd⟩

/-- The directories of a tree from which a name is removed. -/
theorem directory_at_remove {names : List String} (hopen : (d.set_entry parent name none).directory_at root names = some fd) :
    d.directory_at root names = some fd := by
  induction names using List.reverseRecOn generalizing fd with
  | nil => exact hopen
  | append_singleton front leaf ih =>
    rw [directory_at_concat] at hopen ⊢
    obtain ⟨above, habove, hchild⟩ := Option.bind_eq_some_iff.mp hopen
    rw [ih habove, Option.bind_some]
    rw [child_eq_some_iff, lookup_set_entry] at hchild
    split at hchild
    · cases hchild
    · exact child_eq_some_iff.mpr hchild

theorem entry_at_remove {names : List String} {entry : Entry}
    (hfound : (d.set_entry parent name none).entry_at root names = some entry) : d.entry_at root names = some entry := by
  cases names using List.reverseRecOn with
  | nil => cases hfound
  | append_singleton front leaf =>
    rw [entry_at_concat] at hfound ⊢
    obtain ⟨above, habove, hlookup⟩ := Option.bind_eq_some_iff.mp hfound
    rw [directory_at_remove habove, Option.bind_some]
    rw [lookup_set_entry] at hlookup
    split at hlookup
    · cases hlookup
    · exact hlookup

/-- A name that is removed leaves its directory pending. -/
theorem Stable.remove (h : d.Stable root slot free dirty) (hd : d.Tree root) (hopen : d.directory_at root front = some parent)
    (hdirty : dirty ⊆ dirty')
    (hin : parent ∈ dirty' ∨ (parent, name) ∈ free) : (d.set_entry parent name none).Stable root slot free dirty' := by
  have hne := hd.ne_slot h.place hopen name
  refine h.of_below ((child_set_entry hne).trans h.place) hdirty (Nat.le_refl _)
    (fun names _ hopen => .inr ⟨names, directory_at_remove hopen⟩)
    (fun names _ _ hfound => .inr ⟨names, entry_at_remove hfound⟩) (fun write hwrite => ?_) (fun _ hwrite => .inl hwrite)
    fun _ hwrite => .inl hwrite
  refine (Cache.mem_pending_set.mp hwrite).imp_right fun heq => ?_
  rw [heq]
  exact ⟨hd.directory_lt hopen, hne, hin⟩

/-- A file that gets another name in its directory leaves the directory pending. -/
theorem Stable.rename {src dst : String} {inode : Inode} (h : d.Stable root slot free dirty) (hd : d.Tree root)
    (hopen : d.directory_at root front = some parent) (hin : parent ∈ dirty) (hfile : d.lookup parent src = some ⟨.file, inode⟩) :
    ((d.set_entry parent src none).set_entry parent dst (some ⟨.file, inode⟩)).Stable root slot free dirty := by
  have hparent := hd.directory_lt hopen
  have hne : ∀ name, (parent, name) ≠ slot := hd.ne_slot h.place hopen
  have hdirectory : ∀ names fd, ((d.set_entry parent src none).set_entry parent dst (some ⟨.file, inode⟩)).directory_at root names =
      some fd → (d.set_entry parent src none).directory_at root names = some fd := by
    intro names fd hopen
    induction names using List.reverseRecOn generalizing fd with
    | nil => exact hopen
    | append_singleton front leaf ih =>
      rw [directory_at_concat] at hopen ⊢
      obtain ⟨above, habove, hchild⟩ := Option.bind_eq_some_iff.mp hopen
      rw [ih above habove, Option.bind_some]
      rw [child_eq_some_iff, lookup_set_entry] at hchild
      split at hchild
      · cases hchild
      · exact child_eq_some_iff.mpr hchild
  refine h.of_below ((child_set_entry (hne dst)).trans ((child_set_entry (hne src)).trans h.place)) (fun _ hmem => hmem)
    (Nat.le_refl _) (fun names fd hopen => .inr ⟨names, directory_at_remove (hdirectory names fd hopen)⟩)
    (fun names kind inode' hfound => ?_)
    (fun write hwrite => ?_) (fun _ hwrite => .inl hwrite) fun _ hwrite => .inl hwrite
  · right
    cases names using List.reverseRecOn with
    | nil => cases hfound
    | append_singleton front leaf =>
      rw [entry_at_concat] at hfound
      obtain ⟨above, habove, hlookup⟩ := Option.bind_eq_some_iff.mp hfound
      have hold := directory_at_remove (hdirectory front above habove)
      rw [lookup_set_entry] at hlookup
      split at hlookup
      · rename_i heq
        cases hlookup
        refine ⟨front ++ [src], ?_⟩
        rw [entry_at_concat, hold, Option.bind_some, ← (Prod.mk.inj heq).1]
        exact hfile
      · have hentry : (d.set_entry parent src none).entry_at root (front ++ [leaf]) = some ⟨kind, inode'⟩ := by
          rw [entry_at_concat, hdirectory front above habove]
          exact hlookup
        exact ⟨front ++ [leaf], entry_at_remove hentry⟩
  · rcases Cache.mem_pending_set.mp hwrite with hold | heq
    · refine (Cache.mem_pending_set.mp hold).imp_right fun heq => ?_
      rw [heq]
      exact ⟨hparent, hne src, .inl hin⟩
    · rw [heq]
      exact .inr ⟨hparent, hne dst, .inl hin⟩

/-! What a power cut leaves. -/

/-- The name of the tree leads to it after a power cut. -/
theorem Stable.place_cut (h : d.Stable root slot free dirty) (hcut : d.Cut t) : t.child slot.1 slot.2 = some root :=
  (child_congr (Cache.Settled.get_cut (fun write hwrite => (h.names write hwrite).2.1) hcut.1)).trans h.place

/-- A name of the tree leads after a power cut where it led. -/
theorem Stable.lookup_cut {front : List String} {leaf : String} (h : d.Stable root slot {(root, name)} ∅) (hd : d.Tree root)
    (hcut : d.Cut t) (hopen : d.directory_at root front = some parent) (hnames : (front ++ [leaf]).head? ≠ some name) :
    t.lookup parent leaf = d.lookup parent leaf := by
  refine Cache.Settled.get_cut (fun write hwrite heq => ?_) hcut.1
  have hparent : write.1.1 = parent := congrArg Prod.fst heq
  rcases (h.names write hwrite).2.2 front (by rw [hopen, hparent]) with hmem | hmem
  · exact hmem.elim
  · -- only the root holds the name that may be pending
    have hkey : (parent, leaf) = (root, name) := heq.symm.trans hmem
    obtain ⟨rfl, rfl⟩ := Prod.mk.inj hkey
    obtain rfl : front = [] := hd.single front [] parent hopen rfl
    exact hnames rfl

theorem Stable.directory_at_cut {names : List String} (h : d.Stable root slot {(root, name)} ∅) (hd : d.Tree root) (hcut : d.Cut t)
    (hnames : names.head? ≠ some name) : t.directory_at root names = d.directory_at root names := by
  induction names using List.reverseRecOn with
  | nil => rfl
  | append_singleton front leaf ih =>
    have hfront : front.head? ≠ some name := by
      cases front with
      | nil => exact Option.some_ne_none _ ∘ Eq.symm
      | cons first rest => exact hnames
    rw [directory_at_concat, directory_at_concat, ih hfront]
    cases hopen : d.directory_at root front with
    | none => rfl
    | some parent => exact child_congr (h.lookup_cut hd hcut hopen hnames)

theorem Stable.entry_at_cut {names : List String} (h : d.Stable root slot {(root, name)} ∅) (hd : d.Tree root) (hcut : d.Cut t)
    (hnames : names.head? ≠ some name) : t.entry_at root names = d.entry_at root names := by
  cases names using List.reverseRecOn with
  | nil => rfl
  | append_singleton front leaf =>
    have hfront : front.head? ≠ some name := by
      cases front with
      | nil => exact Option.some_ne_none _ ∘ Eq.symm
      | cons first rest => exact hnames
    rw [entry_at_concat, entry_at_concat, h.directory_at_cut hd hcut hfront]
    cases hopen : d.directory_at root front with
    | none => rfl
    | some parent => exact h.lookup_cut hd hcut hopen hnames

/-- The files of the tree keep their content, and what is no symlink keeps its mode. -/
theorem Stable.objects_cut {names : List String} {kind : Kind} {inode : Inode} (h : d.Stable root slot free ∅) (hcut : d.Cut t)
    (hfound : d.entry_at root names = some ⟨kind, inode⟩) :
    (kind = .file → t.contents.get inode = d.contents.get inode) ∧
      ((∀ target, kind ≠ .symlink target) → t.modes.get inode = d.modes.get inode) := by
  refine ⟨?_, fun hkind => Cache.Settled.get_cut (fun write hwrite heq => ?_) hcut.2.2.1⟩
  · rintro rfl
    refine Cache.Settled.get_cut (fun write hwrite heq => ?_) hcut.2.1
    exact (h.contents write hwrite).2 names (by rw [heq, hfound])
  · rcases (h.modes write hwrite).2 names kind (by rw [heq, hfound]) with hmem | ⟨target, hsymlink⟩
    · exact hmem
    · exact hkind target hsymlink

end Disk

end atoms.fs
