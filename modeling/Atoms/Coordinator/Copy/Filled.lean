import Atoms.Coordinator.Copy
import Atoms.Coordinator.Copy.Walk

open atoms.errors atoms.fingerprint atoms.paths atoms.spec atoms.fs atoms.store atoms.chain checked crash writeback routes

namespace atoms.fs

/-- More is in the tree below `root`: all that was there is there, and what is new is none of the names `skipped` of the
root, and not below them. -/
structure Disk.Filled (root : Inode) (skipped : List String) (d t : Disk) : Prop where
  next : d.next ≤ t.next
  kept : ∀ parent name entry, d.lookup parent name = some entry → t.lookup parent name = some entry
  made : ∀ parent name entry, t.lookup parent name = some entry → d.lookup parent name = some entry ∨
    d.next ≤ entry.inode ∧ ∃ names, t.directory_at root names = some parent ∧ (names ++ [name]).headD name ∉ skipped
  contents : ∀ inode < d.next, t.contents.get inode = d.contents.get inode
  modes : ∀ inode < d.next, t.modes.get inode = d.modes.get inode

namespace Disk.Filled

variable {root : Inode} {skipped : List String} {d t u : Disk} {names : List String}

theorem refl (root : Inode) (skipped : List String) (d : Disk) : d.Filled root skipped d :=
  ⟨Nat.le_refl _, fun _ _ _ h => h, fun _ _ _ h => .inl h, fun _ _ => rfl, fun _ _ => rfl⟩

theorem child (h : d.Filled root skipped t) (parent : Inode) (name : String) (inode : Inode)
    (hchild : d.child parent name = some inode) : t.child parent name = some inode :=
  child_eq_some_iff.mpr (h.kept _ _ _ (child_eq_some_iff.mp hchild))

theorem retains (h : d.Filled root skipped t) : d.Retains t := h.child

theorem directory_at (h : d.Filled root skipped t) {start inode : Inode} (hnames : d.directory_at start names = some inode) :
    t.directory_at start names = some inode := route_mono h.child hnames

theorem entry_at (h : d.Filled root skipped t) {start : Inode} {entry : Entry}
    (hentry : d.entry_at start names = some entry) : t.entry_at start names = some entry := by
  unfold Disk.entry_at at hentry ⊢
  split at hentry
  · cases hentry
  · obtain ⟨parent, hparent, hlookup⟩ := Option.bind_eq_some_iff.mp hentry
    rw [h.directory_at hparent]
    exact h.kept _ _ _ hlookup

theorem trans (h : d.Filled root skipped t) (h' : t.Filled root skipped u) : d.Filled root skipped u where
  next := h.next.trans h'.next
  kept parent name entry hentry := h'.kept _ _ _ (h.kept _ _ _ hentry)
  made parent name entry hentry := by
    rcases h'.made _ _ _ hentry with hold | ⟨hnew, hnames⟩
    · refine (h.made _ _ _ hold).imp id fun ⟨hnew, names, hparent, hhead⟩ => ⟨hnew, names, h'.directory_at hparent, hhead⟩
    · exact .inr ⟨h.next.trans hnew, hnames⟩
  contents inode hlt := (h'.contents inode (hlt.trans_le h.next)).trans (h.contents inode hlt)
  modes inode hlt := (h'.modes inode (hlt.trans_le h.next)).trans (h.modes inode hlt)

/-- A new object in a directory of the tree. -/
theorem created {kind : Kind} {parent : Inode} {name : String} (h : Created kind parent name d t)
    (hnames : d.directory_at root names = some parent) (hhead : (names ++ [name]).headD name ∉ skipped)
    (habsent : d.lookup parent name = none) : d.Filled root skipped t := by
  have hkept : ∀ parent' name' entry, d.lookup parent' name' = some entry → t.lookup parent' name' = some entry := by
    intro parent' name' entry hentry
    rw [h.same]
    · exact hentry
    · intro heq
      obtain ⟨rfl, rfl⟩ := Prod.mk.inj heq
      rw [habsent] at hentry
      cases hentry
  refine ⟨h.next ▸ Nat.le_succ _, hkept, fun parent' name' entry hentry => ?_, h.contents, h.modes⟩
  rw [h.lookup] at hentry
  split at hentry
  · rename_i heq
    obtain ⟨rfl, rfl⟩ := Prod.mk.inj heq
    cases hentry
    refine .inr ⟨Nat.le_refl _, names, ?_, hhead⟩
    exact route_mono (fun parent name inode hchild => child_eq_some_iff.mpr (hkept _ _ _ (child_eq_some_iff.mp hchild))) hnames
  · exact .inl hentry

/-- What changes no name, and nothing of an object that was there. -/
theorem of_same (hnext : d.next ≤ t.next) (hlookup : ∀ parent name, t.lookup parent name = d.lookup parent name)
    (hcontents : ∀ inode < d.next, t.contents.get inode = d.contents.get inode)
    (hmodes : ∀ inode < d.next, t.modes.get inode = d.modes.get inode) : d.Filled root skipped t :=
  ⟨hnext, fun _ _ _ hentry => (hlookup _ _).trans hentry, fun _ _ _ hentry => .inl ((hlookup _ _).symm.trans hentry), hcontents,
    hmodes⟩

theorem fsync (h : d.Filled root skipped t) (fd : Inode) : d.Filled root skipped (t.fsync fd) :=
  h.trans (of_same (Nat.le_refl _) (fun _ _ => lookup_fsync _ _ _ _) (fun _ _ => get_contents_fsync _ _ _)
    fun _ _ => Cache.get_flush _ _ _)

/-- A name of the root that is passed over is still not there. -/
theorem absent (h : d.Filled root skipped t) (ht : t.Tree root) {name : String} (hname : name ∈ skipped)
    (habsent : d.lookup root name = none) : t.lookup root name = none := by
  cases hentry : t.lookup root name with
  | none => rfl
  | some entry =>
    rcases h.made _ _ _ hentry with hold | ⟨_, names, hparent, hhead⟩
    · rw [habsent] at hold
      cases hold
    · obtain rfl : names = [] := ht.single names [] root hparent rfl
      exact absurd hname hhead

/-- Nothing is new below a name of the root that is passed over. -/
theorem lookup_below (h : d.Filled root skipped t) (ht : t.Tree root) {name : String} (hname : name ∈ skipped)
    {rest : List String} {parent : Inode} (hparent : d.directory_at root (name :: rest) = some parent) (leaf : String) :
    t.lookup parent leaf = d.lookup parent leaf := by
  cases hentry : t.lookup parent leaf with
  | some entry =>
    rcases h.made _ _ _ hentry with hold | ⟨_, names, hnames, hhead⟩
    · exact hold.symm
    · obtain rfl : names = name :: rest := ht.single _ _ _ hnames (h.directory_at hparent)
      exact absurd hname hhead
  | none =>
    cases hold : d.lookup parent leaf with
    | none => rfl
    | some entry =>
      rw [h.kept _ _ _ hold] at hentry
      cases hentry

end Disk.Filled

end atoms.fs

namespace atoms.coordinator

section

variable [Sha256] {root : Inode} {skipped : List String} {d t : Disk} {names : List String}

theorem entry_state_congr {entry : fs.Entry} (hcontents : t.contents.get entry.inode = d.contents.get entry.inode)
    (hmodes : t.modes.get entry.inode = d.modes.get entry.inode) : entry_state t entry = entry_state d entry := by
  unfold entry_state file_state
  rw [hcontents, hmodes]

theorem state_at_filled (h : d.Filled root skipped t) (hd : d.Tree root) {state : PathState}
    (hstate : state_at d root names = some state) : state_at t root names = some state := by
  obtain ⟨entry, hentry, rfl⟩ := Option.map_eq_some_iff.mp hstate
  have hlt := hd.entry_lt hentry
  rw [state_at, h.entry_at hentry, Option.map_some, entry_state_congr (h.contents _ hlt) (h.modes _ hlt)]

end

end atoms.coordinator
