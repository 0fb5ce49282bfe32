import Atoms.Fs.Names
import Atoms.Fs.Observe
import Atoms.Library.Route

open atoms.errors atoms.fingerprint crash writeback routes

namespace atoms.fs

namespace Disk

/-- The directory that a name leads to. -/
def child (d : Disk) (parent : Inode) (name : String) : Option Inode :=
  match d.lookup parent name with
  | some ⟨.directory, inode⟩ => some inode
  | _ => none

/-- The directory that names lead to, one after the other. -/
def directory_at (d : Disk) (root : Inode) (names : List String) : Option Inode := route d.child root names

/-- What the last of some names leads to, in the directory that the others lead to. -/
def entry_at (d : Disk) (root : Inode) (names : List String) : Option Entry :=
  match names.getLast? with
  | none => none
  | some leaf => (d.directory_at root names.dropLast).bind fun parent => d.lookup parent leaf

/-- Each name leads to an object that is there and is one component of a path, and nothing is in a directory that is not
there yet. -/
structure Formed (d : Disk) : Prop where
  numbered : d.Numbered
  bare : ∀ parent name, d.next ≤ parent → d.lookup parent name = none
  spelled : ∀ parent name entry, d.lookup parent name = some entry → name ≠ "" ∧ '/' ∉ name.toList

/-- Below `root` there is a tree: no directory is reached in two ways. -/
structure Tree (d : Disk) (root : Inode) : Prop extends Formed d where
  old : root < d.next
  single : Single d.child root

variable {d d' : Disk} {root parent : Inode} {name : String} {names : List String} {entry : Entry}

theorem child_eq_some_iff {inode : Inode} : d.child parent name = some inode ↔ d.lookup parent name = some ⟨.directory, inode⟩ := by
  unfold child
  split
  · rename_i found hlookup
    rw [hlookup]
    simp
  · rename_i hnot
    constructor
    · intro h
      cases h
    · exact fun h => absurd h (hnot inode)

@[simp] theorem directory_at_nil (d : Disk) (root : Inode) : d.directory_at root [] = some root := rfl

@[simp] theorem entry_at_nil (d : Disk) (root : Inode) : d.entry_at root [] = none := rfl

theorem directory_at_concat (d : Disk) (root : Inode) (front : List String) (name : String) :
    d.directory_at root (front ++ [name]) = (d.directory_at root front).bind fun parent => d.child parent name :=
  route_concat _ _ _ _

theorem directory_at_cons (d : Disk) (root : Inode) (name : String) (names : List String) :
    d.directory_at root (name :: names) = (d.child root name).bind fun inode => d.directory_at inode names :=
  route_cons _ _ _ _

theorem entry_at_concat (d : Disk) (root : Inode) (front : List String) (name : String) :
    d.entry_at root (front ++ [name]) = (d.directory_at root front).bind fun parent => d.lookup parent name := by
  rw [entry_at, List.getLast?_concat, List.dropLast_concat]

theorem entry_at_cons (d : Disk) (root : Inode) (name : String) (hne : names ≠ []) :
    d.entry_at root (name :: names) = (d.child root name).bind fun inode => d.entry_at inode names := by
  obtain ⟨front, leaf, rfl⟩ : ∃ front leaf, names = front ++ [leaf] :=
    ⟨names.dropLast, names.getLast hne, (List.dropLast_concat_getLast hne).symm⟩
  rw [← List.cons_append, entry_at_concat, directory_at_cons, Option.bind_assoc]
  simp only [entry_at_concat]

/-- Nothing is below a name that is not there. -/
theorem entry_at_absent (h : d.lookup root name = none) (rest : List String) : d.entry_at root (name :: rest) = none := by
  by_cases hrest : rest = []
  · exact hrest ▸ h
  · rw [entry_at_cons d root name hrest, child, h]
    rfl

theorem directory_at_eq_some_iff {inode : Inode} (hne : names ≠ []) :
    d.directory_at root names = some inode ↔ d.entry_at root names = some ⟨.directory, inode⟩ := by
  obtain ⟨front, leaf, rfl⟩ : ∃ front leaf, names = front ++ [leaf] :=
    ⟨names.dropLast, names.getLast hne, (List.dropLast_concat_getLast hne).symm⟩
  rw [directory_at_concat, entry_at_concat, Option.bind_eq_some_iff, Option.bind_eq_some_iff]
  simp only [child_eq_some_iff]

/-- The directories that names lead to from the root. -/
theorem Tree.directory_lt (h : d.Tree root) {inode : Inode} (hnames : d.directory_at root names = some inode) :
    inode < d.next := by
  cases hlist : names with
  | nil =>
    rw [hlist, directory_at_nil, Option.some.injEq] at hnames
    exact hnames ▸ h.old
  | cons name rest =>
    have hne : names ≠ [] := hlist ▸ List.cons_ne_nil _ _
    rw [directory_at_eq_some_iff hne, entry_at] at hnames
    split at hnames
    · cases hnames
    · obtain ⟨parent, _, hlookup⟩ := Option.bind_eq_some_iff.mp hnames
      exact h.numbered _ _ _ hlookup

theorem Tree.entry_lt (h : d.Tree root) (hentry : d.entry_at root names = some entry) : entry.inode < d.next := by
  rw [entry_at] at hentry
  split at hentry
  · cases hentry
  · obtain ⟨parent, _, hlookup⟩ := Option.bind_eq_some_iff.mp hentry
    exact h.numbered _ _ _ hlookup

theorem child_congr (hlookup : d'.lookup parent name = d.lookup parent name) : d'.child parent name = d.child parent name := by
  unfold child
  rw [hlookup]

theorem Formed.congr (h : d.Formed) (hlookup : ∀ parent name, d'.lookup parent name = d.lookup parent name)
    (hnext : d'.next = d.next) : d'.Formed := by
  refine ⟨fun parent name entry hentry => ?_, fun parent name hparent => ?_, fun parent name entry hentry => ?_⟩
  · rw [hlookup] at hentry
    rw [hnext]
    exact h.numbered parent name entry hentry
  · rw [hlookup]
    exact h.bare parent name (hnext ▸ hparent)
  · rw [hlookup] at hentry
    exact h.spelled parent name entry hentry

theorem Formed.remove (h : d.Formed) (parent : Inode) (name : String) : (d.set_entry parent name none).Formed := by
  refine ⟨h.numbered.set_entry fun found hfound => absurd hfound (Option.not_mem_none found), fun parent' name' hparent => ?_,
    fun parent' name' entry hentry => ?_⟩
  · rw [lookup_set_entry]
    split
    · rfl
    · exact h.bare parent' name' hparent
  · rw [lookup_set_entry] at hentry
    split at hentry
    · cases hentry
    · exact h.spelled parent' name' entry hentry

/-- A tree stays one where no directory is new. -/
theorem Tree.of_child (h : d.Tree root) (hformed : d'.Formed) (hnext : d.next ≤ d'.next)
    (hchild : ∀ parent name inode, d'.child parent name = some inode → d.child parent name = some inode) : d'.Tree root :=
  ⟨hformed, h.old.trans_le hnext, h.single.anti hchild⟩

/-- A tree stays one where every name leads where it led. -/
theorem Tree.congr (h : d.Tree root) (hlookup : ∀ parent name, d'.lookup parent name = d.lookup parent name)
    (hnext : d'.next = d.next) : d'.Tree root := by
  refine h.of_child (h.toFormed.congr hlookup hnext) (Nat.le_of_eq hnext.symm) fun parent name inode hchild => ?_
  rwa [child_congr (hlookup parent name)] at hchild

theorem Tree.fsync (h : d.Tree root) (fd : Inode) : (d.fsync fd).Tree root :=
  h.congr (fun _ _ => lookup_fsync _ _ _ _) rfl

theorem Tree.grown (h : d.Tree root) {inode : Inode} {bytes : List UInt8} (hgrown : d.Grown inode bytes d') : d'.Tree root :=
  h.congr hgrown.lookup hgrown.next

/-- A tree stays one where a name is removed. -/
theorem Tree.remove (h : d.Tree root) (parent : Inode) (name : String) : (d.set_entry parent name none).Tree root := by
  refine h.of_child (h.toFormed.remove parent name) (Nat.le_refl _) fun parent' name' inode hchild => ?_
  rw [child_eq_some_iff, lookup_set_entry] at hchild
  split at hchild
  · cases hchild
  · exact child_eq_some_iff.mpr hchild

/-- A new object is under a name; nothing else that was there is changed. -/
structure Created (kind : Kind) (parent : Inode) (name : String) (d t : Disk) : Prop where
  next : t.next = d.next + 1
  lookup : ∀ parent' name', t.lookup parent' name' =
    if (parent, name) = (parent', name') then some ⟨kind, d.next⟩ else d.lookup parent' name'
  contents : ∀ inode < d.next, t.contents.get inode = d.contents.get inode
  modes : ∀ inode < d.next, t.modes.get inode = d.modes.get inode

namespace Created

variable {kind : Kind} {t u : Disk}

theorem new (h : Created kind parent name d t) : t.lookup parent name = some ⟨kind, d.next⟩ :=
  (h.lookup parent name).trans (if_pos rfl)

theorem same (h : Created kind parent name d t) {parent' : Inode} {name' : String} (hne : (parent', name') ≠ (parent, name)) :
    t.lookup parent' name' = d.lookup parent' name' := (h.lookup parent' name').trans (if_neg (Ne.symm hne))

theorem allocate (kind : Kind) (parent : Inode) (name : String) (mode : Nat) (d : Disk) :
    Created kind parent name d (d.allocate kind parent name mode) where
  next := rfl
  lookup _ _ := lookup_allocate _ _ _ _ _ _ _
  contents inode hlt := by rw [get_contents_allocate, if_neg (Nat.ne_of_gt hlt)]
  modes inode hlt := Cache.get_set_of_ne d.modes (Nat.ne_of_gt hlt) _

/-- The content of the new object grows. -/
theorem grown (h : Created kind parent name d t) {bytes : List UInt8} (hgrown : t.Grown d.next bytes u) :
    Created kind parent name d u where
  next := hgrown.next.trans h.next
  lookup parent' name' := (hgrown.lookup parent' name').trans (h.lookup parent' name')
  contents inode hlt := by
    rw [hgrown.contents, if_neg (Nat.ne_of_gt hlt)]
    exact h.contents inode hlt
  modes inode hlt := by
    rw [hgrown.modes]
    exact h.modes inode hlt

/-- The mode of the new object is set. -/
theorem set_mode (h : Created kind parent name d t) (mode : Nat) :
    Created kind parent name d { t with modes := t.modes.set d.next mode } where
  next := h.next
  lookup := h.lookup
  contents := h.contents
  modes inode hlt := (Cache.get_set_of_ne t.modes (Nat.ne_of_gt hlt) mode).trans (h.modes inode hlt)

theorem fsync (h : Created kind parent name d t) (fd : Inode) : Created kind parent name d (t.fsync fd) where
  next := h.next
  lookup parent' name' := (lookup_fsync _ _ _ _).trans (h.lookup parent' name')
  contents inode hlt := (get_contents_fsync _ _ _).trans (h.contents inode hlt)
  modes inode hlt := (Cache.get_flush _ _ _).trans (h.modes inode hlt)

theorem formed (h : Created kind parent name d t) (hd : d.Formed) (hparent : parent < d.next)
    (hname : name ≠ "" ∧ '/' ∉ name.toList) : t.Formed := by
  refine ⟨fun parent' name' entry hentry => ?_, fun parent' name' hparent' => ?_, fun parent' name' entry hentry => ?_⟩
  · rw [h.lookup] at hentry
    rw [h.next]
    split at hentry
    · cases hentry
      exact Nat.lt_succ_self _
    · exact Nat.lt_succ_of_lt (hd.numbered parent' name' entry hentry)
  · rw [h.next] at hparent'
    rw [h.same fun heq => ?_]
    · exact hd.bare parent' name' (Nat.le_of_succ_le hparent')
    · have hle : d.next + 1 ≤ parent := (Prod.mk.inj heq).1 ▸ hparent'
      exact absurd hparent (Nat.not_lt.mpr (Nat.le_of_succ_le hle))
  · rw [h.lookup] at hentry
    split at hentry
    · rename_i heq
      exact (Prod.mk.inj heq).2 ▸ hname
    · exact hd.spelled parent' name' entry hentry

/-- A new object has its place in the tree. -/
theorem tree (h : Created kind parent name d t) (hd : d.Tree root) (hparent : parent < d.next)
    (habsent : d.lookup parent name = none) (hname : name ≠ "" ∧ '/' ∉ name.toList) : t.Tree root := by
  refine ⟨h.formed hd.toFormed hparent hname, h.next ▸ Nat.lt_succ_of_lt hd.old, ?_⟩
  cases kind with
  | directory =>
    have hadded : Added d.child t.child parent name d.next := by
      refine ⟨child_eq_some_iff.mpr h.new, ?_, fun parent' name' hne => child_congr (h.same hne), fun name' => ?_⟩
      · unfold child
        rw [habsent]
      · have hbare : t.lookup d.next name' = none := by
          rw [h.same fun heq => absurd (Prod.mk.inj heq).1 (Nat.ne_of_gt hparent)]
          exact hd.bare _ _ (Nat.le_refl _)
        unfold child
        rw [hbare]
    exact hadded.single hd.single fun labels hroute => absurd (hd.directory_lt hroute) (Nat.lt_irrefl _)
  | _ =>
    refine hd.single.anti fun parent' name' inode hchild => ?_
    rw [child_eq_some_iff, h.lookup] at hchild
    split at hchild
    · cases hchild
    · exact child_eq_some_iff.mpr hchild

end Created

/-- Every name that led to a directory leads to it still. -/
def Retains (d t : Disk) : Prop := ∀ parent name inode, d.child parent name = some inode → t.child parent name = some inode

theorem Retains.refl (d : Disk) : d.Retains d := fun _ _ _ h => h

theorem Retains.trans {t u : Disk} (h : d.Retains t) (h' : t.Retains u) : d.Retains u :=
  fun parent name inode hchild => h' parent name inode (h parent name inode hchild)

theorem Retains.fsync (d : Disk) (fd : Inode) : d.Retains (d.fsync fd) := fun parent name inode hchild => by
  rwa [child_congr (lookup_fsync d fd parent name)]

theorem Created.retains {kind : Kind} {t : Disk} (h : Created kind parent name d t) (habsent : d.lookup parent name = none) :
    d.Retains t := by
  intro parent' name' inode hchild
  rw [child_eq_some_iff] at hchild ⊢
  rwa [h.same fun heq => ?_]
  obtain ⟨rfl, rfl⟩ := Prod.mk.inj heq
  rw [habsent] at hchild
  cases hchild

/-- The names of a part of the tree lead to the same objects, which hold the same. -/
structure Agrees (root : Inode) (part : List String → Prop) (d t : Disk) : Prop where
  entry_at : ∀ names, part names → t.entry_at root names = d.entry_at root names
  contents : ∀ names entry, part names → d.entry_at root names = some entry →
    t.contents.get entry.inode = d.contents.get entry.inode
  modes : ∀ names entry, part names → d.entry_at root names = some entry → t.modes.get entry.inode = d.modes.get entry.inode

namespace Agrees

variable {part part' : List String → Prop} {t u : Disk}

theorem refl (root : Inode) (part : List String → Prop) (d : Disk) : d.Agrees root part d :=
  ⟨fun _ _ => rfl, fun _ _ _ _ => rfl, fun _ _ _ _ => rfl⟩

theorem trans (h : d.Agrees root part t) (h' : t.Agrees root part u) : d.Agrees root part u where
  entry_at names hpart := (h'.entry_at names hpart).trans (h.entry_at names hpart)
  contents names entry hpart hentry :=
    (h'.contents names entry hpart ((h.entry_at names hpart).trans hentry)).trans (h.contents names entry hpart hentry)
  modes names entry hpart hentry :=
    (h'.modes names entry hpart ((h.entry_at names hpart).trans hentry)).trans (h.modes names entry hpart hentry)

theorem mono (h : d.Agrees root part t) (hpart : ∀ names, part' names → part names) : d.Agrees root part' t :=
  ⟨fun names hnames => h.entry_at names (hpart names hnames), fun names entry hnames => h.contents names entry (hpart names hnames),
    fun names entry hnames => h.modes names entry (hpart names hnames)⟩

/-- Where the directories stay, a part of the tree agrees whose names do. -/
theorem of_child (hchild : ∀ parent name, t.child parent name = d.child parent name)
    (hlookup : ∀ front name parent, part (front ++ [name]) → d.directory_at root front = some parent →
      t.lookup parent name = d.lookup parent name)
    (hcontents : ∀ names entry, part names → d.entry_at root names = some entry →
      t.contents.get entry.inode = d.contents.get entry.inode)
    (hmodes : ∀ names entry, part names → d.entry_at root names = some entry →
      t.modes.get entry.inode = d.modes.get entry.inode) : d.Agrees root part t := by
  refine ⟨fun names hnames => ?_, hcontents, hmodes⟩
  cases names using List.reverseRecOn with
  | nil => rfl
  | append_singleton front name =>
    have hsame : t.directory_at root front = d.directory_at root front :=
      route_congr (fun _ parent _ => funext fun name => hchild parent name) front
    rw [entry_at_concat, entry_at_concat, hsame]
    cases hfront : d.directory_at root front with
    | none => rfl
    | some parent => exact hlookup front name parent hnames hfront

/-- A part of the tree whose names and objects stay as they are. -/
theorem of_lookup (hd : d.Tree root) (hlookup : ∀ parent name, t.lookup parent name = d.lookup parent name)
    (hcontents : ∀ inode < d.next, t.contents.get inode = d.contents.get inode)
    (hmodes : ∀ inode < d.next, t.modes.get inode = d.modes.get inode) (part : List String → Prop) : d.Agrees root part t :=
  of_child (fun parent name => child_congr (hlookup parent name)) (fun _ name parent _ _ => hlookup parent name)
    (fun _ _ _ hentry => hcontents _ (hd.entry_lt hentry)) fun _ _ _ hentry => hmodes _ (hd.entry_lt hentry)

/-- A name that led to no directory, and leads to none, is the only one of the tree that is changed. -/
theorem of_slot (hd : d.Tree root) {front : List String} (hfront : d.directory_at root front = some parent)
    (hold : d.child parent name = none) (hnew : t.child parent name = none)
    (hlookup : ∀ parent' name', (parent', name') ≠ (parent, name) → t.lookup parent' name' = d.lookup parent' name')
    (hcontents : ∀ inode < d.next, t.contents.get inode = d.contents.get inode)
    (hmodes : ∀ inode < d.next, t.modes.get inode = d.modes.get inode) :
    d.Agrees root (fun names => names ≠ front ++ [name]) t := by
  refine of_child (fun parent' name' => ?_) (fun front' name' parent' hne hfront' => hlookup parent' name' fun heq => ?_)
    (fun _ _ _ hentry => hcontents _ (hd.entry_lt hentry)) fun _ _ _ hentry => hmodes _ (hd.entry_lt hentry)
  · by_cases heq : (parent', name') = (parent, name)
    · obtain ⟨rfl, rfl⟩ := Prod.mk.inj heq
      rw [hold, hnew]
    · exact child_congr (hlookup parent' name' heq)
  · obtain ⟨rfl, rfl⟩ := Prod.mk.inj heq
    exact hne (by rw [hd.single front' front parent' hfront' hfront])

theorem fsync (hd : d.Tree root) (fd : Inode) (part : List String → Prop) : d.Agrees root part (d.fsync fd) :=
  of_lookup hd (fun _ _ => lookup_fsync _ _ _ _) (fun _ _ => get_contents_fsync _ _ _) (fun _ _ => Cache.get_flush _ _ _) part

/-- The directories of a part of the tree lead where they led. -/
theorem directory_at (h : d.Agrees root part t) (hnames : names = [] ∨ part names) :
    t.directory_at root names = d.directory_at root names := by
  by_cases hnil : names = []
  · subst hnil
    rfl
  · have hpart := hnames.resolve_left hnil
    refine Option.ext fun inode => ?_
    rw [directory_at_eq_some_iff hnil, directory_at_eq_some_iff hnil, h.entry_at names hpart]

/-- A new object changes nothing but what its own name leads to. -/
theorem of_created {kind : Kind} {front : List String} (h : Created kind parent name d t) (hd : d.Tree root) (ht : t.Tree root)
    (hfront : t.directory_at root front = some parent) : d.Agrees root (fun names => ¬ front ++ [name] <+: names) t := by
  have hlookup : ∀ above parent' name', t.directory_at root above = some parent' → ¬ front ++ [name] <+: above ++ [name'] →
      t.lookup parent' name' = d.lookup parent' name' := by
    intro above parent' name' habove hnot
    refine h.same fun heq => ?_
    obtain ⟨rfl, rfl⟩ := Prod.mk.inj heq
    rw [ht.single above front parent' habove hfront] at hnot
    exact hnot (List.prefix_refl _)
  have hdirectory : ∀ above, ¬ front ++ [name] <+: above → t.directory_at root above = d.directory_at root above := by
    intro above hnot
    induction above using List.reverseRecOn with
    | nil => rfl
    | append_singleton above last ih =>
      rw [directory_at_concat, directory_at_concat, ← ih fun hbelow => hnot (hbelow.trans (List.prefix_append _ _))]
      cases hopen : t.directory_at root above with
      | none => rfl
      | some parent' => exact child_congr (hlookup above parent' last hopen hnot)
  refine ⟨fun names hnot => ?_, fun _ _ _ hentry => h.contents _ (hd.entry_lt hentry),
    fun _ _ _ hentry => h.modes _ (hd.entry_lt hentry)⟩
  cases names using List.reverseRecOn with
  | nil => rfl
  | append_singleton above last =>
    rw [entry_at_concat, entry_at_concat, ← hdirectory above fun hbelow => hnot (hbelow.trans (List.prefix_append _ _))]
    cases hopen : t.directory_at root above with
    | none => rfl
    | some parent' => exact hlookup above parent' last hopen hnot

end Agrees

end Disk

end atoms.fs
