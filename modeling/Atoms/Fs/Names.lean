import Atoms.Fs.Disk

open atoms.errors crash writeback

namespace atoms.fs

namespace Disk

/-- Every object that has a name was numbered before the next one. -/
def Numbered (d : Disk) : Prop := ∀ parent leaf entry, d.lookup parent leaf = some entry → entry.inode < d.next

/-- No name leads to the object, as none does to the root of a tree. -/
def Unreached (d : Disk) (inode : Inode) : Prop := ∀ parent leaf entry, d.lookup parent leaf = some entry → entry.inode ≠ inode

/-- Every write that is made takes a byte at least. -/
def Progresses (d : Disk) : Prop := ∀ count ∈ d.short_writes, 0 < count

/-- The name leads to the entry, and no change of it is pending. -/
def Holds (d : Disk) (parent : Inode) (leaf : String) (entry : Option Entry) : Prop := d.entries.Holds (parent, leaf) entry

/-- Whatever any name was ever made to lead to has `P`. -/
def Named (d : Disk) (P : Inode → String → Entry → Prop) : Prop :=
  d.entries.Ever fun key value => ∀ entry, value = some entry → P key.1 key.2 entry

variable (d : Disk)

theorem lookup_set_entry (parent : Inode) (leaf : String) (entry : Option Entry) (parent' : Inode) (leaf' : String) :
    (d.set_entry parent leaf entry).lookup parent' leaf' =
      if (parent, leaf) = (parent', leaf') then entry else d.lookup parent' leaf' := Cache.get_set _ _ _ _

@[simp] theorem lookup_set_entry_self (parent : Inode) (leaf : String) (entry : Option Entry) :
    (d.set_entry parent leaf entry).lookup parent leaf = entry := Cache.get_set_self _ _ _

theorem lookup_set_entry_of_ne {parent parent' : Inode} {leaf leaf' : String} (h : (parent, leaf) ≠ (parent', leaf'))
    (entry : Option Entry) : (d.set_entry parent leaf entry).lookup parent' leaf' = d.lookup parent' leaf' :=
  Cache.get_set_of_ne _ h _

@[simp] theorem contents_set_entry (parent : Inode) (leaf : String) (entry : Option Entry) :
    (d.set_entry parent leaf entry).contents = d.contents := rfl

@[simp] theorem next_set_entry (parent : Inode) (leaf : String) (entry : Option Entry) :
    (d.set_entry parent leaf entry).next = d.next := rfl

theorem lookup_allocate (kind : Kind) (parent : Inode) (leaf : String) (mode : Nat) (parent' : Inode) (leaf' : String) :
    (d.allocate kind parent leaf mode).lookup parent' leaf' =
      if (parent, leaf) = (parent', leaf') then some ⟨kind, d.next⟩ else d.lookup parent' leaf' := Cache.get_set _ _ _ _

theorem get_contents_allocate (kind : Kind) (parent : Inode) (leaf : String) (mode : Nat) (inode : Inode) :
    (d.allocate kind parent leaf mode).contents.get inode = if d.next = inode then [] else d.contents.get inode :=
  Cache.get_set _ _ _ _

@[simp] theorem lookup_fsync (fd parent : Inode) (leaf : String) : (d.fsync fd).lookup parent leaf = d.lookup parent leaf :=
  Cache.get_flush _ _ _

@[simp] theorem get_contents_fsync (fd inode : Inode) : (d.fsync fd).contents.get inode = d.contents.get inode :=
  Cache.get_flush _ _ _

variable {d}

theorem Numbered.set_entry (h : d.Numbered) {parent : Inode} {leaf : String} {entry : Option Entry}
    (hentry : ∀ found ∈ entry, found.inode < d.next) : (d.set_entry parent leaf entry).Numbered := by
  intro parent' leaf' found hfound
  rw [lookup_set_entry] at hfound
  split at hfound
  · exact hentry found hfound
  · exact h parent' leaf' found hfound

theorem Numbered.allocate (h : d.Numbered) (kind : Kind) (parent : Inode) (leaf : String) (mode : Nat) :
    (d.allocate kind parent leaf mode).Numbered := by
  intro parent' leaf' found hfound
  have hnext : (d.allocate kind parent leaf mode).next = d.next + 1 := rfl
  rw [lookup_allocate] at hfound
  rw [hnext]
  split at hfound
  · cases hfound
    exact Nat.lt_succ_self _
  · exact Nat.lt_succ_of_lt (h parent' leaf' found hfound)

theorem Numbered.fsync (h : d.Numbered) (fd : Inode) : (d.fsync fd).Numbered := by
  intro parent leaf found hfound
  rw [lookup_fsync] at hfound
  exact h parent leaf found hfound

theorem mem_listdir {fd : Inode} {name : String} : name ∈ d.listdir fd ↔ (d.lookup fd name).isSome = true := by
  simp only [listdir, List.mem_map, List.mem_filter, decide_eq_true_eq]
  constructor
  · rintro ⟨⟨parent, leaf⟩, ⟨_, rfl, hsome⟩, rfl⟩
    exact hsome
  · intro hsome
    refine ⟨(fd, name), ⟨Cache.mem_keys_of_get_ne fun hnone => ?_, rfl, hsome⟩, rfl⟩
    rw [lookup, hnone] at hsome
    cases hsome

theorem listdir_nodup (d : Disk) (fd : Inode) : (d.listdir fd).Nodup := by
  refine List.Nodup.map_on ?_ ((List.nodup_dedup _).filter _)
  intro left hleft right hright heq
  have hleft := (List.mem_filter.mp hleft).2
  have hright := (List.mem_filter.mp hright).2
  simp only [decide_eq_true_eq] at hleft hright
  exact Prod.ext (hleft.1.trans hright.1.symm) heq

theorem listdir_eq_nil_iff {fd : Inode} : d.listdir fd = [] ↔ ∀ name, d.lookup fd name = none := by
  rw [List.eq_nil_iff_forall_not_mem]
  refine forall_congr' fun name => ?_
  rw [mem_listdir, Bool.not_eq_true, Option.isSome_eq_false_iff, Option.isNone_iff_eq_none]

namespace Holds

variable {parent : Inode} {leaf : String} {entry : Option Entry}

theorem lookup (h : d.Holds parent leaf entry) : d.lookup parent leaf = entry := h.2

theorem set_entry (h : d.Holds parent leaf entry) {parent' : Inode} {leaf' : String} (hne : (parent', leaf') ≠ (parent, leaf))
    (other : Option Entry) : (d.set_entry parent' leaf' other).Holds parent leaf entry := Cache.Holds.set h hne other

theorem allocate (h : d.Holds parent leaf entry) {parent' : Inode} {leaf' : String} (hne : (parent', leaf') ≠ (parent, leaf))
    (kind : Kind) (mode : Nat) : (d.allocate kind parent' leaf' mode).Holds parent leaf entry := Cache.Holds.set h hne _

theorem fsync (h : d.Holds parent leaf entry) (fd : Inode) : (d.fsync fd).Holds parent leaf entry := Cache.Holds.flush h _

/-- A flush of the directory settles what the name leads to. -/
theorem of_fsync (h : d.lookup parent leaf = entry) : (d.fsync parent).Holds parent leaf entry :=
  Cache.Holds.of_flush (decide_eq_true rfl) h

theorem cut {d' : Disk} (h : d.Holds parent leaf entry) (hcut : d.Cut d') : d'.Holds parent leaf entry :=
  Cache.Holds.cut h hcut.1

end Holds

namespace Named

variable {P P' : Inode → String → Entry → Prop}

theorem mono (h : d.Named P) (hP : ∀ parent leaf entry, P parent leaf entry → P' parent leaf entry) : d.Named P' :=
  Cache.Ever.mono h fun _ _ hvalue entry hentry => hP _ _ _ (hvalue entry hentry)

theorem lookup (h : d.Named P) {parent : Inode} {leaf : String} {entry : Entry} (hentry : d.lookup parent leaf = some entry) :
    P parent leaf entry := by
  rcases Cache.Ever.get h (parent, leaf) with hdefault | hvalue
  · rw [Disk.lookup, hdefault] at hentry
    cases hentry
  · exact hvalue entry hentry

theorem set_entry (h : d.Named P) {parent : Inode} {leaf : String} {value : Option Entry}
    (hnew : ∀ entry, value = some entry → P parent leaf entry) : (d.set_entry parent leaf value).Named P :=
  Cache.Ever.set h hnew

theorem allocate (h : d.Named P) {kind : Kind} {parent : Inode} {leaf : String} (hnew : P parent leaf ⟨kind, d.next⟩)
    (mode : Nat) : (d.allocate kind parent leaf mode).Named P :=
  Cache.Ever.set h fun _ hentry => Option.some.inj hentry ▸ hnew

theorem fsync (h : d.Named P) (fd : Inode) : (d.fsync fd).Named P := Cache.Ever.flush h _

theorem and (h : d.Named P) (h' : d.Named P') : d.Named fun parent leaf entry => P parent leaf entry ∧ P' parent leaf entry :=
  fun write hwrite entry hentry => ⟨h write hwrite entry hentry, h' write hwrite entry hentry⟩

theorem cut {d' : Disk} (h : d.Named P) (hcut : d.Cut d') : d'.Named P := Cache.Ever.cut h hcut.1

end Named

/-- The volume with some bytes more at the end of one object. -/
structure Grown (d : Disk) (inode : Inode) (bytes : List UInt8) (d' : Disk) : Prop where
  entries : d'.entries = d.entries
  modes : d'.modes = d.modes
  next : d'.next = d.next
  umask : d'.umask = d.umask
  contents : ∀ other, d'.contents.get other = if inode = other then d.contents.get inode ++ bytes else d.contents.get other
  progress : d.Progresses → d'.Progresses

theorem Grown.refl (d : Disk) (inode : Inode) : d.Grown inode [] d := by
  refine ⟨rfl, rfl, rfl, rfl, fun other => ?_, id⟩
  split
  · rename_i heq
    rw [List.append_nil, heq]
  · rfl

theorem Grown.trans {d' d'' : Disk} {inode : Inode} {bytes more : List UInt8} (h : d.Grown inode bytes d')
    (h' : d'.Grown inode more d'') : d.Grown inode (bytes ++ more) d'' := by
  refine ⟨h'.entries.trans h.entries, h'.modes.trans h.modes, h'.next.trans h.next, h'.umask.trans h.umask,
    fun other => ?_, fun hd => h'.progress (h.progress hd)⟩
  rw [h'.contents, h.contents, h.contents, if_pos rfl]
  split
  · rw [List.append_assoc]
  · rfl

theorem Grown.lookup {d' : Disk} {inode : Inode} {bytes : List UInt8} (h : d.Grown inode bytes d') (parent : Inode)
    (leaf : String) : d'.lookup parent leaf = d.lookup parent leaf := by
  rw [Disk.lookup, h.entries]
  rfl

end Disk

/-- A write takes a part of what it is given; all that it takes is at the end of the file. -/
theorem write_ensures (d : Disk) (inode : Inode) (data : List UInt8) : (write inode data).Ensures d
    (fun t => ∃ taken ≤ data.length, d.Grown inode (data.take taken) t)
    (fun r t => ∃ taken, r = .ok taken ∧ taken ≤ data.length ∧ d.Grown inode (data.take taken) t ∧
      (d.Progresses → data ≠ [] → 0 < taken)) := by
  have hgrown : ∀ taken, d.Grown inode (data.take taken) { d with
      contents := d.contents.set inode (d.contents.get inode ++ data.take taken)
      short_writes := d.short_writes.tail } := fun taken =>
    ⟨rfl, rfl, rfl, rfl, fun other => Cache.get_set _ _ _ _, fun hd count hcount => hd count (List.mem_of_mem_tail hcount)⟩
  refine .call_ok rfl ⟨_, ?_, hgrown _⟩ ⟨_, rfl, ?_, hgrown _, fun hd hdata => ?_⟩
  · split
    · exact Nat.le_refl _
    · exact Nat.min_le_right _ _
  · split
    · exact Nat.le_refl _
    · exact Nat.min_le_right _ _
  · have hlength := List.length_pos_iff.mpr hdata
    split
    · exact hlength
    · rename_i count rest hshort
      have hcount := hd count (by rw [hshort]; exact List.mem_cons_self)
      omega

end atoms.fs
