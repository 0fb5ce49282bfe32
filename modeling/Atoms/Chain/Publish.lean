import Atoms.Chain.Validate
import Atoms.Fs.Names

open atoms.errors atoms.identifiers atoms.fs checked keyed crash

namespace atoms.chain

/-- What is written is the start of what was given, and all of it unless a write takes nothing. -/
theorem write_all_ensures {inode : Inode} {fuel : Nat} {data : List UInt8} (hfuel : data.length ≤ fuel) (d : Disk) :
    (write_all inode fuel data).Ensures d (fun t => ∃ bytes, bytes <+: data ∧ d.Grown inode bytes t)
      (Prog.ends (fun _ t => d.Grown inode data t)
        fun t => (∃ bytes, bytes <+: data ∧ d.Grown inode bytes t) ∧ ¬ d.Progresses) := by
  induction fuel generalizing d data with
  | zero =>
    obtain rfl := List.length_eq_zero_iff.mp (Nat.le_zero.mp hfuel)
    exact .pure (.refl d inode)
  | succ fuel ih =>
    cases hdata : data with
    | nil => exact .pure (.refl d inode)
    | cons byte rest =>
      have hne : data ≠ [] := by
        rw [hdata]
        exact List.cons_ne_nil _ _
      rw [write_all, ← hdata]
      · refine .bind ((write_ensures d inode data).mono ?_ fun _ _ ht => ht) ?_ ?_
        · rintro t ⟨taken, _, hgrown⟩
          exact ⟨_, List.take_prefix taken data, hgrown⟩
        · rintro taken t ⟨_, ⟨rfl⟩, hle, hgrown, hprogress⟩
          have hmore : ∀ t' bytes, bytes <+: data.drop taken → t.Grown inode bytes t' →
              ∃ bytes, bytes <+: data ∧ d.Grown inode bytes t' := by
            rintro t' bytes ⟨rest, heq⟩ hgrown'
            refine ⟨data.take taken ++ bytes, ⟨rest, ?_⟩, hgrown.trans hgrown'⟩
            rw [List.append_assoc, heq, List.take_append_drop]
          refine .guard_bind (fun hforward => ?_) fun hstuck =>
            ⟨⟨_, List.take_prefix taken data, hgrown⟩, fun hd => hstuck ⟨hprogress hd hne, hle⟩⟩
          refine (ih ?_ t).mono ?_ ?_
          · rw [List.length_drop]
            omega
          · rintro t' ⟨bytes, hbytes, hgrown'⟩
            exact hmore t' bytes hbytes hgrown'
          · rintro (e | u) t' ht'
            · obtain ⟨⟨bytes, hbytes, hgrown'⟩, hstuck⟩ := ht'
              exact ⟨hmore t' bytes hbytes hgrown', fun hd => hstuck (hgrown.progress hd)⟩
            · have hall := hgrown.trans ht'
              rwa [List.take_append_drop] at hall
        · rintro e t ⟨_, heq, _⟩
          cases heq
      · exact List.cons_ne_nil _ _

/-- The staging leaf is the one name of the object `inode`. -/
structure Staging (d : Disk) (fd inode : Inode) : Prop where
  lookup : d.lookup fd STAGING_LEAF = some ⟨.file, inode⟩
  alone : ∀ parent name entry, d.lookup parent name = some entry → entry.inode = inode →
    (parent, name) = (fd, STAGING_LEAF)

theorem leaf_congr {d d' : Disk} {fd : Inode} {name : String} (hlookup : d'.lookup fd name = d.lookup fd name)
    (hcontents : ∀ entry, d.lookup fd name = some entry → d'.contents.get entry.inode = d.contents.get entry.inode) :
    leaf d' fd name = leaf d fd name := by
  unfold leaf
  rw [hlookup]
  cases hentry : d.lookup fd name with
  | none => rfl
  | some entry => rw [Option.map_some, Option.map_some, hcontents entry hentry]

section

variable [UnicodeData] [Sha256]

/-- Every digest is written in 64 lowercase hexadecimal characters. -/
def Hexadecimal : Prop := ∀ data, is_hex_digest (Sha256.hexdigest data) = true

variable {d : Disk} {fd : Inode} {rows : List Row} {staged : Option (List UInt8)}

namespace Directory

theorem congr {d' : Disk} (h : Directory d fd rows staged) (hleaf : ∀ name, leaf d' fd name = leaf d fd name) :
    Directory d' fd rows staged where
  nodup := h.nodup
  sound := h.sound
  stage := (hleaf _).trans h.stage
  named row hrow := (hleaf _).trans (h.named row hrow)
  only name hname := h.only name (by rwa [← hleaf name])

/-- A change to the staging leaf alone. -/
theorem restage {d' : Disk} {staged' : Option (List UInt8)} (h : Directory d fd rows staged)
    (hleaf : ∀ name, name ≠ STAGING_LEAF → leaf d' fd name = leaf d fd name)
    (hstage : leaf d' fd STAGING_LEAF = staged'.map some) : Directory d' fd rows staged' where
  nodup := h.nodup
  sound := h.sound
  stage := hstage
  named row hrow := (hleaf _ (h.sound row hrow).ne_staging_leaf).trans (h.named row hrow)
  only name hname := by
    by_cases heq : name = STAGING_LEAF
    · exact .inl heq
    · exact h.only name (by rwa [← hleaf name heq])

theorem staging_absent (h : Directory d fd rows none) : d.lookup fd STAGING_LEAF = none := by
  have hstage := h.stage
  rwa [leaf, Option.map_none, Option.map_eq_none_iff] at hstage

theorem staging_entry {bytes : List UInt8} (h : Directory d fd rows (some bytes)) :
    ∃ inode, d.lookup fd STAGING_LEAF = some ⟨.file, inode⟩ ∧ d.contents.get inode = bytes := by
  have hstage := h.stage
  rw [leaf, Option.map_some, Option.map_eq_some_iff] at hstage
  obtain ⟨⟨kind, inode⟩, hlookup, hbytes⟩ := hstage
  cases kind with
  | file => exact ⟨inode, hlookup, Option.some.inj hbytes⟩
  | symlink target => cases hbytes
  | directory => cases hbytes

theorem lookup_digest {row : Row} (h : Directory d fd rows staged) (hrow : row ∈ rows) :
    ∃ inode, d.lookup fd row.digest = some ⟨.file, inode⟩ ∧ d.contents.get inode = row.envelope := by
  have hnamed := h.named row hrow
  rw [leaf, Option.map_eq_some_iff] at hnamed
  obtain ⟨⟨kind, inode⟩, hlookup, hbytes⟩ := hnamed
  cases kind with
  | file => exact ⟨inode, hlookup, Option.some.inj hbytes⟩
  | symlink target => cases hbytes
  | directory => cases hbytes

theorem lookup_other {name : String} (h : Directory d fd rows staged) (hstage : name ≠ STAGING_LEAF)
    (hname : name ∉ rows.map Row.digest) : d.lookup fd name = none := by
  have hnone : ¬ (leaf d fd name).isSome = true := fun hsome => (h.only name hsome).elim hstage hname
  rwa [leaf, Option.isSome_map, Bool.not_eq_true, Option.isSome_eq_false_iff, Option.isNone_iff_eq_none] at hnone

/-- The staging leaf takes the name of its digest. -/
theorem publish {row : Row} (h : Directory d fd rows (some row.envelope)) (hsound : row.Sound)
    (hnew : row.digest ∉ rows.map Row.digest) {entry : fs.Entry}
    (hentry : d.lookup fd STAGING_LEAF = some entry) :
    Directory ((d.set_entry fd STAGING_LEAF none).set_entry fd row.digest (some entry)) fd (rows ++ [row]) none := by
  have hne := hsound.ne_staging_leaf
  have hleaf : ∀ name, leaf ((d.set_entry fd STAGING_LEAF none).set_entry fd row.digest (some entry)) fd name =
      if name = row.digest then leaf d fd STAGING_LEAF else if name = STAGING_LEAF then none else leaf d fd name := by
    intro name
    unfold leaf
    rw [Disk.lookup_set_entry, Disk.lookup_set_entry, hentry]
    simp only [Prod.mk.injEq, true_and, eq_comm (b := name)]
    by_cases hdigest : name = row.digest
    · rw [if_pos hdigest, if_pos hdigest]
      rfl
    · rw [if_neg hdigest, if_neg hdigest]
      by_cases hstage : name = STAGING_LEAF
      · rw [if_pos hstage, if_pos hstage]
        rfl
      · rw [if_neg hstage, if_neg hstage]
        rfl
  refine ⟨?_, ?_, ?_, ?_, ?_⟩
  · rw [List.map_append, List.map_singleton, ← List.concat_eq_append]
    exact h.nodup.concat hnew
  · intro other hother
    rcases List.mem_append.mp hother with hother | hother
    · exact h.sound other hother
    · rw [List.mem_singleton.mp hother]
      exact hsound
  · rw [hleaf, if_neg (Ne.symm hne), if_pos rfl]
    rfl
  · intro other hother
    rw [hleaf]
    rcases List.mem_append.mp hother with hother | hother
    · have hdigest : other.digest ≠ row.digest := fun heq => hnew (heq ▸ List.mem_map_of_mem hother)
      rw [if_neg hdigest, if_neg (h.sound other hother).ne_staging_leaf, h.named other hother]
    · rw [List.mem_singleton.mp hother, if_pos rfl, h.stage]
      rfl
  · intro name hname
    rw [hleaf] at hname
    rw [List.map_append, List.map_singleton, List.mem_append, List.mem_singleton]
    by_cases hdigest : name = row.digest
    · exact .inr (.inr hdigest)
    · rw [if_neg hdigest] at hname
      by_cases hstage : name = STAGING_LEAF
      · exact .inl hstage
      · rw [if_neg hstage] at hname
        exact (h.only name hname).imp id .inl

theorem unlink (h : Directory d fd rows staged) : Directory (d.set_entry fd STAGING_LEAF none) fd rows none := by
  refine h.restage (fun name hname => ?_) ?_
  · refine leaf_congr (Disk.lookup_set_entry_of_ne d (fun heq => hname ?_) none) fun _ _ => rfl
    exact (Prod.mk.inj heq).2.symm
  · rw [leaf, Disk.lookup_set_entry_self]
    rfl

theorem fsync (h : Directory d fd rows staged) (inode : Inode) : Directory (d.fsync inode) fd rows staged :=
  h.congr fun _ => leaf_congr (Disk.lookup_fsync d _ _ _) fun _ _ => Disk.get_contents_fsync d _ _

/-- A new staging leaf. -/
theorem create (h : Directory d fd rows none) (hnumbered : d.Numbered) (mode : Nat) :
    Directory (d.allocate .file fd STAGING_LEAF mode) fd rows (some []) ∧
      Staging (d.allocate .file fd STAGING_LEAF mode) fd d.next := by
  refine ⟨h.restage (fun name hname => ?_) ?_, ?_, ?_⟩
  · refine leaf_congr ?_ fun entry hentry => ?_
    · rw [Disk.lookup_allocate, if_neg fun heq => hname (Prod.mk.inj heq).2.symm]
    · have hlt : entry.inode < d.next := hnumbered fd name entry hentry
      rw [Disk.get_contents_allocate, if_neg (Nat.ne_of_gt hlt)]
  · rw [leaf, Disk.lookup_allocate, if_pos rfl, Option.map_some, Disk.get_contents_allocate, if_pos rfl]
    rfl
  · rw [Disk.lookup_allocate, if_pos rfl]
  · intro parent name entry hentry hinode
    rw [Disk.lookup_allocate] at hentry
    split at hentry
    · rename_i heq
      exact heq.symm
    · have hlt : entry.inode < d.next := hnumbered parent name entry hentry
      exact absurd hlt (hinode ▸ Nat.lt_irrefl _)

/-- A write to the staged object. -/
theorem write {inode : Inode} (h : Directory d fd rows staged) (hstaging : Staging d fd inode) {bytes : List UInt8}
    {d' : Disk} (hentries : d'.entries = d.entries)
    (hcontents : ∀ other, d'.contents.get other = if inode = other then bytes else d.contents.get other) :
    Directory d' fd rows (some bytes) ∧ Staging d' fd inode := by
  have hlookup : ∀ parent name, d'.lookup parent name = d.lookup parent name := by
    intro parent name
    rw [Disk.lookup, hentries]
    rfl
  refine ⟨h.restage (fun name hname => leaf_congr (hlookup fd name) fun entry hentry => ?_) ?_, ?_, ?_⟩
  · have hne : inode ≠ entry.inode := by
      rintro rfl
      exact hname (Prod.mk.inj (hstaging.alone fd name entry hentry rfl)).2
    rw [hcontents, if_neg hne]
  · rw [leaf, hlookup, hstaging.lookup, Option.map_some, hcontents, if_pos rfl]
    rfl
  · rw [hlookup]
    exact hstaging.lookup
  · intro parent name entry hentry
    rw [hlookup] at hentry
    exact hstaging.alone parent name entry hentry

end Directory

/-- The row that an entry makes at the end of a chain. -/
def next_row (rows : List Row) (entry : Entry) (envelope : List UInt8) : Row :=
  ⟨entry_digest envelope, last_digest none rows, entry, envelope⟩

/-- The staging leaf holds the start of an envelope, which `rest` completes. -/
structure Staged (fd inode : Inode) (rows : List Row) (envelope rest : List UInt8) (d : Disk) : Prop where
  numbered : d.Numbered
  staging : Staging d fd inode
  directory : ∃ written, written ++ rest = envelope ∧ Directory d fd rows (some written)

variable {inode : Inode} {envelope data : List UInt8}

theorem Staged.grown {rest : List UInt8} {d' : Disk} (h : Staged fd inode rows envelope (data ++ rest) d)
    (hgrown : d.Grown inode data d') : Staged fd inode rows envelope rest d' := by
  obtain ⟨written, hwritten, hdirectory⟩ := h.directory
  have hbytes : d.contents.get inode = written := by
    have hstage := hdirectory.stage
    rw [leaf, h.staging.lookup] at hstage
    exact Option.some.inj (Option.some.inj hstage)
  have hnext : Directory d' fd rows (some (written ++ data)) ∧ Staging d' fd inode := by
    refine hdirectory.write h.staging hgrown.entries fun other => ?_
    rw [hgrown.contents, hbytes]
  refine ⟨fun parent name entry hentry => ?_, hnext.2, written ++ data, ?_, hnext.1⟩
  · rw [hgrown.lookup] at hentry
    rw [hgrown.next]
    exact h.numbered parent name entry hentry
  · rw [List.append_assoc, hwritten]

theorem Staged.write_all (h : Staged fd inode rows envelope data d) :
    (chain.write_all inode data.length data).Ensures d (fun t => ∃ rest, Staged fd inode rows envelope rest t)
      (Prog.ends (fun _ t => Staged fd inode rows envelope [] t)
        fun t => (∃ rest, Staged fd inode rows envelope rest t) ∧ ¬ d.Progresses) := by
  have hpart : ∀ t, (∃ bytes, bytes <+: data ∧ d.Grown inode bytes t) → ∃ rest, Staged fd inode rows envelope rest t := by
    rintro t ⟨bytes, ⟨rest, rfl⟩, hgrown⟩
    exact ⟨rest, h.grown hgrown⟩
  refine (write_all_ensures (Nat.le_refl _) d).mono hpart ?_
  rintro (e | u) t ht
  · exact ⟨hpart t ht.1, ht.2⟩
  · exact Staged.grown (by rwa [List.append_nil]) ht

end

end atoms.chain
