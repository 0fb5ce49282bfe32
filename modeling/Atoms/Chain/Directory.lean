import Atoms.Chain.Append
import Atoms.Chain.Codec
import Atoms.Chain.Linear
import Atoms.Fs.Names

open atoms.errors atoms.identifiers atoms.spec atoms.fs checked keyed crash

namespace atoms.chain

/-- What a leaf of a directory holds: the bytes of a regular file, or nothing that is read. -/
def leaf (d : Disk) (fd : Inode) (name : String) : Option (Option (List UInt8)) :=
  (d.lookup fd name).map fun entry => match entry.kind with
    | .file => some (d.contents.get entry.inode)
    | _ => none

theorem leaf_isSome {d : Disk} {fd : Inode} {name : String} :
    (leaf d fd name).isSome = true ↔ name ∈ d.listdir fd := by
  rw [leaf, Option.isSome_map, Disk.mem_listdir]

theorem read_leaf_returns (d : Disk) (fd : Inode) (name : String) :
    (read_leaf fd name).Returns d (leaf d fd name).join := by
  refine .read ?_
  unfold leaf
  cases hentry : d.lookup fd name with
  | none => rfl
  | some entry =>
    obtain ⟨kind, inode⟩ := entry
    cases kind <;> rfl

theorem not_hex_staging_leaf : is_hex_digest STAGING_LEAF = false := by decide

variable [UnicodeData] [Sha256]

/-- A row is named by the digest of its bytes, which decode to it. -/
structure Row.Sound (row : Row) : Prop where
  name : is_hex_digest row.digest = true
  digest : entry_digest row.envelope = row.digest
  decoded : decode_entry row.envelope = .ok (row.previous, row.entry)

/-- The chain directory holds the rows under their digests, the staging leaf, and nothing else. -/
structure Directory (d : Disk) (fd : Inode) (rows : List Row) (staged : Option (List UInt8)) : Prop where
  nodup : (rows.map Row.digest).Nodup
  sound : ∀ row ∈ rows, row.Sound
  stage : leaf d fd STAGING_LEAF = staged.map some
  named : ∀ row ∈ rows, leaf d fd row.digest = some (some row.envelope)
  only : ∀ name, (leaf d fd name).isSome = true → name = STAGING_LEAF ∨ name ∈ rows.map Row.digest

theorem Directory.perm {d : Disk} {fd : Inode} {rows rows' : List Row} {staged : Option (List UInt8)}
    (h : Directory d fd rows staged) (hperm : rows.Perm rows') : Directory d fd rows' staged where
  nodup := (hperm.map _).nodup_iff.mp h.nodup
  sound row hrow := h.sound row (hperm.mem_iff.mpr hrow)
  stage := h.stage
  named row hrow := h.named row (hperm.mem_iff.mpr hrow)
  only name hname := (h.only name hname).imp id fun hmem => (hperm.map Row.digest).mem_iff.mp hmem

theorem Row.Sound.ne_staging_leaf {row : Row} (h : row.Sound) : row.digest ≠ STAGING_LEAF := by
  intro heq
  have hname := h.name
  rw [heq, not_hex_staging_leaf] at hname
  cases hname

/-! The scan reads the directory, leaf by leaf. -/

section

variable {d : Disk} {fd : Inode} {rows : List Row} {staged : Option (List UInt8)}

theorem scan_leaf_row {row : Row} (hsound : row.Sound) (hleaf : leaf d fd row.digest = some (some row.envelope))
    (scan : ChainScan) : (scan_leaf fd scan row.digest).Returns d (.ok { scan with found := scan.found ++ [row] }) := by
  refine Prog.Returns.bind (read_leaf_returns d fd row.digest) ?_
  rw [hleaf]
  have hdigest : ¬ entry_digest row.envelope ≠ row.digest := not_not.mpr hsound.digest
  simp only [Option.join_some, if_neg hsound.ne_staging_leaf, if_neg hdigest, hsound.decoded]
  exact .pure

theorem scan_leaf_stage {bytes : List UInt8} (hleaf : leaf d fd STAGING_LEAF = some (some bytes)) (scan : ChainScan) :
    (scan_leaf fd scan STAGING_LEAF).Returns d (.ok { scan with staged := some bytes }) := by
  refine Prog.Returns.bind (read_leaf_returns d fd STAGING_LEAF) ?_
  rw [hleaf]
  simp only [Option.join_some, if_true]
  exact .pure

theorem scan_leaves_returns (h : Directory d fd rows staged) {names : List String}
    (hnames : ∀ name ∈ names, name = STAGING_LEAF ∧ staged.isSome = true ∨ name ∈ rows.map Row.digest)
    (scan : ChainScan) :
    (scan_leaves fd scan names).Returns d (.ok
      { found := scan.found ++ names.filterMap fun name => find_key Row.digest rows name
        staged := if STAGING_LEAF ∈ names then staged else scan.staged }) := by
  induction names generalizing scan with
  | nil =>
    rw [scan_leaves, List.filterMap_nil, List.append_nil, if_neg List.not_mem_nil]
    exact .pure
  | cons name rest ih =>
    have hrest := fun scan => ih (fun other hother => hnames other (List.mem_cons_of_mem _ hother)) scan
    by_cases hname : name = STAGING_LEAF
    · subst hname
      have hnone : find_key Row.digest rows STAGING_LEAF = none := by
        rw [find_key_eq_none_iff]
        intro row hrow
        exact (h.sound row hrow).ne_staging_leaf
      have hstaged : staged.isSome = true := by
        rcases hnames STAGING_LEAF List.mem_cons_self with ⟨_, hstaged⟩ | hmem
        · exact hstaged
        · obtain ⟨row, hrow, heq⟩ := List.mem_map.mp hmem
          exact absurd heq (h.sound row hrow).ne_staging_leaf
      obtain ⟨bytes, rfl⟩ := Option.isSome_iff_exists.mp hstaged
      rw [scan_leaves, if_neg (by simp), List.filterMap_cons, hnone, if_pos List.mem_cons_self]
      refine (scan_leaf_stage h.stage scan).bind ?_
      have hnext := hrest { scan with staged := some bytes }
      simp only [ite_self] at hnext
      exact hnext
    · have hmem : name ∈ rows.map Row.digest := by
        rcases hnames name List.mem_cons_self with ⟨heq, _⟩ | hmem
        · exact absurd heq hname
        · exact hmem
      obtain ⟨row, hrow, rfl⟩ := List.mem_map.mp hmem
      have hsound := h.sound row hrow
      have hcondition : ¬ (row.digest ≠ STAGING_LEAF ∧ ¬ is_hex_digest row.digest = true) := fun hboth =>
        hboth.2 hsound.name
      have hmem_iff : (STAGING_LEAF ∈ row.digest :: rest) ↔ STAGING_LEAF ∈ rest := by
        rw [List.mem_cons, or_iff_right (Ne.symm hname)]
      rw [scan_leaves, if_neg hcondition, List.filterMap_cons, find_key_of_mem h.nodup hrow]
      refine (scan_leaf_row hsound (h.named row hrow) scan).bind ?_
      have hnext := hrest { scan with found := scan.found ++ [row] }
      simp only [hmem_iff]
      rw [List.append_assoc, List.singleton_append] at hnext
      exact hnext

omit [UnicodeData] [Sha256] in
theorem filterMap_find_perm {names : List String} (hrows : (rows.map Row.digest).Nodup) (hnames : names.Nodup)
    (hall : ∀ row ∈ rows, row.digest ∈ names) :
    (names.filterMap fun name => find_key Row.digest rows name).Perm rows := by
  refine (List.perm_ext_iff_of_nodup ?_ hrows.of_map).mpr fun row => ?_
  · refine hnames.filterMap fun left right row hleft hright => ?_
    rw [← (find_key_some (Option.mem_def.mp hleft)).2, ← (find_key_some (Option.mem_def.mp hright)).2]
  · rw [List.mem_filterMap]
    constructor
    · rintro ⟨_, _, hfind⟩
      exact (find_key_some hfind).1
    · intro hrow
      exact ⟨row.digest, hall row hrow, find_key_of_mem hrows hrow⟩

/-- The scan of a chain directory. -/
theorem scan_returns (h : Directory d fd rows staged) :
    ∃ found, found.Perm rows ∧ (scan_chain_directory fd).Returns d (.ok { found, staged }) := by
  have hperm := sorted_by_perm id (d.listdir fd)
  have hnames : ∀ name ∈ sorted_by id (d.listdir fd),
      name = STAGING_LEAF ∧ staged.isSome = true ∨ name ∈ rows.map Row.digest := by
    intro name hname
    have hleaf := leaf_isSome.mpr (hperm.mem_iff.mp hname)
    by_cases heq : name = STAGING_LEAF
    · rw [heq, h.stage, Option.isSome_map] at hleaf
      exact .inl ⟨heq, hleaf⟩
    · exact .inr ((h.only name hleaf).resolve_left heq)
  have hscan := scan_leaves_returns h hnames { found := [], staged := none }
  have hstage : (if STAGING_LEAF ∈ sorted_by id (d.listdir fd) then staged else none) = staged := by
    by_cases hmem : STAGING_LEAF ∈ sorted_by id (d.listdir fd)
    · rw [if_pos hmem]
    · rw [if_neg hmem]
      have hnone : ¬ (leaf d fd STAGING_LEAF).isSome = true := fun hsome =>
        hmem (hperm.mem_iff.mpr (leaf_isSome.mp hsome))
      rw [h.stage, Option.isSome_map, Bool.not_eq_true, Option.isSome_eq_false_iff, Option.isNone_iff_eq_none] at hnone
      exact hnone.symm
  simp only [hstage, List.nil_append] at hscan
  have hall : ∀ row ∈ rows, row.digest ∈ sorted_by id (d.listdir fd) := by
    intro row hrow
    refine hperm.mem_iff.mpr (leaf_isSome.mp ?_)
    rw [h.named row hrow]
    rfl
  have hnodup := hperm.nodup_iff.mpr (d.listdir_nodup fd)
  exact ⟨_, filterMap_find_perm h.nodup hnodup hall, Prog.Returns.bind (.read rfl) hscan⟩

/-- A scan that finds no defect has read every leaf in turn. -/
theorem scan_leaves_completes {names : List String} {scan scan' : ChainScan} {d' : Disk} (hnames : names.Nodup)
    (h : (scan_leaves fd scan names).Completes d (.ok scan') d') :
    d' = d ∧ ∃ rows : List Row, scan'.found = scan.found ++ rows ∧
      rows.map Row.digest = names.filter (· ≠ STAGING_LEAF) ∧
      (∀ row ∈ rows, row.Sound ∧ leaf d fd row.digest = some (some row.envelope)) ∧
      (STAGING_LEAF ∈ names → ∃ bytes, scan'.staged = some bytes ∧ leaf d fd STAGING_LEAF = some (some bytes)) ∧
      (STAGING_LEAF ∉ names → scan'.staged = scan.staged) := by
  induction names generalizing scan with
  | nil =>
    obtain ⟨hscan, rfl⟩ := Prog.completes_pure_iff.mp h
    cases hscan
    exact ⟨rfl, [], by simp⟩
  | cons name rest ih =>
    rw [List.nodup_cons] at hnames
    rw [scan_leaves] at h
    by_cases hforeign : name ≠ STAGING_LEAF ∧ ¬ is_hex_digest name = true
    · rw [if_pos hforeign] at h
      cases (Prog.completes_pure_iff.mp h).1
    · rw [if_neg hforeign] at h
      obtain ⟨next, middle, hleaf, h⟩ := Prog.completes_bind_iff.mp h
      obtain ⟨bytes, _, hread, hleaf⟩ := Prog.completes_bind_iff.mp hleaf
      obtain ⟨rfl, rfl⟩ := (read_leaf_returns d fd name).completes hread
      cases hbytes : (leaf d fd name).join with
      | none =>
        rw [hbytes] at hleaf
        obtain ⟨rfl, rfl⟩ := Prog.completes_pure_iff.mp hleaf
        cases (Prog.completes_pure_iff.mp h).1
      | some envelope =>
        have hholds : leaf d fd name = some (some envelope) := Option.join_eq_some_iff.mp hbytes
        rw [hbytes] at hleaf
        simp only at hleaf
        by_cases hname : name = STAGING_LEAF
        · subst hname
          rw [if_pos rfl] at hleaf
          obtain ⟨rfl, rfl⟩ := Prog.completes_pure_iff.mp hleaf
          obtain ⟨rfl, rows, hfound, hdigests, hrows, _, hstaged⟩ := ih hnames.2 h
          refine ⟨rfl, rows, hfound, ?_, hrows, fun _ => ⟨envelope, hstaged hnames.1, hholds⟩, ?_⟩
          · rw [hdigests, List.filter_cons_of_neg (by simp)]
          · exact fun hnot => absurd List.mem_cons_self hnot
        · rw [if_neg hname] at hleaf
          by_cases hdigest : entry_digest envelope ≠ name
          · rw [if_pos hdigest] at hleaf
            obtain ⟨rfl, rfl⟩ := Prog.completes_pure_iff.mp hleaf
            cases (Prog.completes_pure_iff.mp h).1
          · rw [if_neg hdigest] at hleaf
            cases hdecode : decode_entry envelope with
            | error e =>
              rw [hdecode] at hleaf
              obtain ⟨rfl, rfl⟩ := Prog.completes_pure_iff.mp hleaf
              cases (Prog.completes_pure_iff.mp h).1
            | ok decoded =>
              obtain ⟨previous, entry⟩ := decoded
              rw [hdecode] at hleaf
              obtain ⟨rfl, rfl⟩ := Prog.completes_pure_iff.mp hleaf
              obtain ⟨rfl, rows, hfound, hdigests, hrows, hin, hout⟩ := ih hnames.2 h
              have hne : STAGING_LEAF ≠ name := Ne.symm hname
              refine ⟨rfl, ⟨name, previous, entry, envelope⟩ :: rows, ?_, ?_, ?_, ?_, ?_⟩
              · rw [hfound, List.append_assoc]
                rfl
              · rw [List.map_cons, hdigests, List.filter_cons_of_pos (by simpa using hname)]
              · intro row hrow
                rcases List.mem_cons.mp hrow with rfl | hrow
                · have hhex : is_hex_digest name = true := by
                    by_contra hnot
                    exact hforeign ⟨hname, hnot⟩
                  exact ⟨⟨hhex, not_not.mp hdigest, hdecode⟩, hholds⟩
                · exact hrows row hrow
              · exact fun hmem => hin ((List.mem_cons.mp hmem).resolve_left hne)
              · exact fun hnot => hout fun hmem => hnot (List.mem_cons_of_mem _ hmem)

/-- What a scan without a defect says of the directory. -/
theorem directory_of_scan {scan : ChainScan} {d' : Disk}
    (h : (scan_chain_directory fd).Completes d (.ok scan) d') : d' = d ∧ Directory d fd scan.found scan.staged := by
  obtain ⟨names, _, hlist, h⟩ := Prog.completes_bind_iff.mp h
  obtain ⟨hnames, rfl⟩ := Prog.completes_read_iff.mp hlist
  obtain rfl : d.listdir fd = names := Except.ok.inj hnames
  have hperm := sorted_by_perm id (d.listdir fd)
  have hnodup := hperm.nodup_iff.mpr (d.listdir_nodup fd)
  obtain ⟨hsame, rows, hfound, hdigests, hrows, hin, hout⟩ := scan_leaves_completes hnodup h
  rw [List.nil_append] at hfound
  rw [hfound]
  have hmem : ∀ name, name ∈ rows.map Row.digest ↔ name ∈ d.listdir fd ∧ name ≠ STAGING_LEAF := by
    intro name
    rw [hdigests, List.mem_filter, hperm.mem_iff, decide_eq_true_eq]
  refine ⟨hsame, ⟨hdigests ▸ hnodup.filter _, fun row hrow => (hrows row hrow).1, ?_, fun row hrow => (hrows row hrow).2,
    fun name hname => ?_⟩⟩
  · by_cases hstage : STAGING_LEAF ∈ d.listdir fd
    · obtain ⟨bytes, hstaged, hleaf⟩ := hin (hperm.mem_iff.mpr hstage)
      rw [hleaf, hstaged]
      rfl
    · have hnone : leaf d fd STAGING_LEAF = none := by
        rw [← Option.not_isSome_iff_eq_none, leaf_isSome]
        exact hstage
      rw [hnone, hout fun hmem => hstage (hperm.mem_iff.mp hmem)]
      rfl
  · by_cases hstage : name = STAGING_LEAF
    · exact .inl hstage
    · exact .inr ((hmem name).mpr ⟨leaf_isSome.mp hname, hstage⟩)

end

end atoms.chain
