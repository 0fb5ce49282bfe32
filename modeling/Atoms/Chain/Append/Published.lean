import Atoms.Chain.Publish

open atoms.errors atoms.identifiers atoms.fs checked keyed crash

namespace atoms.chain

variable [UnicodeData] [Sha256] {d : Disk} {fd : Inode} {rows : List Row} {entry : Entry} {envelope : List UInt8}

/-- The chain is what it was, and the staging leaf holds no more than the start of an envelope. -/
structure Unpublished (fd : Inode) (rows : List Row) (envelope : List UInt8) (d : Disk) : Prop where
  numbered : d.Numbered
  directory : ∃ staged, Directory d fd rows staged ∧ ∀ bytes ∈ staged, bytes <+: envelope

/-- The chain has the rows, and nothing is staged. -/
structure Published (fd : Inode) (rows : List Row) (d : Disk) : Prop where
  numbered : d.Numbered
  directory : Directory d fd rows none

theorem Staged.unpublished {inode : Inode} {rest : List UInt8} (h : Staged fd inode rows envelope rest d) :
    Unpublished fd rows envelope d := by
  obtain ⟨written, hwritten, hdirectory⟩ := h.directory
  refine ⟨h.numbered, some written, hdirectory, ?_⟩
  rintro bytes ⟨rfl⟩
  exact ⟨rest, hwritten⟩

/-- The row that an entry makes is sound. -/
theorem sound_next_row (hhex : Hexadecimal) (hencode : encode_entry (last_digest none rows) entry = .ok envelope) :
    (next_row rows entry envelope).Sound :=
  ⟨hhex envelope, rfl, decode_encode_entry hencode⟩

theorem create_staging (h : Directory d fd rows none) (hnumbered : d.Numbered) (envelope : List UInt8) :
    (create_exclusive fd STAGING_LEAF 0o600).Ensures d (fun t => ∃ inode rest, Staged fd inode rows envelope rest t)
      (fun r t => ∃ inode, r = .ok inode ∧ Staged fd inode rows envelope envelope t ∧ t.short_writes = d.short_writes) := by
  have habsent := h.staging_absent
  obtain ⟨hdirectory, hstaging⟩ := h.create hnumbered 0o600
  have hstaged : Staged fd d.next rows envelope envelope (d.allocate .file fd STAGING_LEAF 0o600) :=
    ⟨hnumbered.allocate _ _ _ _, hstaging, [], List.nil_append _, hdirectory⟩
  refine .call_ok ?_ ⟨_, _, hstaged⟩ ⟨_, rfl, hstaged, rfl⟩
  rw [habsent]

theorem flush_staging {inode : Inode} (h : Staged fd inode rows envelope [] d) :
    (flush_file inode).Ensures d (fun t => ∃ inode rest, Staged fd inode rows envelope rest t)
      (fun r t => r = .ok () ∧ Staged fd inode rows envelope [] t) := by
  obtain ⟨written, hwritten, hdirectory⟩ := h.directory
  have hstaged : Staged fd inode rows envelope [] (d.fsync inode) := by
    refine ⟨h.numbered.fsync inode, ⟨?_, ?_⟩, written, hwritten, hdirectory.fsync inode⟩
    · rw [Disk.lookup_fsync]
      exact h.staging.lookup
    · intro parent name found hfound
      rw [Disk.lookup_fsync] at hfound
      exact h.staging.alone parent name found hfound
  exact .call_ok rfl ⟨_, _, hstaged⟩ ⟨rfl, hstaged⟩

/-- The staging leaf is given the name of its digest. -/
theorem transfer_staging (hnumbered : d.Numbered) (h : Directory d fd rows (some envelope))
    (hsound : (next_row rows entry envelope).Sound) (hnew : entry_digest envelope ∉ rows.map Row.digest) :
    (transfer_noclobber fd STAGING_LEAF fd (entry_digest envelope)).Ensures d
      (Published fd (rows ++ [next_row rows entry envelope]))
      (fun r t => r = .ok () ∧ Published fd (rows ++ [next_row rows entry envelope]) t) := by
  obtain ⟨inode, hlookup, _⟩ := h.staging_entry
  have habsent : d.lookup fd (entry_digest envelope) = none := h.lookup_other hsound.ne_staging_leaf hnew
  have hinode : ∀ found ∈ some (⟨.file, inode⟩ : fs.Entry), found.inode < d.next := by
    rintro found ⟨rfl⟩
    exact hnumbered _ _ _ hlookup
  have hremoved : (d.set_entry fd STAGING_LEAF none).Numbered :=
    hnumbered.set_entry fun found hfound => absurd hfound (Option.not_mem_none found)
  have hpublished : Published fd (rows ++ [next_row rows entry envelope])
      ((d.set_entry fd STAGING_LEAF none).set_entry fd (entry_digest envelope) (some ⟨.file, inode⟩)) :=
    ⟨hremoved.set_entry hinode, h.publish hsound hnew hlookup⟩
  refine .call_ok ?_ hpublished ⟨rfl, hpublished⟩
  rw [hlookup, habsent]

theorem Published.flush (h : Published fd rows d) :
    (flush_directory fd).Ensures d (Published fd rows) (fun r t => r = .ok () ∧ Published fd rows t) := by
  have hflush : Published fd rows (d.fsync fd) := ⟨h.numbered.fsync fd, h.directory.fsync fd⟩
  exact .call_ok rfl hflush ⟨rfl, hflush⟩

/-- An envelope that names the tip is not yet in the chain. -/
theorem envelope_not_mem {staged : Option (List UInt8)} (h : Directory d fd rows staged) (hlinked : Linked none rows)
    (hencode : encode_entry (last_digest none rows) entry = .ok envelope) : envelope ∉ rows.map Row.envelope := by
  intro hmem
  obtain ⟨row, hrow, henvelope⟩ := List.mem_map.mp hmem
  have hdecoded := (h.sound row hrow).decoded
  rw [henvelope, decode_encode_entry hencode] at hdecoded
  exact hlinked.previous_ne_last h.nodup row hrow (Prod.mk.inj (Except.ok.inj hdecoded)).1.symm

/-- The digest names another row: the append is refused, and the staging leaf stays. -/
theorem prove_eexist_ensures {I : Disk → Prop} {staged : Option (List UInt8)} (h : Directory d fd rows staged) (hlinked : Linked none rows)
    (hencode : encode_entry (last_digest none rows) entry = .ok envelope)
    (hmem : entry_digest envelope ∈ rows.map Row.digest) (expected : Option String × Entry) :
    (prove_eexist fd envelope (entry_digest envelope) expected).Ensures d I (Prog.ends (fun _ _ => False) fun t => t = d) := by
  obtain ⟨row, hrow, hdigest⟩ := List.mem_map.mp hmem
  have hne : row.envelope ≠ envelope := by
    intro heq
    exact envelope_not_mem h hlinked hencode (heq ▸ List.mem_map_of_mem hrow)
  have hread : (read_regular fd (entry_digest envelope)).Returns d row.envelope := by
    refine Prog.Returns.bind (read_leaf_returns d fd _) ?_
    rw [← hdigest, h.named row hrow]
    exact .pure
  exact hread.ensures_bind (.guard_bind (fun heq => absurd heq hne) fun _ => rfl)

/-- The rename of a complete staging leaf, whose name is taken only where two envelopes share their digest. -/
theorem rename_staging {inode : Inode} (h : Staged fd inode rows envelope [] d) (hlinked : Linked none rows)
    (hsound : (next_row rows entry envelope).Sound)
    (hencode : encode_entry (last_digest none rows) entry = .ok envelope) {handler : Raised → Call Bool}
    {expected : Option String × Entry}
    (hhandler : handler (.OSError .EEXIST) = do
      prove_eexist fd envelope (entry_digest envelope) expected
      pure false) :
    (tryCatch (do
      transfer_noclobber fd STAGING_LEAF fd (entry_digest envelope)
      pure true) handler).Ensures d
      (fun t => Unpublished fd rows envelope t ∨ Published fd (rows ++ [next_row rows entry envelope]) t)
      (Prog.ends (fun renamed t => renamed = true ∧ Published fd (rows ++ [next_row rows entry envelope]) t)
        fun t => Unpublished fd rows envelope t ∧ entry_digest envelope ∈ rows.map Row.digest) := by
  obtain ⟨written, hwritten, hdirectory⟩ := h.directory
  rw [List.append_nil] at hwritten
  rw [hwritten] at hdirectory
  by_cases hmem : entry_digest envelope ∈ rows.map Row.digest
  · obtain ⟨row, hrow, hdigest⟩ := List.mem_map.mp hmem
    obtain ⟨taken, htaken, _⟩ := hdirectory.lookup_digest hrow
    refine .tryCatch (Q := fun r t => r = .error (.OSError .EEXIST) ∧ t = d) ?_ ?_ ?_
    · refine .bind (Q := fun r t => r = .error (.OSError .EEXIST) ∧ t = d) (.call ?_ ?_) ?_ ?_
      · intro a t hcall
        rw [h.staging.lookup, ← hdigest, htaken] at hcall
        cases hcall
      · intro e hcall
        rw [h.staging.lookup, ← hdigest, htaken] at hcall
        cases hcall
        exact ⟨rfl, rfl⟩
      · rintro a t ⟨heq, _⟩
        cases heq
      · exact fun _ _ ht => ⟨congrArg Except.error (Except.error.inj ht.1), ht.2⟩
    · rintro a t ⟨heq, _⟩
      cases heq
    · rintro e t ⟨⟨rfl⟩, rfl⟩
      rw [hhandler]
      refine (prove_eexist_ensures hdirectory hlinked hencode hmem _).bind (fun _ _ hfalse => hfalse.elim) ?_
      rintro e t rfl
      exact ⟨h.unpublished, hmem⟩
  · have htransfer := transfer_staging h.numbered hdirectory hsound hmem
    refine .tryCatch (Q := fun r t => r = .ok true ∧ Published fd (rows ++ [next_row rows entry envelope]) t) ?_ ?_ ?_
    · refine (htransfer.mono (fun _ ht => .inr ht) fun _ _ ht => ht).bind ?_ ?_
      · rintro _ t ⟨_, hpublished⟩
        exact .pure ⟨rfl, hpublished⟩
      · rintro e t ⟨heq, _⟩
        cases heq
    · rintro a t ⟨⟨rfl⟩, hpublished⟩
      exact ⟨rfl, hpublished⟩
    · rintro e t ⟨heq, _⟩
      cases heq

theorem require_validated_none {staged : Option (List UInt8)} (h : Directory d fd rows staged) (hlinked : Linked none rows) :
    require_validated ⟨rows.map Row.link, last_digest none rows, none⟩ = .ok () := by
  simp only [require_validated, require_history_eq hlinked h.sound, ok_bind, require_true]
  rfl

/-- An append from a chain without a survivor. -/
theorem append_entry_ensures (h : Directory d fd rows none) (hvalid : Valid rows) (hnumbered : d.Numbered)
    (hhex : Hexadecimal) (validated : ValidatedChain)
    (hencode : encode_entry (last_digest none rows) entry = .ok envelope) :
    (append_entry fd validated entry).Ensures d
      (fun t => Unpublished fd rows envelope t ∨ Published fd (rows ++ [next_row rows entry envelope]) t)
      (Prog.ends (fun digest t => digest = entry_digest envelope ∧ Published fd (rows ++ [next_row rows entry envelope]) t)
        fun t => Unpublished fd rows envelope t ∧
          (validated = ⟨rows.map Row.link, last_digest none rows, none⟩ → d.Progresses →
            entry_digest envelope ∈ rows.map Row.digest)) := by
  have hstart : Unpublished fd rows envelope d :=
    ⟨hnumbered, none, h, fun bytes hbytes => absurd hbytes (Option.not_mem_none bytes)⟩
  have hsound := sound_next_row hhex hencode
  unfold append_entry
  refine .read_bind (fun _ _ => ?_) fun e herror => ⟨hstart, fun heq => ?_⟩
  swap
  · rw [heq, require_validated_none h hvalid.linked] at herror
    cases herror
  refine .guard_bind (fun hsurvivor => ?_) fun hnot => ⟨hstart, fun heq => absurd (heq ▸ rfl) hnot⟩
  refine .read_bind (fun found hfound => ?_) fun e herror => ⟨hstart, fun heq => ?_⟩
  swap
  · rw [heq, hencode] at herror
    cases herror
  refine (validate_chain_nil h hvalid).ensures_bind (.guard_bind (fun hsame => ?_) fun hnot => ⟨hstart, fun heq => absurd heq.symm hnot⟩)
  obtain rfl : envelope = found := by
    rw [← hsame, hencode] at hfound
    exact Except.ok.inj hfound
  have hcreate := create_staging h hnumbered envelope
  refine .bind (Q := fun r t => ∃ inode, r = .ok inode ∧ Staged fd inode rows envelope envelope t ∧
    t.short_writes = d.short_writes) ?_ ?_ ?_
  · refine .tryCatch (hcreate.mono ?_ fun _ _ ht => ht) (fun _ _ ht => ht) ?_
    · rintro t ⟨inode, rest, hstaged⟩
      exact .inl hstaged.unpublished
    · rintro e t ⟨inode, heq, _⟩
      cases heq
  swap
  · rintro e t ⟨inode, heq, _⟩
    cases heq
  rintro inode t ⟨_, ⟨rfl⟩, hstaged, hwrites⟩
  refine .bind (hstaged.write_all.mono ?_ fun _ _ ht => ht) ?_ ?_
  · rintro t ⟨rest, hstaged⟩
    exact .inl hstaged.unpublished
  swap
  · rintro e t ⟨⟨rest, hstaged⟩, hstuck⟩
    exact ⟨hstaged.unpublished, fun _ hprogress => absurd (fun count hcount => hprogress count (hwrites ▸ hcount)) hstuck⟩
  intro _ t hstaged
  refine .bind ((flush_staging hstaged).mono ?_ fun _ _ ht => ht) ?_ ?_
  · rintro t ⟨inode, rest, hstaged⟩
    exact .inl hstaged.unpublished
  swap
  · rintro e t ⟨heq, _⟩
    cases heq
  rintro _ t ⟨_, hstaged⟩
  refine .bind (rename_staging hstaged hvalid.linked hsound hencode rfl) ?_ ?_
  · rintro renamed t' ⟨rfl, hpublished⟩
    refine .bind (hpublished.flush.mono (fun _ ht => .inr ht) fun _ _ ht => ht) ?_ ?_
    · rintro _ t'' ⟨_, hpublished⟩
      exact .pure ⟨rfl, hpublished⟩
    · rintro e t'' ⟨heq, _⟩
      cases heq
  · rintro e t' ⟨hunpublished, hmem⟩
    exact ⟨hunpublished, fun _ _ => hmem⟩

/-- An append that completes started from the chain it was given, which had no survivor. -/
theorem validated_of_append_entry {staged : Option (List UInt8)} {validated : ValidatedChain} {digest : String} {d' : Disk}
    (h : Directory d fd rows staged) (hvalid : Valid rows) (happend : (append_entry fd validated entry).Completes d digest d') :
    staged = none ∧ validated = ⟨rows.map Row.link, last_digest none rows, none⟩ ∧
      ∃ envelope, encode_entry (last_digest none rows) entry = .ok envelope := by
  obtain ⟨_, _, hvalidated, happend⟩ := Prog.completes_bind_iff.mp happend
  obtain ⟨_, rfl⟩ := Prog.completes_read_iff.mp hvalidated
  obtain ⟨_, _, hrequire, happend⟩ := Prog.completes_bind_iff.mp happend
  obtain ⟨hsurvivor, rfl⟩ := Prog.completes_guard hrequire
  obtain ⟨envelope, _, hlift, happend⟩ := Prog.completes_bind_iff.mp happend
  obtain ⟨hencode, rfl⟩ := Prog.completes_read_iff.mp hlift
  obtain ⟨current, _, hcurrent, happend⟩ := Prog.completes_bind_iff.mp happend
  obtain ⟨rfl, rfl⟩ := (validate_chain_nil h hvalid).completes hcurrent
  obtain ⟨_, _, hrequire, _⟩ := Prog.completes_bind_iff.mp happend
  obtain ⟨rfl, _⟩ := Prog.completes_guard hrequire
  have hstaged : staged = none := by
    simpa using hsurvivor
  rw [hstaged]
  exact ⟨rfl, rfl, envelope, hencode⟩

end atoms.chain
