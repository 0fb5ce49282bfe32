import Atoms.Chain.Append.Published

open atoms.errors atoms.identifiers atoms.fs checked keyed crash

namespace atoms.chain

variable [UnicodeData] [Sha256]

/-- One pass over the survivors: what is planned is validated, and what the validation says is applied. -/
def repair (chain_fd : Inode) (planned : List (List UInt8)) : Call ValidatedChain := do
  let validated ← validate_chain chain_fd planned
  apply_survivors chain_fd validated

variable {d : Disk} {fd : Inode} {rows : List Row} {staged : Option (List UInt8)} {entry : Entry}
  {envelope : List UInt8} {I : Disk → Prop}

omit [Sha256] in
theorem planned_entries_decoded {planned : List (List UInt8)} {items : List (List UInt8 × Option String)}
    (h : planned_entries planned = .ok items) : ∀ envelope ∈ planned, ∃ decoded, decode_entry envelope = .ok decoded := by
  induction planned generalizing items with
  | nil => exact fun envelope henvelope => absurd henvelope List.not_mem_nil
  | cons first rest ih =>
    cases hdecode : decode_entry first with
    | error e =>
      simp only [planned_entries, hdecode] at h
      cases h
    | ok decoded =>
      simp only [planned_entries, hdecode, pure_bind, bind_eq_ok_iff] at h
      obtain ⟨_, _, rest_items, hrest, _⟩ := h
      intro envelope henvelope
      rcases List.mem_cons.mp henvelope with rfl | hmem
      · exact ⟨decoded, hdecode⟩
      · exact ih hrest envelope hmem

theorem Published.unpublished (h : Published fd rows d) (envelope : List UInt8) : Unpublished fd rows envelope d :=
  ⟨h.numbered, none, h.directory, fun bytes hbytes => absurd hbytes (Option.not_mem_none bytes)⟩

theorem unlink_stage_ensures (hnumbered : d.Numbered) (h : Directory d fd rows staged) :
    (unlink_stage fd).Ensures d (Published fd rows) fun r t => r = .ok () ∧ Published fd rows t := by
  refine .bind (Q := fun r t => r = .ok () ∧ Published fd rows t) ?_ ?_ ?_
  · cases staged with
    | none =>
      refine .tryCatch (Q := fun r t => r = .error (.OSError .ENOENT) ∧ t = d) (.call ?_ ?_) ?_ ?_
      · intro u t hcall
        rw [h.staging_absent] at hcall
        cases hcall
      · intro e hcall
        rw [h.staging_absent] at hcall
        cases hcall
        exact ⟨rfl, rfl⟩
      · rintro u t ⟨heq, _⟩
        cases heq
      · rintro e t ⟨⟨rfl⟩, rfl⟩
        exact .pure ⟨rfl, hnumbered, h⟩
    | some bytes =>
      obtain ⟨inode, hlookup, _⟩ := h.staging_entry
      have hunlinked : Published fd rows (d.set_entry fd STAGING_LEAF none) :=
        ⟨hnumbered.set_entry fun found hfound => absurd hfound (Option.not_mem_none found), h.unlink⟩
      refine .tryCatch (Q := fun r t => r = .ok () ∧ Published fd rows t) (.call_ok ?_ hunlinked ⟨rfl, hunlinked⟩)
        (fun _ _ ht => ht) ?_
      · rw [hlookup]
      · rintro e t ⟨heq, _⟩
        cases heq
  · rintro _ t ⟨_, hunlinked⟩
    exact hunlinked.flush
  · rintro e t ⟨heq, _⟩
    cases heq

/-- A staging leaf with a complete envelope is published. -/
theorem finish_ensures (hnumbered : d.Numbered) (h : Directory d fd rows (some envelope))
    (hsound : (next_row rows entry envelope).Sound) (hnew : entry_digest envelope ∉ rows.map Row.digest) :
    (finish fd envelope (entry_digest envelope)).Ensures d (Published fd (rows ++ [next_row rows entry envelope]))
      fun r t => r = .ok () ∧ Published fd (rows ++ [next_row rows entry envelope]) t := by
  have hread : (read_regular fd STAGING_LEAF).Returns d envelope := by
    refine Prog.Returns.bind (read_leaf_returns d fd _) ?_
    rw [h.stage]
    exact .pure
  refine hread.ensures_bind (.guard_bind (fun _ => ?_) fun hnot => absurd rfl hnot)
  refine .bind (Q := fun r t => r = .ok true ∧ Published fd (rows ++ [next_row rows entry envelope]) t) ?_ ?_ ?_
  · refine .tryCatch (Q := fun r t => r = .ok true ∧ Published fd (rows ++ [next_row rows entry envelope]) t) ?_
      (fun _ _ ht => ht) ?_
    · refine (transfer_staging hnumbered h hsound hnew).bind ?_ ?_
      · rintro _ t ⟨_, hpublished⟩
        exact .pure ⟨rfl, hpublished⟩
      · rintro e t ⟨heq, _⟩
        cases heq
    · rintro e t ⟨heq, _⟩
      cases heq
  · rintro renamed t ⟨⟨rfl⟩, hpublished⟩
    exact hpublished.flush
  · rintro e t ⟨heq, _⟩
    cases heq

theorem finish_survivor_ensures (hnumbered : d.Numbered) (h : Directory d fd rows (some envelope)) (hvalid : Valid rows)
    (hencode : encode_entry (last_digest none rows) entry = .ok envelope)
    (hsound : (next_row rows entry envelope).Sound) (hnew : entry_digest envelope ∉ rows.map Row.digest)
    (hnext : Valid (rows ++ [next_row rows entry envelope])) (survivor : Option SurvivorAction) :
    (finish_survivor fd ⟨rows.map Row.link, last_digest none rows, survivor⟩ envelope).Ensures d
      (Published fd (rows ++ [next_row rows entry envelope]))
      fun r t => r = .ok ⟨(rows ++ [next_row rows entry envelope]).map Row.link, some (entry_digest envelope), none⟩ ∧
        Published fd (rows ++ [next_row rows entry envelope]) t := by
  unfold finish_survivor
  refine (lift_returns (decode_encode_entry hencode) d).ensures_bind (.guard_bind (fun _ => ?_) fun hnot => absurd rfl hnot)
  have hsame : same_history ⟨rows.map Row.link, last_digest none rows, some .REMOVE⟩
      ⟨rows.map Row.link, last_digest none rows, survivor⟩ = true := by
    rw [same_history, decide_eq_true_eq]
    exact ⟨rfl, rfl⟩
  refine (validate_chain_nil h hvalid).ensures_bind ?_
  rw [Option.map_some, if_pos hsame]
  refine .guard_bind (fun _ => ?_) fun hnot => absurd rfl hnot
  refine (finish_ensures hnumbered h hsound hnew).bind ?_ ?_
  · rintro _ t ⟨_, hpublished⟩
    have htip : last_digest none (rows ++ [next_row rows entry envelope]) = some (entry_digest envelope) :=
      last_digest_append none rows [next_row rows entry envelope]
    have hentries : (rows ++ [next_row rows entry envelope]).map Row.link =
        rows.map Row.link ++ [(entry_digest envelope, entry)] := List.map_append
    refine (validate_chain_nil hpublished.directory hnext).ensures_bind (.guard_bind (fun _ => ?_) fun hnot => ?_)
    · rw [htip]
      exact .pure ⟨rfl, hpublished⟩
    · exact absurd ⟨hentries, htip, rfl⟩ hnot
  · rintro e t ⟨heq, _⟩
    cases heq

/-- A chain without a survivor is only read. -/
theorem apply_none (h : Directory d fd rows none) (hvalid : Valid rows) :
    (apply_survivors fd ⟨rows.map Row.link, last_digest none rows, none⟩).Returns d
      ⟨rows.map Row.link, last_digest none rows, none⟩ := by
  unfold apply_survivors
  refine Prog.Returns.bind (lift_returns (require_validated_none h hvalid.linked) _) ?_
  refine Prog.Returns.bind (validate_chain_nil h hvalid) ?_
  rw [Option.map_none, require_chain, if_pos rfl]
  exact Prog.Returns.bind .pure .pure

/-- A staging leaf that is not to be finished is removed, whatever it holds. -/
theorem apply_removal (hnumbered : d.Numbered) (h : Directory d fd rows staged) (hvalid : Valid rows) :
    (apply_survivors fd ⟨rows.map Row.link, last_digest none rows, staged.map fun _ => .REMOVE⟩).Ensures d
      (Published fd rows) fun r t => r = .ok ⟨rows.map Row.link, last_digest none rows, none⟩ ∧ Published fd rows t ∧
        (staged = none → t = d) := by
  cases staged with
  | none => exact (apply_none h hvalid).ensures ⟨rfl, ⟨hnumbered, h⟩, fun _ => rfl⟩
  | some bytes =>
    unfold apply_survivors
    have hvalidated : require_validated ⟨rows.map Row.link, last_digest none rows, some .REMOVE⟩ = .ok () := by
      simp only [require_validated, require_history_eq hvalid.linked h.sound, ok_bind, require_true]
      rfl
    refine (lift_returns hvalidated _).ensures_bind ?_
    refine (validate_chain_nil h hvalid).ensures_bind (.guard_bind (fun _ => ?_) fun hnot => ?_)
    · refine (unlink_stage_ensures hnumbered h).bind ?_ ?_
      · rintro _ t ⟨_, hpublished⟩
        exact (validate_chain_nil hpublished.directory hvalid).ensures ⟨rfl, hpublished, fun heq => by cases heq⟩
      · rintro e t ⟨heq, _⟩
        cases heq
    · refine absurd ?_ hnot
      rw [same_history, decide_eq_true_eq]
      exact ⟨rfl, rfl⟩

/-- A pass from what an append, or another pass, may have left. -/
theorem repair_ensures (h : Unpublished fd rows envelope d) (hvalid : Valid rows)
    (hencode : encode_entry (last_digest none rows) entry = .ok envelope)
    (hsound : (next_row rows entry envelope).Sound) (hnew : entry_digest envelope ∉ rows.map Row.digest)
    (hnext : Valid (rows ++ [next_row rows entry envelope])) (planned : List (List UInt8)) :
    (repair fd planned).Ensures d
      (fun t => Unpublished fd rows envelope t ∨ Published fd (rows ++ [next_row rows entry envelope]) t)
      (Prog.ends
        (fun validated t =>
          validated = ⟨rows.map Row.link, last_digest none rows, none⟩ ∧ Published fd rows t ∨
          validated = ⟨(rows ++ [next_row rows entry envelope]).map Row.link, some (entry_digest envelope), none⟩ ∧
            Published fd (rows ++ [next_row rows entry envelope]) t)
        fun t => t = d ∧ ¬ Planned rows planned) := by
  obtain ⟨staged, hdirectory, hstart⟩ := h.directory
  refine (validate_chain_ensures hdirectory hvalid planned).bind ?_ fun _ _ ht => ht
  rintro validated t ⟨rfl, ⟨items, hitems, _⟩, rfl⟩
  have hhistory := require_history_eq hvalid.linked hdirectory.sound
  cases hstaged : staged with
  | none =>
    rw [hstaged] at hdirectory
    refine (apply_removal h.numbered hdirectory hvalid).mono (fun _ ht => .inl (ht.unpublished envelope)) ?_
    rintro r t ⟨rfl, hpublished, _⟩
    exact .inl ⟨rfl, hpublished⟩
  | some bytes =>
    rw [hstaged] at hdirectory hstart
    have hbytes := hstart bytes rfl
    rw [Option.map_some, disposition]
    by_cases hfinish : bytes ∈ planned ∧ bytes ∉ rows.map Row.envelope
    · -- what is planned is a whole envelope, and no envelope is the start of another
      rw [if_pos hfinish]
      obtain ⟨⟨previous, found⟩, hdecode⟩ := planned_entries_decoded hitems bytes hfinish.1
      obtain rfl := envelope_eq_of_isPrefix (encode_decode_entry hdecode) hencode hbytes
      have hdecoded := decode_encode_entry hencode
      have hvalidated : require_validated ⟨rows.map Row.link, last_digest none rows, some (.FINISH bytes)⟩ = .ok () := by
        simp only [require_validated, hhistory, ok_bind, require_true, hdecoded]
      unfold apply_survivors
      refine (lift_returns hvalidated _).ensures_bind ?_
      refine (finish_survivor_ensures h.numbered hdirectory hvalid hencode hsound hnew hnext _).mono
        (fun _ ht => .inr ht) ?_
      rintro r t ⟨rfl, hpublished⟩
      exact .inr ⟨rfl, hpublished⟩
    · rw [if_neg hfinish]
      refine (apply_removal h.numbered hdirectory hvalid).mono (fun _ ht => .inl (ht.unpublished envelope)) ?_
      rintro r t ⟨rfl, hpublished, _⟩
      exact .inl ⟨rfl, hpublished⟩

/-- A pass over a chain that has the entry leaves it. -/
theorem repair_published (h : Published fd rows d) (hvalid : Valid rows) (planned : List (List UInt8)) :
    (repair fd planned).Ensures d I (Prog.ends
      (fun validated t => validated = ⟨rows.map Row.link, last_digest none rows, none⟩ ∧ t = d) fun t => t = d ∧ ¬ Planned rows planned) := by
  refine (validate_chain_ensures h.directory hvalid planned).bind ?_ fun _ _ ht => ht
  rintro validated t ⟨rfl, _, rfl⟩
  exact (apply_none h.directory hvalid).ensures ⟨rfl, rfl⟩

end atoms.chain
