import Atoms.Chain.Classes
import Atoms.Chain.Directory

open atoms.errors atoms.fs checked keyed crash

namespace atoms.chain

/-- Rows in the order of a chain that passes every check. -/
structure Valid (rows : List Row) : Prop where
  linked : Linked none rows
  classes : ∃ seen, inspect_entry_classes (rows.map Row.link) = .ok seen

variable [UnicodeData] [Sha256]

/-- The planned envelopes are entries, each in the chain or next in it. -/
def Planned (rows : List Row) (planned : List (List UInt8)) : Prop :=
  ∃ items, planned_entries planned = .ok items ∧
    ∀ item ∈ items, item.1 ∈ rows.map Row.envelope ∨ item.2 = last_digest none rows

section

variable {found rows : List Row} {staged : Option (List UInt8)}

omit [UnicodeData] [Sha256] in
theorem inspect_scan_of_valid (staged : Option (List UInt8)) (hperm : rows.Perm found)
    (hnodup : (rows.map Row.digest).Nodup) (h : Valid rows) {tip : String} (htip : last_digest none rows = some tip) :
    ∃ chain, inspect_scan { found, staged } = .WellFormedChain chain ∧ chain.entries = rows.map Row.link ∧
      chain.tip = tip ∧ chain.pending = pending_of (rows.map Row.link) := by
  obtain ⟨seen, hseen⟩ := h.classes
  have hlinear := linearize_of_linked hperm hnodup h.linked htip
  rw [inspect_scan]
  cases hfound : found with
  | nil =>
    rw [hfound] at hperm
    rw [hperm.eq_nil] at htip
    cases htip
  | cons head others =>
    rw [hfound] at hlinear
    simp only [hlinear, hseen]
    exact ⟨_, rfl, rfl, rfl, rfl⟩

omit [UnicodeData] [Sha256] in
theorem validate_scan_of_valid (staged : Option (List UInt8)) (hperm : rows.Perm found) (hnodup : (rows.map Row.digest).Nodup) (h : Valid rows) :
    validate_scan { found, staged } = .ok (rows.map Row.link, last_digest none rows) := by
  cases hrows : rows with
  | nil =>
    rw [hrows] at hperm
    rw [validate_scan, inspect_scan, hperm.symm.eq_nil]
    rfl
  | cons first rest =>
    have hlast : ∃ tip, last_digest none rows = some tip := by
      rw [last_digest_eq_getLast?, Option.or_none, hrows, List.getLast?_eq_some_getLast (List.cons_ne_nil _ _)]
      exact ⟨_, rfl⟩
    obtain ⟨tip, htip⟩ := hlast
    obtain ⟨chain, hchain, hentries, hchain_tip, _⟩ := inspect_scan_of_valid staged hperm hnodup h htip
    rw [← hrows, htip, validate_scan, hchain, ← hentries, ← hchain_tip]
    rfl

omit [UnicodeData] [Sha256] in
theorem valid_of_validate_scan {entries : List (String × Entry)} {tip : Option String}
    (hnodup : (found.map Row.digest).Nodup) (h : validate_scan { found, staged } = .ok (entries, tip)) :
    ∃ rows, rows.Perm found ∧ Valid rows ∧ entries = rows.map Row.link ∧ tip = last_digest none rows := by
  rw [validate_scan, inspect_scan] at h
  cases hfound : found with
  | nil =>
    rw [hfound] at h
    cases h
    exact ⟨[], .refl _, ⟨trivial, _, rfl⟩, rfl, rfl⟩
  | cons head others =>
    rw [hfound] at h
    simp only at h
    rw [← hfound] at h ⊢
    cases hlinear : linearize found with
    | error defect =>
      rw [hlinear] at h
      cases h
    | ok linear =>
      obtain ⟨ordered, last⟩ := linear
      obtain ⟨rows, hperm, hlinked, rfl, hlast⟩ := linked_of_linearize hnodup hlinear
      rw [hlinear] at h
      simp only at h
      cases hclasses : inspect_entry_classes (rows.map Row.link) with
      | error defect =>
        rw [hclasses] at h
        cases h
      | ok seen =>
        rw [hclasses] at h
        cases h
        exact ⟨rows, hperm, ⟨hlinked, seen, hclasses⟩, rfl, hlast.symm⟩

theorem is_durable_iff (hnodup : (found.map Row.digest).Nodup) (hsound : ∀ row ∈ found, row.Sound)
    {envelope : List UInt8} : is_durable { found, staged } envelope = true ↔ envelope ∈ found.map Row.envelope := by
  rw [is_durable, beq_iff_eq, Option.map_eq_some_iff, List.mem_map]
  constructor
  · rintro ⟨row, hfind, heq⟩
    exact ⟨row, (find_key_some hfind).1, heq⟩
  · rintro ⟨row, hrow, rfl⟩
    rw [(hsound row hrow).digest]
    exact ⟨row, find_key_of_mem hnodup hrow, rfl⟩

omit [UnicodeData] [Sha256] in
theorem lift_returns {α : Type} {value : Except Raised α} {a : α} (h : value = .ok a) (d : Disk) :
    (lift value).Returns d a := .read h

omit [UnicodeData] [Sha256] in
theorem require_call_returns {condition : Prop} [Decidable condition] (h : condition) (message : String) (d : Disk) :
    (require_call condition message).Returns d () := by
  rw [require_call, if_pos h]
  exact .pure

omit [UnicodeData] [Sha256] in
theorem require_chain_returns {condition : Prop} [Decidable condition] (h : condition) (message : String) (d : Disk) :
    (require_chain condition message).Returns d () := by
  rw [require_chain, if_pos h]
  exact .pure

variable {d : Disk} {fd : Inode}

/-- The scan of a directory that holds a valid chain. -/
theorem scan_of_directory (h : Directory d fd rows staged) (hvalid : Valid rows) :
    ∃ found, (scan_chain_directory fd).Returns d (.ok { found, staged }) ∧
      validate_scan { found, staged } = .ok (rows.map Row.link, last_digest none rows) ∧
      ∀ envelope, is_durable { found, staged } envelope = true ↔ envelope ∈ rows.map Row.envelope := by
  obtain ⟨found, hperm, hscan⟩ := scan_returns h
  have hfound := h.perm hperm.symm
  refine ⟨found, hscan, validate_scan_of_valid staged hperm.symm h.nodup hvalid, fun envelope => ?_⟩
  rw [is_durable_iff hfound.nodup hfound.sound]
  exact (hperm.map _).mem_iff

/-- The validation of a directory that holds a valid chain, whatever is planned. -/
theorem validate_chain_ensures {I : Disk → Prop} (h : Directory d fd rows staged) (hvalid : Valid rows)
    (planned : List (List UInt8)) : (validate_chain fd planned).Ensures d I (Prog.ends
      (fun validated t => t = d ∧ Planned rows planned ∧
        validated = ⟨rows.map Row.link, last_digest none rows, staged.map (disposition rows planned)⟩)
      fun t => t = d ∧ ¬ Planned rows planned) := by
  obtain ⟨found, hscan, hvalidate, hdurable⟩ := scan_of_directory h hvalid
  refine .read_bind (fun items hitems => ?_) fun e herror => ⟨rfl, ?_⟩
  swap
  · rintro ⟨items, hitems, _⟩
    rw [hitems] at herror
    cases herror
  refine hscan.ensures_bind ((lift_returns hvalidate d).ensures_bind (.guard_bind (fun hlinks => ?_) fun hnot => ⟨rfl, ?_⟩))
  · refine .pure ⟨rfl, ⟨items, hitems, fun item hitem => (hlinks item hitem).imp (hdurable item.1).mp id⟩, ?_⟩
    simp only [hdurable]
    rfl
  · rintro ⟨items', hitems', hlinks⟩
    rw [hitems, Except.ok.injEq] at hitems'
    subst hitems'
    exact hnot fun item hitem => (hlinks item hitem).imp (hdurable item.1).mpr id

/-- The validation of a directory that holds a valid chain. -/
theorem validate_chain_returns (h : Directory d fd rows staged) (hvalid : Valid rows) {planned : List (List UInt8)}
    (hplanned : Planned rows planned) : (validate_chain fd planned).Returns d
      { entries := rows.map Row.link
        tip := last_digest none rows
        survivor := staged.map (disposition rows planned) } := by
  obtain ⟨items, hitems, hlinks⟩ := hplanned
  obtain ⟨found, hscan, hvalidate, hdurable⟩ := scan_of_directory h hvalid
  refine (lift_returns hitems d).bind (hscan.bind ?_)
  refine (lift_returns hvalidate d).bind ((require_call_returns ?_ _ d).bind ?_)
  · intro item hitem
    exact (hlinks item hitem).imp (hdurable item.1).mpr id
  · simp only [hdurable]
    exact .pure

omit [Sha256] in
theorem planned_nil (rows : List Row) : Planned rows [] := ⟨[], rfl, fun _ hitem => absurd hitem List.not_mem_nil⟩

/-- The validation with nothing planned: a survivor is to be removed. -/
theorem validate_chain_nil (h : Directory d fd rows staged) (hvalid : Valid rows) :
    (validate_chain fd []).Returns d
      { entries := rows.map Row.link
        tip := last_digest none rows
        survivor := staged.map fun _ => .REMOVE } := by
  have hreturns := validate_chain_returns h hvalid (planned_nil rows)
  have hremove : disposition rows [] = fun _ => .REMOVE := by
    funext staged'
    rw [disposition, if_neg fun hplanned => absurd hplanned.1 List.not_mem_nil]
  rwa [hremove] at hreturns

/-- What a validation that succeeds says of the directory. -/
theorem valid_of_validate_chain {planned : List (List UInt8)} {validated : ValidatedChain} {d' : Disk}
    (h : (validate_chain fd planned).Completes d validated d') :
    d' = d ∧ ∃ rows staged, Directory d fd rows staged ∧ Valid rows ∧ validated.entries = rows.map Row.link ∧
      validated.tip = last_digest none rows ∧ validated.survivor = staged.map (disposition rows planned) := by
  obtain ⟨items, _, hitems, h⟩ := Prog.completes_bind_iff.mp h
  obtain ⟨_, hfirst⟩ := Prog.completes_read_iff.mp hitems
  rw [← hfirst] at h
  obtain ⟨scanned, middle, hscan, h⟩ := Prog.completes_bind_iff.mp h
  cases scanned with
  | error defect => exact absurd h Prog.not_completes_throw
  | ok scan =>
    obtain ⟨hmiddle, hdirectory⟩ := directory_of_scan hscan
    rw [hmiddle] at h
    obtain ⟨found, staged⟩ := scan
    obtain ⟨⟨entries, tip⟩, _, hlift, h⟩ := Prog.completes_bind_iff.mp h
    obtain ⟨hvalidate, hsecond⟩ := Prog.completes_read_iff.mp hlift
    rw [← hsecond] at h
    obtain ⟨_, last, hrequire, h⟩ := Prog.completes_bind_iff.mp h
    have hlast : d = last := by
      rw [require_call] at hrequire
      split at hrequire
      · exact (Prog.completes_pure_iff.mp hrequire).2
      · exact absurd hrequire Prog.not_completes_throw
    rw [← hlast] at h
    obtain ⟨rfl, hend⟩ := Prog.completes_pure_iff.mp h
    obtain ⟨rows, hperm, hvalid, hentries, htip⟩ := valid_of_validate_scan hdirectory.nodup hvalidate
    refine ⟨hend.symm, rows, staged, hdirectory.perm hperm.symm, hvalid, hentries, htip, ?_⟩
    refine congrArg (fun f => staged.map f) (funext fun staged' => ?_)
    simp only [disposition, is_durable_iff hdirectory.nodup hdirectory.sound, (hperm.map Row.envelope).mem_iff]

omit [UnicodeData] [Sha256] in
theorem filterMap_find_digests (hnodup : (found.map Row.digest).Nodup) (hsub : ∀ row ∈ rows, row ∈ found) :
    (rows.map Row.digest).filterMap (fun digest => find_key Row.digest found digest) = rows := by
  rw [List.filterMap_map]
  refine (List.filterMap_congr fun row hrow => ?_).trans List.filterMap_some
  exact find_key_of_mem hnodup (hsub row hrow)

omit [UnicodeData] [Sha256] in
/-- A set of rows has one order that links them. -/
theorem linked_unique {rows' : List Row} (hperm : rows'.Perm rows) (hnodup : (rows.map Row.digest).Nodup)
    (h : Linked none rows) (h' : Linked none rows') : rows' = rows := by
  cases htip : last_digest none rows with
  | none =>
    rw [last_digest_eq_getLast?, Option.or_none, Option.map_eq_none_iff, List.getLast?_eq_none_iff] at htip
    rw [htip] at hperm ⊢
    exact hperm.eq_nil
  | some tip =>
    have hnodup' := (hperm.map Row.digest).nodup_iff.mpr hnodup
    have htip' : ∃ tip', last_digest none rows' = some tip' := by
      cases hlast : last_digest none rows' with
      | some tip' => exact ⟨tip', rfl⟩
      | none =>
        rw [last_digest_eq_getLast?, Option.or_none, Option.map_eq_none_iff, List.getLast?_eq_none_iff] at hlast
        rw [hlast] at hperm
        rw [hperm.symm.eq_nil] at htip
        cases htip
    obtain ⟨tip', htip'⟩ := htip'
    have hlinear := linearize_of_linked (.refl rows) hnodup h htip
    rw [linearize_of_linked hperm hnodup' h' htip'] at hlinear
    have hlinks : rows'.map Row.link = rows.map Row.link := (Prod.mk.inj (Except.ok.inj hlinear)).1
    have hdigests : rows'.map Row.digest = rows.map Row.digest := by
      have hfst := congrArg (List.map Prod.fst) hlinks
      rwa [List.map_map, List.map_map] at hfst
    rw [← filterMap_find_digests hnodup fun row hrow => hperm.mem_iff.mp hrow, hdigests]
    exact filterMap_find_digests hnodup fun _ hrow => hrow

/-- A directory holds one chain. -/
theorem Directory.unique {rows' : List Row} {staged' : Option (List UInt8)} (h : Directory d fd rows staged)
    (h' : Directory d fd rows' staged') (hlinked : Linked none rows) (hlinked' : Linked none rows') :
    rows' = rows ∧ staged' = staged := by
  have hsub : ∀ {left right : List Row} {stage stage' : Option (List UInt8)}, Directory d fd left stage →
      Directory d fd right stage' → ∀ row ∈ left, row ∈ right := by
    intro left right stage stage' hleft hright row hrow
    have hnamed := hleft.named row hrow
    have hmem := (hright.only row.digest (by rw [hnamed]; rfl)).resolve_left (hleft.sound row hrow).ne_staging_leaf
    obtain ⟨other, hother, hdigest⟩ := List.mem_map.mp hmem
    have henvelope := hright.named other hother
    rw [hdigest, hnamed, Option.some.injEq, Option.some.injEq] at henvelope
    have hdecoded := (hright.sound other hother).decoded
    rw [← henvelope, (hleft.sound row hrow).decoded, Except.ok.injEq, Prod.mk.injEq] at hdecoded
    have heq : other = row := by
      obtain ⟨digest, previous, entry, envelope⟩ := other
      obtain ⟨digest', previous', entry', envelope'⟩ := row
      simp only at hdigest henvelope hdecoded
      rw [hdigest, henvelope, hdecoded.1, hdecoded.2]
    rwa [← heq]
  have hperm : rows'.Perm rows := (List.perm_ext_iff_of_nodup h'.nodup.of_map h.nodup.of_map).mpr
    fun row => ⟨hsub h' h row, hsub h h' row⟩
  refine ⟨linked_unique hperm h.nodup hlinked hlinked', ?_⟩
  have hstage := h'.stage
  rw [h.stage] at hstage
  exact (Option.map_injective (Option.some_injective _) hstage).symm

theorem require_history_eq {previous : Option String} (hlinked : Linked previous rows) (hsound : ∀ row ∈ rows, row.Sound) :
    require_history previous (rows.map Row.link) = .ok (last_digest previous rows) := by
  induction rows generalizing previous with
  | nil => rfl
  | cons row rest ih =>
    have hrow := hsound row List.mem_cons_self
    have hencode := encode_decode_entry hrow.decoded
    rw [hlinked.1] at hencode
    have hrest := ih hlinked.2 fun other hother => hsound other (List.mem_cons_of_mem _ hother)
    simp only [List.map_cons, Row.link, require_history, hencode, ok_bind, require_of hrow.digest]
    exact hrest

end

end atoms.chain
