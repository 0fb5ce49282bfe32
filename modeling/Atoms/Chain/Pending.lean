import Atoms.Chain.Classes

open keyed checked

namespace atoms.chain

/-- The transactions that an entry of the chain settles. -/
def settled_txids (entries : List (String × Entry)) : List String :=
  entries.filterMap fun
    | (_, .SettledEntry entry) => some entry.txid
    | _ => none

/-- What an entry adds to what is pending. -/
def pending_item (settled : List String) : String × Entry → Option (String × String)
  | (digest, .RegisteredEntry entry) => if entry.txid ∈ settled then none else some (entry.txid, digest)
  | _ => none

/-- The registration that is the last entry, if it is one. -/
def last_unsettled (entries : List (String × Entry)) : List (String × String) :=
  match entries.getLast? with
  | some (digest, .RegisteredEntry entry) => [(entry.txid, digest)]
  | _ => []

section

variable {entries : List (String × Entry)} {digest : String} {seen : ClassState}

theorem pending_of_eq (entries : List (String × Entry)) :
    pending_of entries = entries.filterMap (pending_item (settled_txids entries)) := by
  refine congrArg (fun f => entries.filterMap f) (funext fun item => ?_)
  obtain ⟨digest, entry⟩ := item
  cases entry <;> rfl

theorem settled_txids_append (left right : List (String × Entry)) :
    settled_txids (left ++ right) = settled_txids left ++ settled_txids right := List.filterMap_append

theorem mem_settled_txids {txid : String} : txid ∈ settled_txids entries ↔
    ∃ digest entry, (digest, Entry.SettledEntry entry) ∈ entries ∧ entry.txid = txid := by
  rw [settled_txids, List.mem_filterMap]
  constructor
  · rintro ⟨⟨digest, entry⟩, hmem, heq⟩
    cases entry <;> cases heq
    exact ⟨digest, _, hmem, rfl⟩
  · rintro ⟨digest, entry, hmem, rfl⟩
    exact ⟨_, hmem, rfl⟩

theorem mem_pending_of {txid : String} : (txid, digest) ∈ pending_of entries ↔
    (∃ entry, (digest, Entry.RegisteredEntry entry) ∈ entries ∧ entry.txid = txid) ∧ txid ∉ settled_txids entries := by
  rw [pending_of_eq, List.mem_filterMap]
  constructor
  · rintro ⟨⟨name, entry⟩, hmem, heq⟩
    cases entry with
    | RegisteredEntry entry =>
      by_cases hsettled : entry.txid ∈ settled_txids entries
      · rw [pending_item, if_pos hsettled] at heq
        cases heq
      · rw [pending_item, if_neg hsettled] at heq
        cases heq
        exact ⟨⟨entry, hmem, rfl⟩, hsettled⟩
    | GenesisEntry _ => cases heq
    | SettledEntry _ => cases heq
    | IntentEntry _ => cases heq
  · rintro ⟨⟨entry, hmem, rfl⟩, hnot⟩
    exact ⟨_, hmem, if_neg hnot⟩

theorem mem_last_unsettled {txid : String} (h : (txid, digest) ∈ last_unsettled entries) :
    last_unsettled entries = [(txid, digest)] ∧
      ∃ entry, entries.getLast? = some (digest, .RegisteredEntry entry) ∧ entry.txid = txid := by
  rw [last_unsettled] at h ⊢
  split at h
  · rename_i name entry hlast
    obtain ⟨rfl, rfl⟩ := Prod.mk.inj (List.mem_singleton.mp h)
    exact ⟨rfl, entry, hlast, rfl⟩
  · cases h

theorem last_unsettled_concat (item : String × Entry) : last_unsettled (entries ++ [item]) = last_unsettled [item] := by
  rw [last_unsettled, List.getLast?_concat]
  rfl

theorem pending_of_concat_intent (entry : IntentEntry) :
    pending_of (entries ++ [(digest, .IntentEntry entry)]) = pending_of entries := by
  have hsettled : settled_txids (entries ++ [(digest, .IntentEntry entry)]) = settled_txids entries := by
    rw [settled_txids_append]
    exact List.append_nil _
  rw [pending_of_eq, hsettled, List.filterMap_append, ← pending_of_eq]
  exact List.append_nil _

theorem pending_of_concat_registered {entry : RegisteredEntry} (h : entry.txid ∉ settled_txids entries) :
    pending_of (entries ++ [(digest, .RegisteredEntry entry)]) = pending_of entries ++ [(entry.txid, digest)] := by
  have hsettled : settled_txids (entries ++ [(digest, .RegisteredEntry entry)]) = settled_txids entries := by
    rw [settled_txids_append]
    exact List.append_nil _
  have hitem : pending_item (settled_txids entries) (digest, .RegisteredEntry entry) = some (entry.txid, digest) :=
    if_neg h
  rw [pending_of_eq, hsettled, List.filterMap_append, ← pending_of_eq, List.filterMap_cons_some hitem, List.filterMap_nil]

theorem pending_of_concat_settled {entry : SettledEntry} {registration : String}
    (h : pending_of entries = [(entry.txid, registration)]) :
    pending_of (entries ++ [(digest, .SettledEntry entry)]) = [] := by
  rw [List.eq_nil_iff_forall_not_mem]
  rintro ⟨txid, name⟩ hmem
  rw [mem_pending_of] at hmem
  obtain ⟨⟨registered, hregistered, htxid⟩, hnot⟩ := hmem
  have hfront : (name, Entry.RegisteredEntry registered) ∈ entries := by
    simpa using hregistered
  have hpending : (txid, name) ∈ pending_of entries := by
    refine mem_pending_of.mpr ⟨⟨registered, hfront, htxid⟩, fun hsettled => hnot ?_⟩
    obtain ⟨other, settled, hmem, heq⟩ := mem_settled_txids.mp hsettled
    exact mem_settled_txids.mpr ⟨other, settled, List.mem_append_left _ hmem, heq⟩
  rw [h, List.mem_singleton] at hpending
  refine hnot (mem_settled_txids.mpr ⟨digest, entry, List.mem_append_right _ List.mem_cons_self, ?_⟩)
  exact (Prod.mk.inj hpending).1.symm

/-- A settlement names a registration of its transaction. -/
theorem settled_bound {name : String} {settlement : SettledEntry} (hnodup : (entries.map Prod.fst).Nodup)
    (h : inspect_entry_classes entries = .ok seen) (hmem : (name, Entry.SettledEntry settlement) ∈ entries) :
    ∃ registration, (settlement.registration, Entry.RegisteredEntry registration) ∈ entries ∧
      registration.txid = settlement.txid := by
  obtain ⟨index, hindex⟩ := List.mem_iff_getElem?.mp hmem
  have hitem : ((name, Entry.SettledEntry settlement), index) ∈ entries.zipIdx := List.mem_zipIdx_iff_getElem?.mpr hindex
  obtain ⟨before, after, hstep⟩ := exists_step_of_foldlM h hitem
  simp only [inspect_entry] at hstep
  split at hstep
  · rename_i position registration hfound
    rw [index_of_eq_some_iff hnodup] at hfound
    refine ⟨registration, List.mem_of_getElem? hfound, ?_⟩
    by_contra hne
    by_cases hle : index ≤ position
    · rw [if_pos hle] at hstep
      cases hstep
    · rw [if_neg hle, if_pos hne] at hstep
      cases hstep
  · cases hstep

theorem mem_committed_fulfillments_iff {fulfills : String} (hnodup : (entries.map Prod.fst).Nodup) :
    fulfills ∈ committed_fulfillments entries ↔ ∃ name settlement registration,
      (name, Entry.SettledEntry settlement) ∈ entries ∧ settlement.outcome = .COMMITTED ∧
      (settlement.registration, Entry.RegisteredEntry registration) ∈ entries ∧ registration.fulfills = some fulfills := by
  constructor
  · rw [committed_fulfillments, List.mem_filterMap]
    rintro ⟨⟨name, entry⟩, hmem, heq⟩
    cases entry with
    | SettledEntry settlement =>
      simp only at heq
      split at heq
      · rename_i hcommitted
        split at heq
        · rename_i registration hfind
          obtain ⟨⟨digest, found⟩, hfound, hentry⟩ := Option.map_eq_some_iff.mp hfind
          obtain ⟨hmem', hdigest⟩ := find_key_some hfound
          simp only at hentry hdigest
          rw [hentry, hdigest] at hmem'
          exact ⟨name, settlement, registration, hmem, hcommitted, hmem', heq⟩
        · cases heq
      · cases heq
    | GenesisEntry _ => cases heq
    | RegisteredEntry _ => cases heq
    | IntentEntry _ => cases heq
  · rintro ⟨name, settlement, registration, hsettled, hcommitted, hregistered, hfulfills⟩
    exact mem_committed_fulfillments hnodup hsettled hcommitted hregistered hfulfills

/-- A registration fulfills nothing by itself. -/
theorem committed_fulfillments_concat_registered {entry : RegisteredEntry} {fulfills : String}
    (hnodup : ((entries ++ [(digest, Entry.RegisteredEntry entry)]).map Prod.fst).Nodup)
    (h : inspect_entry_classes entries = .ok seen)
    (hmem : fulfills ∈ committed_fulfillments (entries ++ [(digest, .RegisteredEntry entry)])) :
    fulfills ∈ committed_fulfillments entries := by
  have hfront : (entries.map Prod.fst).Nodup ∧ digest ∉ entries.map Prod.fst := by
    rw [List.map_append, List.map_singleton, ← List.concat_eq_append, List.nodup_concat] at hnodup
    exact ⟨hnodup.2, hnodup.1⟩
  obtain ⟨name, settlement, registration, hsettled, hcommitted, hregistered, hfulfills⟩ :=
    (mem_committed_fulfillments_iff hnodup).mp hmem
  have hsettled : (name, Entry.SettledEntry settlement) ∈ entries := by
    simpa using hsettled
  obtain ⟨bound, hbound, _⟩ := settled_bound hfront.1 h hsettled
  refine (mem_committed_fulfillments_iff hfront.1).mpr ⟨name, settlement, registration, hsettled, hcommitted, ?_, hfulfills⟩
  rcases List.mem_append.mp hregistered with hregistered | hlast
  · exact hregistered
  · have hdigest : settlement.registration = digest := (Prod.mk.inj (List.mem_singleton.mp hlast)).1
    exact absurd (List.mem_map_of_mem hbound) (hdigest ▸ hfront.2)

/-! What each entry needs to be admitted next. -/

theorem inspect_concat_intent {entry : IntentEntry}
    (hnodup : ((entries ++ [(digest, Entry.IntentEntry entry)]).map Prod.fst).Nodup)
    (h : inspect_entry_classes entries = .ok seen) :
    inspect_entry_classes (entries ++ [(digest, .IntentEntry entry)]) = .ok seen :=
  inspect_entry_classes_concat hnodup h

theorem inspect_concat_registered {entry : RegisteredEntry}
    (hnodup : ((entries ++ [(digest, Entry.RegisteredEntry entry)]).map Prod.fst).Nodup)
    (h : inspect_entry_classes entries = .ok seen)
    (hfresh : ∀ name other, (name, Entry.RegisteredEntry other) ∈ entries → other.txid ≠ entry.txid)
    (hfulfills : ∀ fulfills ∈ entry.fulfills, fulfills_fault entries entries.length fulfills = none) :
    ∃ next, inspect_entry_classes (entries ++ [(digest, .RegisteredEntry entry)]) = .ok next := by
  have hfront : (entries.map Prod.fst).Nodup := by
    rw [List.map_append] at hnodup
    exact (List.nodup_append.mp hnodup).1
  have hseen : entry.txid ∉ seen.registered := by
    rw [(seen_of_inspect hfront h).registered]
    rintro ⟨name, other, hmem, heq⟩
    exact hfresh name other hmem heq
  rw [inspect_entry_classes_concat hnodup h, inspect_entry, if_neg hseen]
  cases hentry : entry.fulfills with
  | none => exact ⟨_, rfl⟩
  | some fulfills =>
    rw [Option.bind_some, fulfills_fault_append (hfulfills fulfills hentry)]
    exact ⟨_, rfl⟩

theorem inspect_concat_settled {entry : SettledEntry} {registration : RegisteredEntry}
    (hnodup : ((entries ++ [(digest, Entry.SettledEntry entry)]).map Prod.fst).Nodup)
    (h : inspect_entry_classes entries = .ok seen)
    (hregistered : (entry.registration, Entry.RegisteredEntry registration) ∈ entries)
    (htxid : registration.txid = entry.txid) (hpending : entry.txid ∉ settled_txids entries)
    (hfulfills : ∀ fulfills ∈ registration.fulfills, fulfills ∉ committed_fulfillments entries) :
    ∃ next, inspect_entry_classes (entries ++ [(digest, .SettledEntry entry)]) = .ok next := by
  have hfront : (entries.map Prod.fst).Nodup := by
    rw [List.map_append] at hnodup
    exact (List.nodup_append.mp hnodup).1
  have hseen := seen_of_inspect hfront h
  obtain ⟨position, hposition⟩ := List.mem_iff_getElem?.mp hregistered
  have hindex := index_of_append hnodup ((index_of_eq_some_iff hfront).mpr hposition)
  have hbefore : ¬ entries.length ≤ position := Nat.not_le_of_lt (List.getElem?_eq_some_iff.mp hposition).1
  have hsettled : entry.txid ∉ seen.settled := by
    rw [hseen.settled]
    rintro ⟨name, other, hmem, heq⟩
    exact hpending (mem_settled_txids.mpr ⟨name, other, hmem, heq⟩)
  rw [inspect_entry_classes_concat hnodup h, inspect_entry]
  simp only [hindex, if_neg hbefore, if_neg (not_not.mpr htxid), if_neg hsettled]
  cases hoption : if entry.outcome = .COMMITTED then registration.fulfills else none with
  | none => exact ⟨_, rfl⟩
  | some fulfills =>
    have hregistration : registration.fulfills = some fulfills := by
      split at hoption
      · exact hoption
      · cases hoption
    have hfulfilled : fulfills ∉ seen.fulfilled := by
      intro hmem
      obtain ⟨name, settlement, other, hsettlement, hcommitted, hother, heq⟩ := hseen.fulfilled fulfills hmem
      exact hfulfills fulfills hregistration
        (mem_committed_fulfillments hfront hsettlement hcommitted hother heq)
    simp only [if_neg hfulfilled]
    exact ⟨_, rfl⟩

end

end atoms.chain
