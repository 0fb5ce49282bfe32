import Atoms.Chain.Inspect

open keyed checked

namespace atoms.chain

/-- `committed_fulfillments`: the intents that a committed settlement has fulfilled. -/
def committed_fulfillments (entries : List (String × Entry)) : List String :=
  entries.filterMap fun
    | (_, .SettledEntry entry) =>
      if entry.outcome = .COMMITTED then
        match (find_key Prod.fst entries entry.registration).map Prod.snd with
        | some (.RegisteredEntry registration) => registration.fulfills
        | _ => none
      else none
    | _ => none

section

variable {entries extra : List (String × Entry)} {index : Nat} {digest : String} {entry : Entry} {seen next : ClassState}

/-- An intent that a registration may fulfill stays one in an extension of the chain. -/
theorem fulfills_fault_append {fulfills : String} (h : fulfills_fault entries index fulfills = none) :
    fulfills_fault (entries ++ extra) index fulfills = none := by
  unfold fulfills_fault at h ⊢
  rw [List.zipIdx_append, List.find?_append]
  cases hfind : entries.zipIdx.find? fun item => item.1.1 = fulfills with
  | none =>
    rw [hfind] at h
    cases h
  | some item =>
    rw [hfind] at h
    exact h

theorem map_zipIdx_fst (entries : List (String × Entry)) :
    (entries.zipIdx.map fun item : (String × Entry) × Nat => item.1.1) = entries.map Prod.fst := by
  have hmap := List.map_map (l := entries.zipIdx) (f := Prod.fst) (g := Prod.fst)
  rw [List.zipIdx_map_fst] at hmap
  exact hmap.symm

theorem index_of_eq_some_iff (hnodup : (entries.map Prod.fst).Nodup) {position : Nat} :
    index_of entries digest = some (position, entry) ↔ entries[position]? = some (digest, entry) := by
  have hkeys : (entries.zipIdx.map fun item : (String × Entry) × Nat => item.1.1).Nodup := by
    rw [map_zipIdx_fst]
    exact hnodup
  rw [index_of, Option.map_eq_some_iff]
  constructor
  · rintro ⟨⟨⟨name, found⟩, at_index⟩, hfind, heq⟩
    obtain ⟨hmem, hname⟩ := find_key_some hfind
    cases heq
    rw [← hname]
    exact List.mem_zipIdx_iff_getElem?.mp hmem
  · intro hget
    have hmem : ((digest, entry), position) ∈ entries.zipIdx := List.mem_zipIdx_iff_getElem?.mpr hget
    exact ⟨_, find_key_of_mem hkeys hmem, rfl⟩

theorem index_of_append (hnodup : ((entries ++ extra).map Prod.fst).Nodup) {position : Nat}
    (h : index_of entries digest = some (position, entry)) :
    index_of (entries ++ extra) digest = some (position, entry) := by
  have hleft : (entries.map Prod.fst).Nodup := by
    rw [List.map_append] at hnodup
    exact (List.nodup_append.mp hnodup).1
  rw [index_of_eq_some_iff hleft] at h
  rw [index_of_eq_some_iff hnodup, List.getElem?_append_left (List.getElem?_eq_some_iff.mp h).1]
  exact h

/-- An entry that is accepted in a chain is accepted in every extension of the chain. -/
theorem inspect_entry_append (hnodup : ((entries ++ extra).map Prod.fst).Nodup)
    (h : inspect_entry entries index digest entry seen = .ok next) :
    inspect_entry (entries ++ extra) index digest entry seen = .ok next := by
  cases entry with
  | GenesisEntry _ => exact h
  | IntentEntry _ => exact h
  | RegisteredEntry entry =>
    simp only [inspect_entry] at h ⊢
    by_cases hseen : entry.txid ∈ seen.registered
    · rw [if_pos hseen] at h
      cases h
    · rw [if_neg hseen] at h ⊢
      cases hfulfills : entry.fulfills with
      | none =>
        rw [hfulfills] at h
        exact h
      | some fulfills =>
        rw [hfulfills] at h
        simp only [Option.bind_some] at h ⊢
        cases hfault : fulfills_fault entries index fulfills with
        | none =>
          rw [hfault] at h
          rw [fulfills_fault_append hfault]
          exact h
        | some fault =>
          rw [hfault] at h
          cases h
  | SettledEntry entry =>
    simp only [inspect_entry] at h ⊢
    cases hindex : index_of entries entry.registration with
    | none =>
      rw [hindex] at h
      cases h
    | some found =>
      obtain ⟨position, bound⟩ := found
      rw [hindex] at h
      rw [index_of_append hnodup hindex]
      exact h

theorem foldlM_inspect_append {items : List ((String × Entry) × Nat)}
    (hnodup : ((entries ++ extra).map Prod.fst).Nodup)
    (h : items.foldlM (fun seen item => inspect_entry entries item.2 item.1.1 item.1.2 seen) seen = .ok next) :
    items.foldlM (fun seen item => inspect_entry (entries ++ extra) item.2 item.1.1 item.1.2 seen) seen = .ok next := by
  induction items generalizing seen with
  | nil => exact h
  | cons item rest ih =>
    rw [foldlM_cons_eq_ok_iff] at h ⊢
    obtain ⟨middle, hitem, hrest⟩ := h
    exact ⟨middle, inspect_entry_append hnodup hitem, ih hrest⟩

/-- The inspection of a chain with one more entry is that of the chain, and then that of the entry. -/
theorem inspect_entry_classes_concat (hnodup : ((entries ++ [(digest, entry)]).map Prod.fst).Nodup)
    (h : inspect_entry_classes entries = .ok seen) :
    inspect_entry_classes (entries ++ [(digest, entry)]) =
      inspect_entry (entries ++ [(digest, entry)]) entries.length digest entry seen := by
  have hfold := foldlM_inspect_append hnodup h
  rw [inspect_entry_classes, List.zipIdx_append, List.foldlM_append, hfold, ok_bind]
  simp only [List.zipIdx_singleton, List.foldlM_cons, List.foldlM_nil, Nat.zero_add]
  cases inspect_entry (entries ++ [(digest, entry)]) entries.length digest entry seen <;> rfl

end

/-! What pass 3 has seen of a chain. -/

/-- What was seen of the entries so far, in a chain. -/
structure Seen (chain : List (String × Entry)) (entries : List (String × Entry)) (seen : ClassState) : Prop where
  registered : ∀ txid, txid ∈ seen.registered ↔ ∃ digest entry, (digest, Entry.RegisteredEntry entry) ∈ entries ∧
    entry.txid = txid
  settled : ∀ txid, txid ∈ seen.settled ↔ ∃ digest entry, (digest, Entry.SettledEntry entry) ∈ entries ∧
    entry.txid = txid
  fulfilled : ∀ fulfills ∈ seen.fulfilled, ∃ digest entry registration,
    (digest, Entry.SettledEntry entry) ∈ entries ∧ entry.outcome = .COMMITTED ∧
    (entry.registration, Entry.RegisteredEntry registration) ∈ chain ∧ registration.fulfills = some fulfills

theorem Seen.step {chain entries : List (String × Entry)} {seen next : ClassState} {index : Nat} {digest : String}
    {entry : Entry} (h : Seen chain entries seen) (hnodup : (chain.map Prod.fst).Nodup)
    (hstep : inspect_entry chain index digest entry seen = .ok next) : Seen chain (entries ++ [(digest, entry)]) next := by
  have hfulfilled : ∀ fulfills ∈ seen.fulfilled, ∃ name settlement registration,
      (name, Entry.SettledEntry settlement) ∈ entries ++ [(digest, entry)] ∧ settlement.outcome = .COMMITTED ∧
      (settlement.registration, Entry.RegisteredEntry registration) ∈ chain ∧ registration.fulfills = some fulfills := by
    intro fulfills hmem
    obtain ⟨name, settlement, registration, hsettled, hrest⟩ := h.fulfilled fulfills hmem
    exact ⟨name, settlement, registration, List.mem_append_left _ hsettled, hrest⟩
  cases entry with
  | GenesisEntry _ =>
    cases hstep
    exact ⟨by simpa using h.registered, by simpa using h.settled, hfulfilled⟩
  | IntentEntry _ =>
    cases hstep
    exact ⟨by simpa using h.registered, by simpa using h.settled, hfulfilled⟩
  | RegisteredEntry entry =>
    simp only [inspect_entry] at hstep
    split at hstep
    · cases hstep
    · split at hstep
      · cases hstep
      · cases hstep
        refine ⟨fun txid => ?_, by simpa using h.settled, hfulfilled⟩
        simp only [List.mem_cons, h.registered, List.mem_append, List.not_mem_nil, or_false, Prod.mk.injEq,
          Entry.RegisteredEntry.injEq]
        constructor
        · rintro (rfl | ⟨name, other, hmem, heq⟩)
          · exact ⟨digest, entry, .inr ⟨rfl, rfl⟩, rfl⟩
          · exact ⟨name, other, .inl hmem, heq⟩
        · rintro ⟨name, other, hmem | ⟨_, hother⟩, heq⟩
          · exact .inr ⟨name, other, hmem, heq⟩
          · exact .inl (by rw [← heq, hother])
  | SettledEntry entry =>
    simp only [inspect_entry] at hstep
    split at hstep
    · rename_i position registration hindex
      rw [index_of_eq_some_iff hnodup] at hindex
      have hbound : (entry.registration, Entry.RegisteredEntry registration) ∈ chain := List.mem_of_getElem? hindex
      have hsettled : ∀ txid, txid ∈ entry.txid :: seen.settled ↔ ∃ name settlement,
          (name, Entry.SettledEntry settlement) ∈ entries ++ [(digest, Entry.SettledEntry entry)] ∧
          settlement.txid = txid := by
        intro txid
        simp only [List.mem_cons, h.settled, List.mem_append, List.not_mem_nil, or_false, Prod.mk.injEq,
          Entry.SettledEntry.injEq]
        constructor
        · rintro (rfl | ⟨name, other, hmem, heq⟩)
          · exact ⟨digest, entry, .inr ⟨rfl, rfl⟩, rfl⟩
          · exact ⟨name, other, .inl hmem, heq⟩
        · rintro ⟨name, other, hmem | ⟨_, hother⟩, heq⟩
          · exact .inr ⟨name, other, hmem, heq⟩
          · exact .inl (by rw [← heq, hother])
      have hregistered : ∀ txid, txid ∈ seen.registered ↔ ∃ name other,
          (name, Entry.RegisteredEntry other) ∈ entries ++ [(digest, Entry.SettledEntry entry)] ∧ other.txid = txid := by
        simpa using h.registered
      split at hstep
      · cases hstep
      · split at hstep
        · cases hstep
        · split at hstep
          · cases hstep
          · split at hstep
            · cases hstep
              exact ⟨hregistered, hsettled, hfulfilled⟩
            · rename_i fulfills hfulfills
              split at hstep
              · cases hstep
              · cases hstep
                refine ⟨hregistered, hsettled, fun other hother => ?_⟩
                rcases List.mem_cons.mp hother with rfl | hother
                · have hcommitted : entry.outcome = .COMMITTED := by
                    by_contra hne
                    rw [if_neg hne] at hfulfills
                    cases hfulfills
                  rw [if_pos hcommitted] at hfulfills
                  exact ⟨digest, entry, registration, List.mem_append_right _ List.mem_cons_self, hcommitted, hbound,
                    hfulfills⟩
                · exact hfulfilled other hother
    · cases hstep

theorem seen_of_inspect {entries : List (String × Entry)} {seen : ClassState} (hnodup : (entries.map Prod.fst).Nodup)
    (h : inspect_entry_classes entries = .ok seen) : Seen entries entries seen := by
  have hfold : ∀ (items : List ((String × Entry) × Nat)) (front : List (String × Entry)) (start : ClassState),
      Seen entries front start →
      items.foldlM (fun seen item => inspect_entry entries item.2 item.1.1 item.1.2 seen) start = .ok seen →
      Seen entries (front ++ items.map Prod.fst) seen := by
    intro items
    induction items with
    | nil =>
      intro front start hstart hitems
      cases hitems
      simpa using hstart
    | cons item rest ih =>
      intro front start hstart hitems
      rw [foldlM_cons_eq_ok_iff] at hitems
      obtain ⟨middle, hitem, hrest⟩ := hitems
      have hnext := ih (front ++ [item.1]) middle (hstart.step hnodup hitem) hrest
      rwa [List.append_assoc] at hnext
  have hstart : Seen entries [] { registered := [], settled := [], fulfilled := [] } := by
    constructor <;> simp
  have hend := hfold entries.zipIdx [] _ hstart h
  rwa [List.nil_append, List.zipIdx_map_fst] at hend

/-- What was seen as fulfilled is what the gate of a new registration reads off the chain. -/
theorem mem_committed_fulfillments {entries : List (String × Entry)} {digest fulfills : String} {entry : SettledEntry}
    {registration : RegisteredEntry} (hnodup : (entries.map Prod.fst).Nodup)
    (hsettled : (digest, Entry.SettledEntry entry) ∈ entries) (hcommitted : entry.outcome = .COMMITTED)
    (hregistered : (entry.registration, Entry.RegisteredEntry registration) ∈ entries)
    (hfulfills : registration.fulfills = some fulfills) : fulfills ∈ committed_fulfillments entries := by
  rw [committed_fulfillments, List.mem_filterMap]
  refine ⟨_, hsettled, ?_⟩
  simp only [hcommitted, if_true, find_key_of_mem hnodup hregistered]
  exact hfulfills

end atoms.chain
