import Atoms.Chain.Append.Crashes
import Atoms.Chain.Pending

open atoms.errors atoms.fs checked crash atoms.chain

namespace atoms.coordinator

/-! The gates that a command passes before it appends an entry to a chain. -/

/-- `_FULFILLS_REFUSAL` -/
def FULFILLS_REFUSAL : FulfillsFault → String
  | .missing => "fulfills names no entry of the validated chain"
  | .non_ancestor => "fulfills names an entry that is not an ancestor"
  | .non_intent => "fulfills names an entry that is not an intent"

/-- `_require_no_pending` -/
def require_no_pending (entries : List (String × chain.Entry)) : Except Raised Unit :=
  let pending := pending_of entries
  require (pending = []) (.AtomsError (.PendingUnresolved ("the chain carries unsettled registrations: " ++
    String.intercalate ", " (pending.map fun item => item.1 ++ " at " ++ item.2))))

/-- `_require_admissible_fulfills` -/
def require_admissible_fulfills (entries : List (String × chain.Entry)) : Option String → Except Raised Unit
  | none => pure ()
  | some fulfills => do
    match fulfills_fault entries entries.length fulfills with
    | some fault => throw (.AtomsError (.PreconditionRefused (FULFILLS_REFUSAL fault ++ ": " ++ fulfills)))
    | none =>
      require (fulfills ∉ committed_fulfillments entries) (.AtomsError (.PreconditionRefused
        ("an earlier committed registration already fulfills " ++ fulfills)))

/-- The entries that the engine appends to a chain, each behind its gate: an intent, a registration of a transaction
that is new in the chain, the settlement of the pending registration. -/
inductive Admitted (entries : List (String × chain.Entry)) : chain.Entry → Prop
  | intent (entry : IntentEntry) : require_no_pending entries = .ok () → Admitted entries (.IntentEntry entry)
  | registered (entry : RegisteredEntry) :
    require_no_pending entries = .ok () → require_admissible_fulfills entries entry.fulfills = .ok () →
    (∀ digest other, (digest, chain.Entry.RegisteredEntry other) ∈ entries → other.txid ≠ entry.txid) →
    Admitted entries (.RegisteredEntry entry)
  | settled (entry : SettledEntry) :
    (entry.txid, entry.registration) ∈ pending_of entries → Admitted entries (.SettledEntry entry)

/-- A run of guarded appends, with the entries it has appended. Between two of them anything but the chain may change. -/
inductive Appended [UnicodeData] [Sha256] (fd : Inode) (start : Disk) : Disk → List (String × chain.Entry) → Prop
  | start : Appended fd start start []
  | append {d d' : Disk} {history : List (String × chain.Entry)} {validated : ValidatedChain} {entry : chain.Entry}
    {digest : String} : Appended fd start d history → Admitted validated.entries entry →
    (append_entry fd validated entry).Completes d digest d' →
    Appended fd start d' (history ++ [(digest, entry)])
  | elsewhere {d d' : Disk} {history : List (String × chain.Entry)} : Appended fd start d history →
    (∀ name, leaf d' fd name = leaf d fd name) → d'.Numbered → Appended fd start d' history

theorem pending_of_no_pending {entries : List (String × chain.Entry)} (h : require_no_pending entries = .ok ()) :
    pending_of entries = [] := require_eq_ok_iff.mp h

theorem admissible_fulfills {entries : List (String × chain.Entry)} {fulfills : String}
    (h : require_admissible_fulfills entries (some fulfills) = .ok ()) :
    fulfills_fault entries entries.length fulfills = none ∧ fulfills ∉ committed_fulfillments entries := by
  rw [require_admissible_fulfills] at h
  cases hfault : fulfills_fault entries entries.length fulfills with
  | some fault =>
    rw [hfault] at h
    cases h
  | none =>
    rw [hfault] at h
    exact ⟨rfl, require_eq_ok_iff.mp h⟩

section

variable [UnicodeData] [Sha256] {fd : Inode} {old history : List (String × chain.Entry)} {d d' : Disk}

/-- What a run of guarded appends keeps. -/
structure Gated (fd : Inode) (old history : List (String × chain.Entry)) (d : Disk) : Prop where
  numbered : d.Numbered
  directory : ∃ rows staged, Directory d fd rows staged ∧ Valid rows ∧ rows.map Row.link = old ++ history
  pending : pending_of (old ++ history) = last_unsettled history
  /-- A pending registration may still be committed. -/
  fulfillable : ∀ digest registration, history.getLast? = some (digest, chain.Entry.RegisteredEntry registration) →
    ∀ fulfills ∈ registration.fulfills, fulfills ∉ committed_fulfillments (old ++ history)

omit [UnicodeData] [Sha256] in
/-- An entry behind its gate passes the class pass, and what is then pending is the entry if it registers. -/
theorem Admitted.next {entries : List (String × chain.Entry)} {entry : chain.Entry} {digest : String} {seen : ClassState}
    (h : Admitted entries entry) (hhistory : ∀ item ∈ history, item ∈ entries) (hnodup : ((entries ++ [(digest, entry)]).map Prod.fst).Nodup)
    (hclasses : inspect_entry_classes entries = .ok seen) (hpending : pending_of entries = last_unsettled history)
    (hfulfillable : ∀ digest registration, history.getLast? = some (digest, chain.Entry.RegisteredEntry registration) →
      ∀ fulfills ∈ registration.fulfills, fulfills ∉ committed_fulfillments entries) :
    (∃ next, inspect_entry_classes (entries ++ [(digest, entry)]) = .ok next) ∧
      pending_of (entries ++ [(digest, entry)]) = last_unsettled [(digest, entry)] ∧
      ∀ registration, entry = .RegisteredEntry registration → ∀ fulfills ∈ registration.fulfills,
        fulfills ∉ committed_fulfillments (entries ++ [(digest, entry)]) := by
  have hfront : (entries.map Prod.fst).Nodup := by
    rw [List.map_append] at hnodup
    exact (List.nodup_append.mp hnodup).1
  cases h with
  | intent entry hgate =>
    refine ⟨⟨seen, inspect_concat_intent hnodup hclasses⟩, ?_, ?_⟩
    · rw [pending_of_concat_intent, pending_of_no_pending hgate]
      rfl
    · rintro registration ⟨⟩
  | registered entry hgate hadmissible hfresh =>
    have hsettled : entry.txid ∉ settled_txids entries := by
      intro hmem
      obtain ⟨name, settlement, hsettlement, htxid⟩ := mem_settled_txids.mp hmem
      obtain ⟨registration, hregistration, heq⟩ := settled_bound hfront hclasses hsettlement
      exact hfresh _ registration hregistration (heq.trans htxid)
    refine ⟨inspect_concat_registered hnodup hclasses hfresh ?_, ?_, ?_⟩
    · intro fulfills hfulfills
      rw [hfulfills] at hadmissible
      exact (admissible_fulfills hadmissible).1
    · rw [pending_of_concat_registered hsettled, pending_of_no_pending hgate]
      rfl
    · rintro registration ⟨rfl⟩ fulfills hfulfills hmem
      rw [hfulfills] at hadmissible
      exact (admissible_fulfills hadmissible).2 (committed_fulfillments_concat_registered hnodup hclasses hmem)
  | settled entry hgate =>
    obtain ⟨_, hsettled⟩ := mem_pending_of.mp hgate
    obtain ⟨honly, registration, hlast, htxid⟩ := mem_last_unsettled (hpending ▸ hgate)
    have hregistered := hhistory _ (List.mem_of_getLast? hlast)
    refine ⟨inspect_concat_settled hnodup hclasses hregistered htxid hsettled
      (hfulfillable _ registration hlast), ?_, ?_⟩
    · rw [pending_of_concat_settled (hpending.trans honly)]
      rfl
    · rintro registration ⟨⟩

theorem Gated.append (hhex : Hexadecimal) (h : Gated fd old history d) {validated : ValidatedChain} {entry : chain.Entry}
    {digest : String} (hadmitted : Admitted validated.entries entry)
    (happend : (append_entry fd validated entry).Completes d digest d') :
    Gated fd old (history ++ [(digest, entry)]) d' := by
  obtain ⟨rows, staged, hdirectory, hvalid, hentries⟩ := h.directory
  obtain ⟨rfl, rfl, envelope, hencode⟩ := validated_of_append_entry hdirectory hvalid happend
  obtain ⟨rfl, hpublished⟩ := (append_entry_ensures hdirectory hvalid h.numbered hhex _ hencode).completes happend
  obtain ⟨seen, hseen⟩ := hvalid.classes
  have hrows : (rows ++ [next_row rows entry envelope]).map Row.link =
      rows.map Row.link ++ [(entry_digest envelope, entry)] := List.map_append
  have hnodup : ((rows.map Row.link ++ [(entry_digest envelope, entry)]).map Prod.fst).Nodup := by
    rw [← hrows, List.map_map]
    exact hpublished.directory.nodup
  rw [hentries] at hadmitted hnodup hseen hrows
  obtain ⟨hnext, hpending, hfulfillable⟩ := hadmitted.next (fun item hitem => List.mem_append_right _ hitem) hnodup hseen
    h.pending h.fulfillable
  rw [List.append_assoc] at hnext hpending hfulfillable hrows
  refine ⟨hpublished.numbered, ⟨_, none, hpublished.directory, ⟨?_, ?_⟩, hrows⟩, ?_, ?_⟩
  · exact linked_append.mpr ⟨hvalid.linked, rfl, trivial⟩
  · rw [hrows]
    exact hnext
  · rw [last_unsettled_concat]
    exact hpending
  · intro name registration hlast
    rw [List.getLast?_concat, Option.some.injEq, Prod.mk.injEq] at hlast
    exact hfulfillable registration hlast.2

/-- A run of guarded appends on an initialised chain: the scan of every directory it reaches is well formed, lists the
entries in the order of the appends, and reports the last entry as pending if it is a registration, and else nothing. -/
theorem guarded_appends_well_formed (hhex : Hexadecimal) {start : Disk} (hnumbered : start.Numbered)
    {validated : ValidatedChain} (hstart : (validate_chain fd []).Completes start validated start)
    (hsome : validated.entries ≠ []) (hpending : pending_of validated.entries = []) (hrun : Appended fd start d history) :
    ∃ scan chain, (scan_chain_directory fd).Completes d (.ok scan) d ∧ inspect_scan scan = .WellFormedChain chain ∧
      chain.entries = validated.entries ++ history ∧ chain.pending = last_unsettled history := by
  have hgated : Gated fd validated.entries history d := by
    induction hrun with
    | start =>
      obtain ⟨_, rows, staged, hdirectory, hvalid, hentries, _⟩ := valid_of_validate_chain hstart
      refine ⟨hnumbered, ⟨rows, staged, hdirectory, hvalid, ?_⟩, ?_, ?_⟩
      · rw [hentries, List.append_nil]
      · rw [List.append_nil]
        exact hpending
      · intro digest registration hlast
        cases hlast
    | append _ hadmitted happend ih => exact ih.append hhex hadmitted happend
    | elsewhere _ hleaf hnumbered' ih =>
      obtain ⟨rows, staged, hdirectory, hrest⟩ := ih.directory
      exact ⟨hnumbered', ⟨rows, staged, hdirectory.congr hleaf, hrest⟩, ih.pending, ih.fulfillable⟩
  obtain ⟨rows, staged, hdirectory, hvalid, hentries⟩ := hgated.directory
  obtain ⟨found, hperm, hscan⟩ := scan_returns hdirectory
  have htip : ∃ tip, last_digest none rows = some tip := by
    rw [last_digest_eq_getLast?, Option.or_none]
    cases hlast : rows.getLast? with
    | some row => exact ⟨row.digest, rfl⟩
    | none =>
      rw [List.getLast?_eq_none_iff.mp hlast, List.map_nil, eq_comm, List.append_eq_nil_iff] at hentries
      exact absurd hentries.1 hsome
  obtain ⟨tip, htip⟩ := htip
  obtain ⟨chain, hchain, hlinks, _, hlast⟩ := inspect_scan_of_valid staged hperm.symm hdirectory.nodup hvalid htip
  refine ⟨_, chain, ⟨[], hscan⟩, hchain, hlinks.trans hentries, ?_⟩
  rw [hlast, hentries, hgated.pending]

end

section

attribute [local instance] plain_text genesis_digest

theorem intent_append_well_formed : ∃ d scan chain, Appended 0 genesis_disk d [(ones, intent_entry)] ∧
    (scan_chain_directory 0).Completes d (.ok scan) d ∧ inspect_scan scan = .WellFormedChain chain ∧
    chain.entries = [(zeros, genesis_entry), (ones, intent_entry)] ∧ chain.pending = [] := by
  obtain ⟨envelope, hencode⟩ : ∃ envelope, encode_entry (some zeros) intent_entry = .ok envelope := ⟨_, rfl⟩
  have hencode' : encode_entry (last_digest none [genesis_row]) intent_entry = .ok envelope := hencode
  have hdigest := digest_after_genesis hencode
  have happend := append_entry_ensures directory_genesis_disk valid_genesis numbered_genesis_disk
    hexadecimal_genesis_digest genesis_chain hencode'
  have hcompletes : ∃ d, (append_entry 0 genesis_chain intent_entry).Completes genesis_disk ones d := by
    rcases happend.cases with ⟨digest, hcompletes, heq, _⟩ | ⟨_, _, _, hmem⟩
    · rw [heq, hdigest] at hcompletes
      exact ⟨_, hcompletes⟩
    · have hcollision := hmem rfl fun count hcount => absurd hcount List.not_mem_nil
      rw [hdigest] at hcollision
      exact absurd hcollision (by decide)
  obtain ⟨d, hcompletes⟩ := hcompletes
  have hrun : Appended 0 genesis_disk d ([] ++ [(ones, intent_entry)]) :=
    .append .start (.intent _ rfl) hcompletes
  obtain ⟨scan, chain, hscan, hchain, hentries, hpending⟩ := guarded_appends_well_formed hexadecimal_genesis_digest
    numbered_genesis_disk validates_genesis_disk (List.cons_ne_nil _ _) rfl hrun
  exact ⟨d, scan, chain, hrun, hscan, hchain, hentries, hpending⟩

end

end atoms.coordinator
