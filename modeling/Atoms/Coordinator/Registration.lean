import Atoms.Chain.Publish
import Atoms.Chain.States
import Atoms.Coordinator.Reconcile
import Atoms.Core.Compiler.Sequential

open atoms.errors atoms.fingerprint atoms.identifiers atoms.paths atoms.spec atoms.fs atoms.compiler atoms.chain checked keyed

namespace atoms.coordinator

section

variable [UnicodeData]

/-- The grammar of paths does not depend on what a path is called in a message. -/
theorem require_rel_path_label {what : String} {path : String} (h : require_rel_path what path = .ok ())
    (label : String) : require_rel_path label path = .ok () := by
  simp only [require_rel_path, bind_eq_ok_iff, require_eq_ok_iff, forM_eq_ok_iff] at h ⊢
  exact h

theorem require_path_of {what : String} {path : String} (h : require_rel_path what path = .ok ()) (fault : Fault)
    (label : String) : require_path path fault label = .ok () := by
  rw [require_path, require_rel_path_label h label]
  rfl

/-- The surfaces of a compiled spec, and what the chain registers of them, pass the checks of the chain. -/
structure Registrable (spec : TransactionSpec) : Prop where
  paths : ∀ path ∈ spec.registered_paths, ∃ what, require_rel_path what path = .ok ()
  sorted : spec.registered_paths = sorted_by id spec.registered_paths
  nodup : spec.registered_paths.Nodup
  initial : ∀ path, Fingerprinted (surface_state spec.initial_surface path)
  final : ∀ path, Fingerprinted (surface_state spec.final_surface path)
  intent_digest : is_sha256_digest spec.intent_digest = true
  consumer_tag : is_valid_identifier spec.consumer_tag = true
  fulfills : ∀ digest ∈ spec.fulfills, is_hex_digest digest = true

omit [UnicodeData] in
theorem mem_surface_labels {α : Type} (label name : String) (get : SurfaceEntry → α) {surface : List SurfaceEntry}
    {entry : SurfaceEntry} (h : entry ∈ surface) : ∃ what, (get entry, what) ∈ surface_labels label name get surface := by
  obtain ⟨index, hlt, rfl⟩ := List.mem_iff_getElem.mp h
  refine ⟨_, List.mem_map.mpr ⟨(surface[index], index), ?_, rfl⟩⟩
  rw [List.mem_zipIdx_iff_getElem?]
  exact List.getElem?_eq_getElem hlt

theorem fingerprinted_surface {surface : List SurfaceEntry}
    (h : ∀ entry ∈ surface, Fingerprinted entry.state) (path : String) :
    Fingerprinted (surface_state (sorted_by SurfaceEntry.path surface) path) := by
  unfold surface_state
  cases hfind : find_key SurfaceEntry.path (sorted_by SurfaceEntry.path surface) path with
  | none => exact .absent
  | some entry => exact h entry ((mem_sorted_by _ _ _).mp (find_key_some hfind).1)

theorem registrable (compiled : CompiledSpec) : Registrable compiled.spec := by
  obtain ⟨source, hphases, hspec, _⟩ := compiled.exists_phases
  rw [← hspec]
  have hstates : ∀ entry ∈ source.initial_surface ++ source.final_surface, Fingerprinted entry.state := by
    intro entry hentry
    obtain ⟨_, hall, _⟩ := bind_eq_ok_iff.mp hphases.fingerprints_ok
    have hall := forM_eq_ok_iff.mp hall
    have hmem : ∃ what, (entry.state, what) ∈ every_state source := by
      rcases List.mem_append.mp hentry with hentry | hentry
      · obtain ⟨what, hwhat⟩ := mem_surface_labels "initial_surface" "state" SurfaceEntry.state hentry
        exact ⟨what, List.mem_append_left _ (List.mem_append_left _ hwhat)⟩
      · obtain ⟨what, hwhat⟩ := mem_surface_labels "final_surface" "state" SurfaceEntry.state hentry
        exact ⟨what, List.mem_append_left _ (List.mem_append_right _ hwhat)⟩
    obtain ⟨what, hwhat⟩ := hmem
    exact ⟨what, hall _ hwhat⟩
  have hpaths : ∀ entry ∈ source.initial_surface ++ source.final_surface,
      ∃ what, require_rel_path what entry.path = .ok () := by
    intro entry hentry
    have hall := forM_eq_ok_iff.mp hphases.path_grammar_ok
    have hmem : ∃ what, (entry.path, what) ∈ declared_paths source := by
      rcases List.mem_append.mp hentry with hentry | hentry
      · obtain ⟨what, hwhat⟩ := mem_surface_labels "initial_surface" "path" SurfaceEntry.path hentry
        exact ⟨what, List.mem_append_left _ (List.mem_append_left _ hwhat)⟩
      · obtain ⟨what, hwhat⟩ := mem_surface_labels "final_surface" "path" SurfaceEntry.path hentry
        exact ⟨what, List.mem_append_left _ (List.mem_append_right _ hwhat)⟩
    obtain ⟨what, hwhat⟩ := hmem
    exact ⟨what, hall _ hwhat⟩
  have hregistration := hphases.registration_ok
  simp only [phase9_registration, validate_v2_members, bind_eq_ok_iff, require_eq_ok_iff] at hregistration
  obtain ⟨_, hfulfills, _, hsorted, _, hnodup, hsubset⟩ := hregistration
  have hstructure := hphases.structure_ok
  simp only [phase1_structure, require_valid_identifier, bind_eq_ok_iff, require_eq_ok_iff] at hstructure
  obtain ⟨_, _, _, htag, _, hintent, _⟩ := hstructure
  refine
    { paths := ?_
      sorted := hsorted
      nodup := hnodup
      initial := fingerprinted_surface fun entry h => hstates entry (List.mem_append_left _ h)
      final := fingerprinted_surface fun entry h => hstates entry (List.mem_append_right _ h)
      intent_digest := hintent
      consumer_tag := htag
      fulfills := hfulfills }
  intro path hpath
  obtain ⟨entry, hentry, rfl⟩ := List.mem_map.mp (hsubset path hpath)
  exact hpaths entry hentry

/-- Each registered path with the facts of its state. -/
theorem registered_surface_total {surface : List SurfaceEntry} (h : ∀ path, Fingerprinted (surface_state surface path))
    (paths : List String) : ∃ items, registered_surface surface paths = .ok items ∧ items.map Prod.fst = paths ∧
      ∀ item ∈ items, ∀ fault label, state_from_json item.2 fault label = .ok (surface_state surface item.1) := by
  induction paths with
  | nil => exact ⟨[], rfl, rfl, by simp⟩
  | cons path rest ih =>
    obtain ⟨facts, hfacts, hread⟩ := state_to_json_written (h path)
    obtain ⟨items, hitems, hpaths, hstates⟩ := ih
    refine ⟨(path, facts) :: items, ?_, by rw [List.map_cons, hpaths], ?_⟩
    · rw [registered_surface] at hitems ⊢
      simp only [List.mapM_cons, hfacts, ok_bind, pure_bind, hitems]
      rfl
    · intro item hitem
      rcases List.mem_cons.mp hitem with rfl | hitem
      · exact hread
      · exact hstates item hitem

theorem require_surface_items_of {items : List (String × PathStateJSON)} {fault : Fault} {label : String}
    (hpaths : ∀ item ∈ items, ∃ what, require_rel_path what item.1 = .ok ())
    (hstates : ∀ item ∈ items, ∀ label, ∃ state, state_from_json item.2 fault label = .ok state) (index : Nat) :
    require_surface_items fault label index items = .ok () := by
  induction items generalizing index with
  | nil => rfl
  | cons item rest ih =>
    obtain ⟨_, hpath⟩ := hpaths item List.mem_cons_self
    obtain ⟨_, hstate⟩ := hstates item List.mem_cons_self (label ++ "[" ++ toString index ++ "].state")
    simp only [require_surface_items, require_path_of hpath, ok_bind, hstate]
    exact ih (fun other hother => hpaths other (List.mem_cons_of_mem _ hother))
      (fun other hother => hstates other (List.mem_cons_of_mem _ hother)) (index + 1)

/-- The facts of the registered paths are those of the states that the surface declares. -/
def Registers (paths : List String) (surface : List SurfaceEntry) (items : List (String × PathStateJSON)) : Prop :=
  items.map Prod.fst = paths ∧ ∀ item ∈ items, ∃ state, ⟨item.1, state⟩ ∈ surface ∧
    state_from_json item.2 chain_fault "path state" = .ok state

/-- Every registered path is declared by both surfaces. -/
theorem registered_declared {spec : TransactionSpec} {timelines : List timeline.PathTimeline}
    (hphases : Phases spec timelines) {path : String} (hpath : path ∈ spec.registered_paths) :
    path ∈ spec.initial_surface.map SurfaceEntry.path ∧ path ∈ spec.final_surface.map SurfaceEntry.path := by
  have hcoverage := hphases.coverage_ok
  rw [phase10_coverage, bind_eq_ok_iff] at hcoverage
  obtain ⟨_, hinitial, hfinal⟩ := hcoverage
  have hinitial := require_coverage_eq_ok_iff.mp hinitial path
  have hfinal := require_coverage_eq_ok_iff.mp hfinal path
  have hregistration := hphases.registration_ok
  simp only [phase9_registration, validate_v2_members, bind_eq_ok_iff, require_eq_ok_iff] at hregistration
  obtain ⟨_, _, _, _, _, _, hsubset⟩ := hregistration
  have hdeclared := hsubset path hpath
  rw [List.map_append, List.mem_append] at hdeclared
  rcases hdeclared with hdeclared | hdeclared
  · exact ⟨hdeclared, hfinal.mp (hinitial.mpr hdeclared)⟩
  · exact ⟨hinitial.mp (hfinal.mpr hdeclared), hdeclared⟩

omit [UnicodeData] in
theorem mem_surface_of_declared {surface : List SurfaceEntry} {path : String}
    (h : path ∈ surface.map SurfaceEntry.path) : ⟨path, surface_state (sorted_by SurfaceEntry.path surface) path⟩ ∈ surface := by
  have hsorted : ∃ entry ∈ sorted_by SurfaceEntry.path surface, entry.path = path := by
    obtain ⟨entry, hentry, hpath⟩ := List.mem_map.mp h
    exact ⟨entry, (mem_sorted_by _ _ _).mpr hentry, hpath⟩
  obtain ⟨entry, hfind⟩ := Option.isSome_iff_exists.mp (find_key_isSome_iff.mpr hsorted)
  obtain ⟨hmem, rfl⟩ := find_key_some hfind
  have hstate : surface_state (sorted_by SurfaceEntry.path surface) entry.path = entry.state := by
    rw [surface_state, hfind]
    rfl
  rw [hstate]
  exact (mem_sorted_by _ _ _).mp hmem

/-- The registration of a compiled spec can be appended to any chain. -/
theorem registration_encodes {spec : TransactionSpec} {compiled : CompiledSpec} (hcompiled : compile_spec spec = .ok compiled)
    {txid : String} (htxid : is_valid_identifier txid = true) :
    ∃ entry : RegisteredEntry, registration_entry compiled.spec txid = .ok (.RegisteredEntry entry) ∧
      entry.txid = txid ∧ entry.intent_digest = spec.intent_digest ∧ entry.consumer_tag = spec.consumer_tag ∧
      entry.fulfills = spec.fulfills ∧ Registers spec.registered_paths spec.initial_surface entry.initial ∧
      Registers spec.registered_paths spec.final_surface entry.final ∧
      ∀ tip, is_hex_digest tip = true → ∃ envelope, encode_entry (some tip) (.RegisteredEntry entry) = .ok envelope := by
  have h := registrable compiled
  obtain ⟨initial, hinitial, hinitial_paths, hinitial_states⟩ := registered_surface_total h.initial compiled.spec.registered_paths
  obtain ⟨final, hfinal, hfinal_paths, hfinal_states⟩ := registered_surface_total h.final compiled.spec.registered_paths
  -- Both sides list the registered paths, and each with the state of its surface.
  have hsurface : ∀ (items : List (String × PathStateJSON)) (surface : List SurfaceEntry) (fault : Fault) (label : String),
      items.map Prod.fst = compiled.spec.registered_paths →
      (∀ item ∈ items, ∀ fault label, state_from_json item.2 fault label = .ok (surface_state surface item.1)) →
      surface_obj items fault label = .ok (.arr (items.map surface_item_obj)) := by
    intro items surface fault label hpaths hstates
    have hitems : require_surface_items fault label 0 items = .ok () := by
      refine require_surface_items_of (fun item hitem => ?_) (fun item hitem label => ⟨_, hstates item hitem fault label⟩) 0
      exact h.paths item.1 (hpaths ▸ List.mem_map_of_mem hitem)
    have hsorted := h.sorted
    have hnodup := h.nodup
    rw [← hpaths] at hsorted hnodup
    simp only [surface_obj, require_surface, hitems, require_of hsorted, require_of hnodup, ok_bind]
    rfl
  obtain ⟨hphases, hspec⟩ := compile_spec_eq_ok hcompiled
  refine ⟨{ txid, intent_digest := compiled.spec.intent_digest, consumer_tag := compiled.spec.consumer_tag, initial, final,
            fulfills := compiled.spec.fulfills }, ?_, rfl, by rw [hspec]; rfl, by rw [hspec]; rfl, by rw [hspec]; rfl,
          ⟨by rw [hinitial_paths, hspec]; rfl, fun item hitem => ⟨_, ?_, hinitial_states item hitem _ _⟩⟩,
          ⟨by rw [hfinal_paths, hspec]; rfl, fun item hitem => ⟨_, ?_, hfinal_states item hitem _ _⟩⟩, fun tip htip => ?_⟩
  · simp only [registration_entry, hinitial, hfinal, ok_bind]
    rfl
  · have hpath : item.1 ∈ compiled.spec.registered_paths := hinitial_paths ▸ List.mem_map_of_mem hitem
    rw [hspec] at hpath ⊢
    exact mem_surface_of_declared (registered_declared hphases hpath).1
  · have hpath : item.1 ∈ compiled.spec.registered_paths := hfinal_paths ▸ List.mem_map_of_mem hitem
    rw [hspec] at hpath ⊢
    exact mem_surface_of_declared (registered_declared hphases hpath).2
  · have hprevious : require_previous (some tip) protocol_fault = .ok () := require_of htip
    have hidentifier : ∀ value label, is_valid_identifier value = true →
        require_identifier value protocol_fault label = .ok () := fun value label hvalue => require_of hvalue
    simp only [encode_entry, entry_obj, hprevious, require_of h.intent_digest, require_of h.fulfills,
      hidentifier txid _ htxid, hidentifier _ _ h.consumer_tag, hsurface initial _ _ _ hinitial_paths hinitial_states,
      hsurface final _ _ _ hfinal_paths hfinal_states, ok_bind, pure_bind]
    exact ⟨_, rfl⟩

/-- Either settlement of a registration can be appended to any chain. -/
theorem settlement_encodes {txid registration : String} (htxid : is_valid_identifier txid = true)
    (hregistration : is_hex_digest registration = true) (outcome : ChainOutcome) {tip : String}
    (htip : is_hex_digest tip = true) :
    ∃ envelope, encode_entry (some tip) (.SettledEntry { txid, registration, outcome }) = .ok envelope := by
  have hprevious : require_previous (some tip) protocol_fault = .ok () := require_of htip
  have hidentifier : require_identifier txid protocol_fault "settled txid" = .ok () := require_of htxid
  have hdigest : require_digest registration protocol_fault "settled registration" = .ok () := require_of hregistration
  simp only [encode_entry, entry_obj, hprevious, hidentifier, hdigest, ok_bind, pure_bind]
  exact ⟨_, rfl⟩

/-- What compiles can be registered and settled on any chain, and its registration reads back as it was declared. -/
theorem registration_round_trip [Sha256] (hhex : Hexadecimal) {spec : TransactionSpec} {compiled : CompiledSpec}
    (hcompiled : compile_spec spec = .ok compiled) {txid tip : String} (htxid : is_valid_identifier txid = true)
    (htip : is_hex_digest tip = true) :
    ∃ entry envelope, registration_entry compiled.spec txid = .ok (.RegisteredEntry entry) ∧
      encode_entry (some tip) (.RegisteredEntry entry) = .ok envelope ∧
      (∀ outcome settled_tip, is_hex_digest settled_tip = true → ∃ settled, encode_entry (some settled_tip)
        (.SettledEntry { txid, registration := entry_digest envelope, outcome }) = .ok settled) ∧
      decode_entry envelope = .ok (some tip, .RegisteredEntry entry) ∧
      entry.txid = txid ∧ entry.intent_digest = spec.intent_digest ∧ entry.consumer_tag = spec.consumer_tag ∧
      entry.fulfills = spec.fulfills ∧ Registers spec.registered_paths spec.initial_surface entry.initial ∧
      Registers spec.registered_paths spec.final_surface entry.final := by
  obtain ⟨entry, hentry, hentry_txid, hintent, htag, hfulfills, hinitial, hfinal, hencodes⟩ :=
    registration_encodes hcompiled htxid
  obtain ⟨envelope, hencode⟩ := hencodes tip htip
  refine ⟨entry, envelope, hentry, hencode, fun outcome settled_tip hsettled => ?_, decode_encode_entry hencode,
    hentry_txid, hintent, htag, hfulfills, hinitial, hfinal⟩
  exact settlement_encodes htxid (hhex envelope) outcome hsettled

end

section

attribute [local instance] ascii_names

/-- The digest of the one envelope below. -/
def moved_then_deleted_digest : String := "6c54c23c53ff5fc8cb2f8ff4402694735ddc6c9817b01d8239714a9f3fe7bb3e"

@[reducible] def registration_digest : Sha256 := ⟨fun _ => moved_then_deleted_digest⟩

attribute [local instance] registration_digest

theorem moved_then_deleted_registers : ∃ compiled entry envelope, compile_spec moved_then_deleted = .ok compiled ∧
    registration_entry compiled.spec "t1" = .ok (.RegisteredEntry entry) ∧
    decode_entry envelope = .ok (some EMPTY_HASH, .RegisteredEntry entry) ∧
    Registers ["b"] moved_then_deleted.initial_surface entry.initial := by
  have hphases : compile_phases moved_then_deleted = .ok
      [⟨"a", [⟨"e1", 0, "source", .FileState empty_file, ABSENT⟩]⟩,
        ⟨"b", [⟨"e1", 0, "destination", ABSENT, .FileState empty_file⟩, ⟨"e2", 1, "target", .FileState empty_file, ABSENT⟩]⟩] := by
    decide +kernel
  have hcompiled := compile_spec_of hphases
  have hdigest : is_hex_digest moved_then_deleted_digest = true := by decide
  have hhex : Hexadecimal := fun _ => hdigest
  have htip : is_hex_digest EMPTY_HASH = true := by decide
  have htxid : is_valid_identifier "t1" = true := by decide
  obtain ⟨entry, envelope, hentry, _, _, hdecode, _, _, _, _, hinitial, _⟩ :=
    registration_round_trip hhex hcompiled htxid htip
  exact ⟨_, entry, envelope, hcompiled, hentry, hdecode, hinitial⟩

end

end atoms.coordinator
