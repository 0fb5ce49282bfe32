import Atoms.Chain.Model
import Atoms.Library.Json.RoundTrip

open atoms.errors atoms.fingerprint atoms.identifiers atoms.paths checked keyed json

namespace atoms.chain

/-! Every check of the codec returns the same, whichever class of error it raises. -/

section

variable (fault : Fault)

theorem require_digest_toOption (value label : String) :
    (require_digest value fault label).toOption = if is_hex_digest value then some () else none := toOption_require

theorem require_identifier_toOption (value label : String) :
    (require_identifier value fault label).toOption = if is_valid_identifier value then some () else none :=
  toOption_require

theorem require_path_toOption [UnicodeData] (value label : String) :
    (require_path value fault label).toOption = (require_rel_path label value).toOption := by
  unfold require_path
  cases require_rel_path label value <;> rfl

theorem require_previous_toOption (previous : Option String) (fault' : Fault) :
    (require_previous previous fault).toOption = (require_previous previous fault').toOption := by
  cases previous with
  | none => rfl
  | some digest => simp only [require_previous, require_digest_toOption]

theorem state_from_json_toOption (facts : PathStateJSON) (label : String) (fault' : Fault) :
    (state_from_json facts fault label).toOption = (state_from_json facts fault' label).toOption := by
  simp only [state_from_json, require_mode, require_decimal, require_target, require_digest, toOption_bind,
    toOption_require, toOption_pure, toOption_throw, apply_ite Except.toOption]

variable [UnicodeData]

theorem require_surface_items_toOption (label : String) (fault' : Fault) (value : List (String × PathStateJSON))
    (index : Nat) :
    (require_surface_items fault label index value).toOption =
      (require_surface_items fault' label index value).toOption := by
  induction value generalizing index with
  | nil => rfl
  | cons item rest ih =>
    simp only [require_surface_items, toOption_bind, require_path_toOption, ih]
    rw [state_from_json_toOption fault _ _ fault']

theorem surface_obj_toOption (value : List (String × PathStateJSON)) (label : String) (fault' : Fault) :
    (surface_obj value fault label).toOption = (surface_obj value fault' label).toOption := by
  simp only [surface_obj, require_surface, toOption_bind, toOption_require, toOption_pure]
  rw [require_surface_items_toOption fault label fault']

theorem entry_obj_toOption (previous : Option String) (entry : Entry) (fault' : Fault) :
    (entry_obj previous entry fault).toOption = (entry_obj previous entry fault').toOption := by
  cases entry with
  | GenesisEntry entry =>
    simp only [entry_obj, toOption_bind, toOption_require, toOption_pure]
    rw [surface_obj_toOption fault _ _ fault']
  | RegisteredEntry entry =>
    simp only [entry_obj, toOption_bind, toOption_require, toOption_pure, require_identifier_toOption]
    rw [require_previous_toOption fault _ fault', surface_obj_toOption fault entry.initial _ fault',
      surface_obj_toOption fault entry.final _ fault']
  | SettledEntry entry =>
    simp only [entry_obj, toOption_bind, toOption_pure, require_identifier_toOption, require_digest_toOption]
    rw [require_previous_toOption fault _ fault']
  | IntentEntry entry =>
    simp only [entry_obj, toOption_bind, toOption_pure]
    rw [require_previous_toOption fault _ fault']

theorem entry_obj_fault (fault' : Fault) {previous : Option String} {entry : Entry} {obj : Json}
    (h : entry_obj previous entry fault = .ok obj) : entry_obj previous entry fault' = .ok obj := by
  rw [← toOption_eq_some_iff] at h ⊢
  rw [entry_obj_toOption fault' _ _ fault, h]

end

/-! Every object that the codec makes is plain. -/

theorem plain_surface_item (item : String × PathStateJSON) : Plain (surface_item_obj item) := by
  apply Plain.arr
  simp only [List.forall_mem_cons, List.not_mem_nil, false_implies, implies_true, and_true]
  refine ⟨.str _, .arr ?_⟩
  intro value hvalue
  obtain ⟨pair, _, rfl⟩ := List.mem_map.mp hvalue
  apply Plain.arr
  simp only [List.forall_mem_cons, List.not_mem_nil, false_implies, implies_true, and_true]
  exact ⟨.str _, .str _⟩

theorem plain_surface (value : List (String × PathStateJSON)) : Plain (.arr (value.map surface_item_obj)) := by
  apply Plain.arr
  intro item hitem
  obtain ⟨pair, _, rfl⟩ := List.mem_map.mp hitem
  exact plain_surface_item pair

theorem plain_optional (value : Option String) : Plain (optional_obj value) := by
  cases value with
  | none => exact .null
  | some text => exact .str text

theorem sort_keys_surface_item (item : String × PathStateJSON) :
    sort_keys (surface_item_obj item) = surface_item_obj item := by
  have hpairs : (item.2.map pair_obj).map sort_keys = item.2.map pair_obj := by
    rw [List.map_map]
    exact List.map_congr_left fun pair _ => rfl
  simp only [surface_item_obj, sort_keys, sort_items, sort_items_eq, hpairs]

theorem sort_keys_surface (value : List (String × PathStateJSON)) :
    sort_keys (.arr (value.map surface_item_obj)) = .arr (value.map surface_item_obj) := by
  rw [sort_keys, sort_items_eq, List.map_map]
  exact congrArg Json.arr (List.map_congr_left fun item _ => sort_keys_surface_item item)

theorem sort_keys_optional (value : Option String) : sort_keys (optional_obj value) = optional_obj value := by
  cases value <;> rfl

/-! Reading back what was written. -/

theorem member_of {members sorted : List (String × Json)} (h : SortedObj members sorted) (key : String) (value : Json)
    (hmem : (key, value) ∈ members) : member sorted key = sort_keys value := by
  rw [member, h.lookup key value hmem]
  rfl

theorem require_only_of {members sorted : List (String × Json)} (h : SortedObj members sorted) (fields : List String)
    (label : String) (hfields : members.map Prod.fst = fields) : require_only sorted fields label = .ok () :=
  require_of (hfields ▸ h.keys)

theorem payload_from_obj_written (payload : List UInt8) (fault : Fault) (label : String) :
    payload_from_obj (payload_obj payload) fault label = .ok payload := by
  simp only [payload_from_obj, payload_obj, string_from_obj, pure_bind, String.toList_ofList, base64.decode_encode,
    require_true, ok_bind]
  rfl

theorem pairs_from_obj_written (fault : Fault) (label : String) (facts : PathStateJSON) (index : Nat) :
    pairs_from_obj fault label index (facts.map pair_obj) = .ok facts := by
  induction facts generalizing index with
  | nil => rfl
  | cons pair rest ih =>
    simp only [List.map_cons, pair_obj, pairs_from_obj, string_from_obj, pure_bind, ih, ok_bind]
    rfl

theorem surface_items_from_obj_written (fault : Fault) (label : String) (value : List (String × PathStateJSON))
    (index : Nat) : surface_items_from_obj fault label index (value.map surface_item_obj) = .ok value := by
  induction value generalizing index with
  | nil => rfl
  | cons item rest ih =>
    simp only [List.map_cons, surface_items_from_obj, surface_item_obj, surface_item_from_obj, pairs_from_obj_written,
      string_from_obj, ok_bind, pure_bind, ih]
    rfl

section

variable [UnicodeData]

theorem require_surface_of {value : List (String × PathStateJSON)} {fault : Fault} {label : String} {obj : Json}
    (h : surface_obj value fault label = .ok obj) :
    require_surface value fault label = .ok () ∧ obj = .arr (value.map surface_item_obj) := by
  obtain ⟨_, hsurface, hobj⟩ := bind_eq_ok_iff.mp h
  exact ⟨hsurface, (pure_eq_ok_iff.mp hobj).symm⟩

theorem surface_from_obj_written {value : List (String × PathStateJSON)} {fault fault' : Fault} {label : String}
    {obj : Json} (h : surface_obj value fault label = .ok obj) :
    surface_from_obj (sort_keys obj) fault' label = .ok value := by
  have h' : surface_obj value fault' label = .ok obj := by
    rw [← toOption_eq_some_iff] at h ⊢
    rw [surface_obj_toOption fault' _ _ fault, h]
  obtain ⟨hsurface, rfl⟩ := require_surface_of h'
  rw [sort_keys_surface]
  simp only [surface_from_obj, surface_items_from_obj_written, ok_bind, hsurface]
  rfl

omit [UnicodeData] in
theorem optional_digest_written {value : Option String} (h : ∀ digest ∈ value, is_hex_digest digest) (label : String) :
    optional_digest (sort_keys (optional_obj value)) label = .ok value := by
  rw [sort_keys_optional]
  cases value with
  | none => rfl
  | some digest =>
    have hdigest : require_digest digest chain_fault label = .ok () := require_of (h digest rfl)
    simp only [optional_obj, optional_digest, string_from_obj, pure_bind, hdigest, ok_bind]
    rfl

omit [UnicodeData] in
theorem is_hex_digest_of_previous {previous : Option String} {fault : Fault}
    (h : require_previous previous fault = .ok ()) : ∀ digest ∈ previous, is_hex_digest digest := by
  intro digest hdigest
  rw [Option.mem_def] at hdigest
  subst hdigest
  exact require_eq_ok_iff.mp h

omit [UnicodeData] in
theorem chain_outcome_written (outcome : ChainOutcome) :
    chain_outcome (chain_outcome_value outcome) = .ok outcome := by
  cases outcome <;> rfl

/-- What is written of an entry is an object whose fields give the entry back. -/
theorem decode_fields_written {previous : Option String} {entry : Entry} {fault : Fault} {obj : Json}
    (h : entry_obj previous entry fault = .ok obj) :
    ∃ sorted entry_class, Plain obj ∧ sort_keys obj = .obj sorted ∧ member sorted "class" = .str entry_class ∧
      decode_fields sorted entry_class = .ok (previous, entry) := by
  cases entry with
  | GenesisEntry entry =>
    simp only [entry_obj, bind_eq_ok_iff, require_eq_ok_iff, pure_eq_ok_iff] at h
    obtain ⟨_, rfl, baseline, hbaseline, rfl⟩ := h
    obtain ⟨sorted, hobj, hsorted⟩ := sorted_obj [("class", .str "genesis"), ("previous", .null),
      ("payload", payload_obj entry.payload), ("baseline", baseline)] (by simp)
    have hplain : Plain baseline := (require_surface_of hbaseline).2 ▸ plain_surface entry.baseline
    refine ⟨sorted, "genesis", ?_, hobj, member_of hsorted "class" (.str "genesis") (by simp), ?_⟩
    · refine .obj (by simp) ?_
      simp only [List.forall_mem_cons, List.not_mem_nil, false_implies, implies_true, and_true]
      exact ⟨.str _, .null, .str _, hplain⟩
    · have hprevious := member_of hsorted "previous" .null (by simp)
      have hpayload := member_of hsorted "payload" (payload_obj entry.payload) (by simp)
      have hmember := member_of hsorted "baseline" baseline (by simp)
      have hpayload' : sort_keys (payload_obj entry.payload) = payload_obj entry.payload := rfl
      have hkeys := require_only_of hsorted ["class", "previous", "payload", "baseline"] "genesis" rfl
      simp only [decode_fields, if_true, hkeys, ok_bind, hprevious, hpayload, hmember, hpayload',
        payload_from_obj_written, surface_from_obj_written hbaseline]
      rfl
  | RegisteredEntry entry =>
    simp only [entry_obj, bind_eq_ok_iff, require_eq_ok_iff, pure_eq_ok_iff] at h
    obtain ⟨_, hprevious, _, hintent, _, hfulfills, _, htxid, _, htag, initial, hinitial, final, hfinal, rfl⟩ := h
    obtain ⟨sorted, hobj, hsorted⟩ := sorted_obj [("class", .str "registered"), ("previous", optional_obj previous),
      ("txid", .str entry.txid), ("intent_digest", .str entry.intent_digest), ("consumer_tag", .str entry.consumer_tag),
      ("initial", initial), ("final", final), ("fulfills", optional_obj entry.fulfills)] (by simp)
    have hplain_initial : Plain initial := (require_surface_of hinitial).2 ▸ plain_surface entry.initial
    have hplain_final : Plain final := (require_surface_of hfinal).2 ▸ plain_surface entry.final
    refine ⟨sorted, "registered", ?_, hobj, member_of hsorted "class" (.str "registered") (by simp), ?_⟩
    · refine .obj (by simp) ?_
      simp only [List.forall_mem_cons, List.not_mem_nil, false_implies, implies_true, and_true]
      exact ⟨.str _, plain_optional _, .str _, .str _, .str _, hplain_initial, hplain_final, plain_optional _⟩
    · have hmember := fun key value hmem => member_of hsorted key value hmem
      have hclass : ("registered" = "genesis") = False := by decide
      have hkeys := require_only_of hsorted ["class", "previous", "txid", "intent_digest", "consumer_tag", "initial", "final",
        "fulfills"] "registered entry" rfl
      simp only [decode_fields, hclass, if_false, if_true, hkeys, ok_bind,
        hmember "previous" (optional_obj previous) (by simp), hmember "txid" (.str entry.txid) (by simp),
        hmember "intent_digest" (.str entry.intent_digest) (by simp),
        hmember "consumer_tag" (.str entry.consumer_tag) (by simp), hmember "initial" initial (by simp),
        hmember "final" final (by simp), hmember "fulfills" (optional_obj entry.fulfills) (by simp),
        optional_digest_written (is_hex_digest_of_previous hprevious), optional_digest_written hfulfills, sort_keys,
        string_from_obj, pure_bind, surface_from_obj_written hinitial, surface_from_obj_written hfinal]
      rfl
  | SettledEntry entry =>
    simp only [entry_obj, bind_eq_ok_iff, pure_eq_ok_iff] at h
    obtain ⟨_, hprevious, _, htxid, _, hregistration, rfl⟩ := h
    obtain ⟨sorted, hobj, hsorted⟩ := sorted_obj [("class", .str "settled"), ("previous", optional_obj previous),
      ("txid", .str entry.txid), ("registration", .str entry.registration),
      ("outcome", .str (chain_outcome_value entry.outcome))] (by simp)
    refine ⟨sorted, "settled", ?_, hobj, member_of hsorted "class" (.str "settled") (by simp), ?_⟩
    · refine .obj (by simp) ?_
      simp only [List.forall_mem_cons, List.not_mem_nil, false_implies, implies_true, and_true]
      exact ⟨.str _, plain_optional _, .str _, .str _, .str _⟩
    · have hmember := fun key value hmem => member_of hsorted key value hmem
      have hclass : ("settled" = "genesis") = False := by decide
      have hclass' : ("settled" = "registered") = False := by decide
      have hkeys := require_only_of hsorted ["class", "previous", "txid", "registration", "outcome"] "settled entry" rfl
      simp only [decode_fields, hclass, hclass', if_false, if_true, hkeys, ok_bind,
        hmember "previous" (optional_obj previous) (by simp), hmember "txid" (.str entry.txid) (by simp),
        hmember "registration" (.str entry.registration) (by simp),
        hmember "outcome" (.str (chain_outcome_value entry.outcome)) (by simp),
        optional_digest_written (is_hex_digest_of_previous hprevious), sort_keys, string_from_obj, pure_bind,
        chain_outcome_written]
      rfl
  | IntentEntry entry =>
    simp only [entry_obj, bind_eq_ok_iff, pure_eq_ok_iff] at h
    obtain ⟨_, hprevious, rfl⟩ := h
    obtain ⟨sorted, hobj, hsorted⟩ := sorted_obj [("class", .str "intent"), ("previous", optional_obj previous),
      ("payload", payload_obj entry.payload)] (by simp)
    refine ⟨sorted, "intent", ?_, hobj, member_of hsorted "class" (.str "intent") (by simp), ?_⟩
    · refine .obj (by simp) ?_
      simp only [List.forall_mem_cons, List.not_mem_nil, false_implies, implies_true, and_true]
      exact ⟨.str _, plain_optional _, .str _⟩
    · have hmember := fun key value hmem => member_of hsorted key value hmem
      have hpayload : sort_keys (payload_obj entry.payload) = payload_obj entry.payload := rfl
      have hclass : ("intent" = "genesis") = False := by decide
      have hclass' : ("intent" = "registered") = False := by decide
      have hclass'' : ("intent" = "settled") = False := by decide
      have hkeys := require_only_of hsorted ["class", "previous", "payload"] "intent entry" rfl
      simp only [decode_fields, hclass, hclass', hclass'', if_false, if_true, hkeys, ok_bind,
        hmember "previous" (optional_obj previous) (by simp), hmember "payload" (payload_obj entry.payload) (by simp),
        optional_digest_written (is_hex_digest_of_previous hprevious), hpayload, payload_from_obj_written]
      rfl

/-- What `encode_entry` writes, `decode_entry` reads back. -/
theorem decode_encode_entry {previous : Option String} {entry : Entry} {envelope : List UInt8}
    (h : encode_entry previous entry = .ok envelope) : decode_entry envelope = .ok (previous, entry) := by
  obtain ⟨obj, hobj, henvelope⟩ := bind_eq_ok_iff.mp h
  have henvelope := pure_eq_ok_iff.mp henvelope
  obtain ⟨sorted, entry_class, hplain, hsorted, hclass, hfields⟩ := decode_fields_written hobj
  have hload : load_envelope envelope = .ok sorted := by
    rw [← henvelope, load_envelope, canonical_bytes, utf8_decode_utf8]
    simp only [loads_dumps false hplain, hsorted]
    rfl
  have hcanonical : require (canonical_bytes obj = envelope) (chain_fault "chain envelope bytes are not canonical") =
      .ok () := require_of henvelope
  simp only [decode_entry, hload, ok_bind, hclass, string_from_obj, pure_bind, hfields,
    entry_obj_fault protocol_fault chain_fault hobj, hcanonical]
  rfl

/-- What `decode_entry` accepts is what `encode_entry` writes of the entry it returns. -/
theorem encode_decode_entry {previous : Option String} {entry : Entry} {envelope : List UInt8}
    (h : decode_entry envelope = .ok (previous, entry)) : encode_entry previous entry = .ok envelope := by
  simp only [decode_entry, bind_eq_ok_iff, require_eq_ok_iff, pure_eq_ok_iff] at h
  obtain ⟨_, _, _, _, ⟨_, _⟩, _, obj, hobj, _, hcanonical, heq⟩ := h
  cases heq
  rw [encode_entry, entry_obj_fault chain_fault protocol_fault hobj, ok_bind, hcanonical]
  rfl

/-- What is written of an entry is an object, its keys sorted. -/
theorem envelope_written {previous : Option String} {entry : Entry} {envelope : List UInt8}
    (h : encode_entry previous entry = .ok envelope) :
    ∃ members, Plain (.obj members) ∧ envelope = utf8 (String.ofList (write false (.obj members))) := by
  obtain ⟨obj, hobj, henvelope⟩ := bind_eq_ok_iff.mp h
  obtain ⟨sorted, _, hplain, hsorted, _, _⟩ := decode_fields_written hobj
  refine ⟨sorted, hsorted ▸ hplain.sort_keys, ?_⟩
  rw [← pure_eq_ok_iff.mp henvelope, canonical_bytes, dumps, hsorted]

/-- No envelope is the start of another. -/
theorem envelope_eq_of_isPrefix {previous previous' : Option String} {entry entry' : Entry} {left right : List UInt8}
    (h : encode_entry previous entry = .ok left) (h' : encode_entry previous' entry' = .ok right)
    (hstart : left <+: right) : left = right := by
  obtain ⟨members, hplain, rfl⟩ := envelope_written h
  obtain ⟨members', hplain', rfl⟩ := envelope_written h'
  obtain ⟨rest, heq⟩ := isPrefix_toList_of_utf8 hstart
  rw [String.toList_ofList, String.toList_ofList] at heq
  rw [eq_of_write_append hplain hplain' heq, List.append_nil] at heq
  rw [heq]

end

end atoms.chain
