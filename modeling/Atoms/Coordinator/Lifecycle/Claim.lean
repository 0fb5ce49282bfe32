import Atoms.Chain.Publish
import Atoms.Coordinator.Lifecycle

open atoms.errors atoms.identifiers atoms.fs atoms.store atoms.chain checked keyed json crash

namespace atoms.coordinator

/-! What the canonical serializer writes, it decodes; and no claim is the start of another. -/

/-- The values of the closed canonical grammar. -/
inductive Canonical : Json → Prop
  | null : Canonical .null
  | str {value : String} (h : Char.ofNat 0 ∉ value.toList) : Canonical (.str value)
  | int (value : Int) : Canonical (.int value)
  | arr {items : List Json} (h : ∀ item ∈ items, Canonical item) : Canonical (.arr items)
  | obj {members : List (String × Json)} (h : ∀ member ∈ members, Canonical member.2) : Canonical (.obj members)

mutual

theorem canonical_of_validate {label : String} : ∀ {value : Json}, validate_canonical_value label value = .ok () →
    Canonical value
  | .null, _ => .null
  | .str _, h => .str (require_eq_ok_iff.mp h)
  | .int value, _ => .int value
  | .arr _, h => .arr (canonical_of_validate_items h)
  | .obj _, h => .obj (canonical_of_validate_members h)
  | .bool _, h => nomatch h
  | .float _, h => nomatch h

theorem canonical_of_validate_items {label : String} {index : Nat} : ∀ {items : List Json},
    validate_canonical_items label index items = .ok () → ∀ item ∈ items, Canonical item
  | [], _ => fun _ hitem => absurd hitem List.not_mem_nil
  | _ :: _, h => by
    obtain ⟨_, hhead, hrest⟩ := bind_eq_ok_iff.mp h
    exact List.forall_mem_cons.mpr ⟨canonical_of_validate hhead, canonical_of_validate_items hrest⟩

theorem canonical_of_validate_members {label : String} : ∀ {members : List (String × Json)},
    validate_canonical_members label members = .ok () → ∀ member ∈ members, Canonical member.2
  | [], _ => fun _ hmember => absurd hmember List.not_mem_nil
  | (_, _) :: _, h => by
    obtain ⟨_, hhead, hrest⟩ := bind_eq_ok_iff.mp h
    exact List.forall_mem_cons.mpr ⟨canonical_of_validate hhead, canonical_of_validate_members hrest⟩

end

theorem validate_items {items : List Json}
    (h : ∀ item ∈ items, ∀ label, validate_canonical_value label item = .ok ()) (label : String) (index : Nat) :
    validate_canonical_items label index items = .ok () := by
  induction items generalizing index with
  | nil => rfl
  | cons item rest ih =>
    obtain ⟨hitem, hrest⟩ := List.forall_mem_cons.mp h
    rw [validate_canonical_items, hitem, ok_bind]
    exact ih hrest (index + 1)

theorem validate_members {members : List (String × Json)}
    (h : ∀ member ∈ members, ∀ label, validate_canonical_value label member.2 = .ok ()) (label : String) :
    validate_canonical_members label members = .ok () := by
  induction members with
  | nil => rfl
  | cons member rest ih =>
    obtain ⟨hmember, hrest⟩ := List.forall_mem_cons.mp h
    rw [validate_canonical_members, hmember, ok_bind]
    exact ih hrest

theorem Canonical.validate {value : Json} (h : Canonical value) (label : String) :
    validate_canonical_value label value = .ok () := by
  induction h generalizing label with
  | null => rfl
  | str h => exact require_of h
  | int value => rfl
  | arr _ ih => exact validate_items ih label 0
  | obj _ ih => exact validate_members ih label

theorem canonical_text_eq_ok_iff {value : Json} {text : String} :
    canonical_text value = .ok text ↔ Canonical value ∧ dumps false value = text := by
  rw [canonical_text, bind_eq_ok_iff]
  constructor
  · rintro ⟨_, hvalidate, htext⟩
    exact ⟨canonical_of_validate hvalidate, pure_eq_ok_iff.mp htext⟩
  · rintro ⟨hcanonical, rfl⟩
    exact ⟨(), hcanonical.validate _, rfl⟩

theorem Canonical.sort_keys {value : Json} (h : Canonical value) : Canonical (sort_keys value) := by
  induction h with
  | null => exact .null
  | str h => exact .str h
  | int value => exact .int value
  | @arr items _ ih =>
    rw [json.sort_keys, sort_items_eq]
    refine .arr fun item hitem => ?_
    obtain ⟨old, hold, rfl⟩ := List.mem_map.mp hitem
    exact ih old hold
  | @obj members _ ih =>
    rw [json.sort_keys, sort_members_eq]
    refine .obj fun member hmember => ?_
    obtain ⟨old, hold, rfl⟩ := List.mem_map.mp ((sorted_members_perm _).mem_iff.mp hmember)
    exact ih old hold

/-- What is written of a canonical value is decoded, with its keys sorted. -/
theorem decode_canonical_written {value : Json} {text : String} (hplain : Plain value)
    (h : canonical_text value = .ok text) (fault : Fault) (label : String) :
    decode_canonical (utf8 text) fault label = .ok (sort_keys value) := by
  obtain ⟨hcanonical, rfl⟩ := canonical_text_eq_ok_iff.mp h
  have hagain : canonical_text (sort_keys value) = .ok (dumps false value) := by
    rw [canonical_text_eq_ok_iff, dumps, dumps, sort_keys_sort_keys hplain]
    exact ⟨hcanonical.sort_keys, rfl⟩
  simp only [decode_canonical, utf8_decode_utf8, loads_dumps false hplain, hagain, require_true, ok_bind]
  rfl

/-- What is decoded is what is written of it, and an object holds each of its keys once. -/
theorem written_of_decode_canonical {data : List UInt8} {fault : Fault} {label : String} {value : Json}
    (h : decode_canonical data fault label = .ok value) :
    data = utf8 (dumps false value) ∧ ∀ members, value = .obj members → (members.map Prod.fst).Nodup := by
  unfold decode_canonical at h
  split at h
  · cases h
  · split at h
    · cases h
    · cases h
    · rename_i text decoded hload
      split at h
      · cases h
      · rename_i canonical hcanonical
        obtain ⟨_, hsame, hvalue⟩ := bind_eq_ok_iff.mp h
        obtain rfl := pure_eq_ok_iff.mp hvalue
        have hsame := require_eq_ok_iff.mp hsame
        obtain ⟨_, rfl⟩ := canonical_text_eq_ok_iff.mp hcanonical
        refine ⟨hsame.symm, ?_⟩
        rintro members rfl
        exact nodup_of_loads hload

theorem plain_strings (texts : List String) : Plain (.arr (texts.map .str)) := by
  refine .arr fun item hitem => ?_
  obtain ⟨text, _, rfl⟩ := List.mem_map.mp hitem
  exact .str text

theorem plain_register_request (project_root metadata_root : String) (storage : StorageProfile)
    (genesis_payload : List UInt8) (registered_surface : List String) :
    Plain (register_request project_root metadata_root storage genesis_payload registered_surface) := by
  refine .obj (by decide : ["domain", "kind", "project_root", "metadata_root", "storage_profile", "genesis_payload_b64",
    "registered_surface"].Nodup) ?_
  have hprofile : Plain (.obj [("profile_id", .str storage.profile_id)]) := by
    refine .obj (List.nodup_singleton _) fun member hmember => ?_
    rw [List.mem_singleton.mp hmember]
    exact .str _
  simp only [List.forall_mem_cons, List.not_mem_nil, false_implies, implies_true, and_true]
  exact ⟨.str _, .str _, .str _, .str _, hprofile, .str _, plain_strings _⟩

/-- The text that is written of a plain value is itself a text of the grammar. -/
theorem canonical_dumps {value : Json} (h : Plain value) : Canonical (.str (dumps false value)) := by
  refine .str fun hnul => ?_
  rw [dumps, String.toList_ofList] at hnul
  exact absurd (h.sort_keys.printable false _ hnul) (by decide)

section

variable [Sha256] {operation_id : String} {request : OperationRequest} {data claim : List UInt8}

omit [Sha256] in
theorem plain_claim_obj (operation_id : String) (request : OperationRequest) :
    ∃ members, claim_obj operation_id request = .obj members ∧ Plain (.obj members) := by
  refine ⟨_, rfl, .of_texts (by decide : ["domain", "operation_id", "request_hash", "request_json"].Nodup) ?_⟩
  simp only [List.forall_mem_cons, List.not_mem_nil, false_implies, implies_true, and_true]
  exact ⟨⟨_, rfl⟩, ⟨_, rfl⟩, ⟨_, rfl⟩, ⟨_, rfl⟩⟩

omit [Sha256] in
theorem claim_text_eq_ok_iff {obj : List (String × Json)} {key : String} {grammar : String → Bool} {message value : String} :
    claim_text obj key grammar message = .ok value ↔ member obj key = .str value ∧ grammar value = true := by
  unfold claim_text
  split
  · rename_i found hfound
    rw [hfound, bind_eq_ok_iff]
    simp only [require_valid, require_eq_ok_iff, pure_eq_ok_iff, Json.str.injEq]
    constructor
    · rintro ⟨_, hgrammar, rfl⟩
      exact ⟨rfl, hgrammar⟩
    · rintro ⟨rfl, hgrammar⟩
      exact ⟨(), hgrammar, rfl⟩
  · rename_i hnot
    simp only [throw_ne_ok, false_iff, not_and]
    exact fun hfound => absurd hfound (hnot value)

/-- A claim that is decoded is what was written of an object of texts. -/
theorem written_of_decode_claim {found : RootClaim} (h : decode_claim data = .ok found) :
    ∃ members, Plain (.obj members) ∧ data = utf8 (dumps false (.obj members)) := by
  obtain ⟨decoded, hdecode, h⟩ := bind_eq_ok_iff.mp h
  obtain ⟨hdata, hkeys⟩ := written_of_decode_canonical hdecode
  cases decoded with
  | obj members =>
    simp only [bind_eq_ok_iff, require_valid, require_eq_ok_iff, claim_text_eq_ok_iff] at h
    obtain ⟨_, hset, domain, ⟨hdomain, _⟩, operation_id, ⟨hoperation, _⟩, request_hash, ⟨hhash, _⟩, request_json,
      ⟨hjson, _⟩, _⟩ := h
    refine ⟨members, .of_texts (hkeys members rfl) fun item hitem => ?_, hdata⟩
    have hkey := (set_eq_iff.mp hset item.1).mp (List.mem_map_of_mem hitem)
    have hlookup : chain.member members item.1 = item.2 := by
      rw [chain.member, (lookup_eq_some_iff_mem (hkeys members rfl)).mpr hitem]
      rfl
    simp only [List.mem_cons, List.not_mem_nil, or_false] at hkey
    rw [← hlookup]
    rcases hkey with heq | heq | heq | heq
    · exact ⟨domain, heq ▸ hdomain⟩
    · exact ⟨operation_id, heq ▸ hoperation⟩
    · exact ⟨request_hash, heq ▸ hhash⟩
    · exact ⟨request_json, heq ▸ hjson⟩
  | _ => cases h

omit [Sha256] in
theorem encode_claim_eq_ok_iff : encode_claim operation_id request = .ok claim ↔
    Canonical (claim_obj operation_id request) ∧ utf8 (dumps false (claim_obj operation_id request)) = claim := by
  rw [encode_claim, bind_eq_ok_iff]
  simp only [canonical_text_eq_ok_iff, pure_eq_ok_iff]
  constructor
  · rintro ⟨_, ⟨hcanonical, rfl⟩, hclaim⟩
    exact ⟨hcanonical, hclaim⟩
  · rintro ⟨hcanonical, hclaim⟩
    exact ⟨_, ⟨hcanonical, rfl⟩, hclaim⟩

/-- A claim that is cut short is not decoded. -/
theorem decode_claim_of_isPrefix {found : RootClaim} (hclaim : encode_claim operation_id request = .ok claim)
    (hstart : data <+: claim) (h : decode_claim data = .ok found) : data = claim := by
  obtain ⟨members, hplain, rfl⟩ := written_of_decode_claim h
  obtain ⟨_, rfl⟩ := encode_claim_eq_ok_iff.mp hclaim
  obtain ⟨members', hobj, hplain'⟩ := plain_claim_obj operation_id request
  obtain ⟨rest, heq⟩ := isPrefix_toList_of_utf8 hstart
  obtain ⟨sorted, hsorted⟩ : ∃ sorted, sort_keys (.obj members) = .obj sorted := ⟨_, rfl⟩
  rw [dumps, dumps, String.toList_ofList, String.toList_ofList, hsorted] at heq
  have hrest := eq_of_write_append (hsorted ▸ hplain.sort_keys) (hobj ▸ hplain'.sort_keys) heq
  rw [hrest, List.append_nil] at heq
  rw [dumps, dumps, hsorted, heq]

omit [Sha256] in
theorem canonical_hex {text : String} (h : ∀ c ∈ text.toList, is_lower_hex c = true) : Canonical (.str text) := by
  refine .str fun hnul => ?_
  exact absurd (h _ hnul) (by decide)

/-- The text that a request was made of, and its digest. -/
structure OperationRequest.Sound (request : OperationRequest) : Prop where
  decoded : ∃ value, ∀ fault label, decode_canonical (utf8 request.operation_json) fault label = .ok value
  digest : Sha256.hexdigest (utf8 request.operation_json) = request.operation_hash

theorem sound_of_request {value : Json} (hplain : Plain value) (h : OperationRequest.of value = .ok request) :
    request.Sound := by
  obtain ⟨text, htext, h⟩ := bind_eq_ok_iff.mp h
  obtain rfl := pure_eq_ok_iff.mp h
  exact ⟨⟨_, decode_canonical_written hplain htext⟩, rfl⟩

/-- The claim of a request is written, whatever operation it is for. -/
theorem encode_claim_total {value : Json} (hplain : Plain value) (h : OperationRequest.of value = .ok request)
    (hoperation : is_operation_id operation_id = true) (hhex : Hexadecimal) :
    ∃ claim, encode_claim operation_id request = .ok claim := by
  obtain ⟨text, htext, h⟩ := bind_eq_ok_iff.mp h
  obtain rfl := pure_eq_ok_iff.mp h
  obtain ⟨_, rfl⟩ := canonical_text_eq_ok_iff.mp htext
  refine ⟨_, encode_claim_eq_ok_iff.mpr ⟨?_, rfl⟩⟩
  have hid : Canonical (.str operation_id) := by
    refine canonical_hex ?_
    simp only [is_operation_id, Bool.and_eq_true, List.all_eq_true] at hoperation
    exact hoperation.1
  have hdigest : Canonical (.str (Sha256.hexdigest (utf8 (dumps false value)))) := by
    refine canonical_hex ?_
    have hhash := hhex (utf8 (dumps false value))
    simp only [is_hex_digest, is_hex_text, Bool.and_eq_true, List.all_eq_true] at hhash
    exact hhash.1
  refine .obj ?_
  simp only [List.forall_mem_cons, List.not_mem_nil, false_implies, implies_true, and_true]
  exact ⟨.str (by decide), hid, hdigest, canonical_dumps hplain⟩

/-- The claim of a sound request is decoded to what it was made of. -/
theorem decode_encode_claim (hclaim : encode_claim operation_id request = .ok claim) (hsound : request.Sound)
    (hoperation : is_operation_id operation_id = true) (hhex : Hexadecimal) :
    decode_claim claim = .ok ⟨operation_id, request.operation_hash, request.operation_json⟩ := by
  obtain ⟨hcanonical, rfl⟩ := encode_claim_eq_ok_iff.mp hclaim
  obtain ⟨members, hobj, hplain⟩ := plain_claim_obj operation_id request
  have htext : canonical_text (claim_obj operation_id request) = .ok (dumps false (claim_obj operation_id request)) :=
    canonical_text_eq_ok_iff.mpr ⟨hcanonical, rfl⟩
  have hdecode := decode_canonical_written (hobj ▸ hplain) htext invalid_fault "root claim"
  obtain ⟨value, hvalue⟩ := hsound.decoded
  have hhash : is_hex_digest request.operation_hash = true := by
    rw [← hsound.digest]
    exact hhex _
  obtain ⟨sorted, hsort, hsorted⟩ := sorted_obj
    [("domain", .str CLAIM_DOMAIN), ("operation_id", .str operation_id), ("request_hash", .str request.operation_hash),
     ("request_json", .str request.operation_json)]
    (by decide : ["domain", "operation_id", "request_hash", "request_json"].Nodup)
  rw [claim_obj, hsort] at hdecode
  have hmember : ∀ key text, (key, Json.str text) ∈ [("domain", Json.str CLAIM_DOMAIN),
      ("operation_id", .str operation_id), ("request_hash", .str request.operation_hash),
      ("request_json", .str request.operation_json)] → chain.member sorted key = .str text := by
    intro key text hmem
    rw [chain.member, hsorted.lookup key _ hmem]
    rfl
  have hdomain : claim_text sorted "domain" (fun domain => domain = CLAIM_DOMAIN) "root claim carries the wrong domain" =
      .ok CLAIM_DOMAIN := claim_text_eq_ok_iff.mpr ⟨hmember "domain" CLAIM_DOMAIN (by simp), decide_eq_true rfl⟩
  have hid : claim_text sorted "operation_id" is_operation_id "root claim operation_id is malformed" = .ok operation_id :=
    claim_text_eq_ok_iff.mpr ⟨hmember "operation_id" operation_id (by simp), hoperation⟩
  have hdigest : claim_text sorted "request_hash" is_hex_digest "root claim request_hash is malformed" =
      .ok request.operation_hash := claim_text_eq_ok_iff.mpr ⟨hmember "request_hash" _ (by simp), hhash⟩
  have hjson : claim_text sorted "request_json" (fun _ => true) "root claim request_json must be a string" =
      .ok request.operation_json := claim_text_eq_ok_iff.mpr ⟨hmember "request_json" _ (by simp), rfl⟩
  have hfields : require_valid (set_eq (sorted.map Prod.fst) ["domain", "operation_id", "request_hash", "request_json"])
      "root claim has missing or unexpected fields" = .ok () := require_of hsorted.keys
  have hnames : require_valid (Sha256.hexdigest (utf8 request.operation_json) = request.operation_hash)
      "root claim request_hash does not name its request bytes" = .ok () := require_of hsound.digest
  rw [claim_obj, decode_claim, hdecode]
  simp only [ok_bind, hfields, hdomain, hid, hdigest, hjson, hnames, hvalue]
  rfl

end

end atoms.coordinator
