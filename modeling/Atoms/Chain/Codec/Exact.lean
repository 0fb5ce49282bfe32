import Atoms.Chain.Codec

open atoms.errors atoms.paths checked json

namespace atoms.chain

/-! The codec raises its own class of error only. -/

section

variable {fault : Fault}

theorem raised_require {condition : Prop} [Decidable condition] (message : String) :
    RaisesOnly (∃ message, · = fault message) (require condition (fault message)) :=
  raises_only_require ⟨message, rfl⟩

theorem raised_throw {α : Type} (message : String) :
    RaisesOnly (∃ message, · = fault message) (throw (fault message) : Except Raised α) :=
  raises_only_throw ⟨message, rfl⟩

theorem string_from_obj_raises (value : Json) (label : String) :
    RaisesOnly (∃ message, · = fault message) (string_from_obj value fault label) := by
  cases value with
  | str text => exact raises_only_pure text
  | _ => exact raised_throw _

theorem require_mode_raises (value label : String) :
    RaisesOnly (∃ message, · = fault message) (require_mode value fault label) :=
  raises_only_bind (raised_require _) fun _ => raises_only_bind (raised_require _) fun _ => raises_only_pure _

theorem require_decimal_raises (value label : String) :
    RaisesOnly (∃ message, · = fault message) (require_decimal value fault label) :=
  raises_only_bind (raised_require _) fun _ => raises_only_bind (raised_require _) fun _ =>
    raises_only_bind (raised_require _) fun _ => raises_only_pure _

theorem require_target_raises (value label : String) :
    RaisesOnly (∃ message, · = fault message) (require_target value fault label) :=
  raises_only_bind (raised_require _) fun _ => raised_require _

theorem state_from_json_raises (facts : PathStateJSON) (label : String) :
    RaisesOnly (∃ message, · = fault message) (state_from_json facts fault label) := by
  refine raises_only_bind (raised_require _) fun _ => ?_
  dsimp only
  split
  · exact raises_only_bind (raised_require _) fun _ => raises_only_pure _
  split
  · refine raises_only_bind (raised_require _) fun _ => ?_
    refine raises_only_bind (raised_require _) fun _ => ?_
    refine raises_only_bind (require_mode_raises _ _) fun _ => ?_
    refine raises_only_bind (require_decimal_raises _ _) fun _ => ?_
    exact raises_only_bind (raised_require _) fun _ => raises_only_pure _
  split
  · refine raises_only_bind (raised_require _) fun _ => ?_
    refine raises_only_bind (require_target_raises _ _) fun _ => ?_
    exact raises_only_bind (require_mode_raises _ _) fun _ => raises_only_pure _
  split
  · refine raises_only_bind (raised_require _) fun _ => ?_
    exact raises_only_bind (require_mode_raises _ _) fun _ => raises_only_pure _
  · exact raised_throw _

theorem pairs_from_obj_raises (label : String) (pairs : List Json) (index : Nat) :
    RaisesOnly (∃ message, · = fault message) (pairs_from_obj fault label index pairs) := by
  fun_induction pairs_from_obj fault label index pairs with
  | case1 => exact raises_only_pure _
  | case2 index key value rest ih =>
    refine raises_only_bind (string_from_obj_raises _ _) fun _ => ?_
    refine raises_only_bind (string_from_obj_raises _ _) fun _ => ?_
    exact raises_only_bind ih fun _ => raises_only_pure _
  | case3 => exact raised_throw _

theorem surface_item_from_obj_raises (label : String) (value : Json) :
    RaisesOnly (∃ message, · = fault message) (surface_item_from_obj fault label value) := by
  unfold surface_item_from_obj
  split
  · refine raises_only_bind (pairs_from_obj_raises _ _ _) fun _ => ?_
    exact raises_only_bind (string_from_obj_raises _ _) fun _ => raises_only_pure _
  · exact raised_throw _
  · exact raised_throw _

theorem surface_items_from_obj_raises (label : String) (items : List Json) (index : Nat) :
    RaisesOnly (∃ message, · = fault message) (surface_items_from_obj fault label index items) := by
  induction items generalizing index with
  | nil => exact raises_only_pure _
  | cons item rest ih =>
    refine raises_only_bind (surface_item_from_obj_raises _ _) fun _ => ?_
    exact raises_only_bind (ih _) fun _ => raises_only_pure _

theorem payload_from_obj_raises (value : Json) (label : String) :
    RaisesOnly (∃ message, · = fault message) (payload_from_obj value fault label) := by
  refine raises_only_bind (string_from_obj_raises _ _) fun text => ?_
  split
  · exact raised_throw _
  · exact raises_only_bind (raised_require _) fun _ => raises_only_pure _

theorem require_previous_raises (previous : Option String) :
    RaisesOnly (∃ message, · = fault message) (require_previous previous fault) := by
  cases previous with
  | none => exact raised_throw _
  | some digest => exact raised_require _

variable [UnicodeData]

theorem require_path_raises (value label : String) :
    RaisesOnly (∃ message, · = fault message) (require_path value fault label) := by
  unfold require_path
  split
  · exact raises_only_pure _
  · exact raised_throw _

theorem require_surface_items_raises (label : String) (value : List (String × PathStateJSON)) (index : Nat) :
    RaisesOnly (∃ message, · = fault message) (require_surface_items fault label index value) := by
  induction value generalizing index with
  | nil => exact raises_only_pure _
  | cons item rest ih =>
    refine raises_only_bind (require_path_raises _ _) fun _ => ?_
    exact raises_only_bind (state_from_json_raises _ _) fun _ => ih _

theorem require_surface_raises (value : List (String × PathStateJSON)) (label : String) :
    RaisesOnly (∃ message, · = fault message) (require_surface value fault label) :=
  raises_only_bind (require_surface_items_raises _ _ _) fun _ =>
    raises_only_bind (raised_require _) fun _ => raised_require _

theorem surface_obj_raises (value : List (String × PathStateJSON)) (label : String) :
    RaisesOnly (∃ message, · = fault message) (surface_obj value fault label) :=
  raises_only_bind (require_surface_raises _ _) fun _ => raises_only_pure _

theorem surface_from_obj_raises (value : Json) (label : String) :
    RaisesOnly (∃ message, · = fault message) (surface_from_obj value fault label) := by
  unfold surface_from_obj
  split
  · refine raises_only_bind (surface_items_from_obj_raises _ _ _) fun _ => ?_
    exact raises_only_bind (require_surface_raises _ _) fun _ => raises_only_pure _
  · exact raised_throw _

theorem entry_obj_raises (previous : Option String) (entry : Entry) :
    RaisesOnly (∃ message, · = fault message) (entry_obj previous entry fault) := by
  cases entry with
  | GenesisEntry entry =>
    refine raises_only_bind (raised_require _) fun _ => ?_
    exact raises_only_bind (surface_obj_raises _ _) fun _ => raises_only_pure _
  | RegisteredEntry entry =>
    refine raises_only_bind (require_previous_raises _) fun _ => ?_
    refine raises_only_bind (raised_require _) fun _ => ?_
    refine raises_only_bind (raised_require _) fun _ => ?_
    refine raises_only_bind (raised_require _) fun _ => ?_
    refine raises_only_bind (raised_require _) fun _ => ?_
    refine raises_only_bind (surface_obj_raises _ _) fun _ => ?_
    exact raises_only_bind (surface_obj_raises _ _) fun _ => raises_only_pure _
  | SettledEntry entry =>
    refine raises_only_bind (require_previous_raises _) fun _ => ?_
    refine raises_only_bind (raised_require _) fun _ => ?_
    exact raises_only_bind (raised_require _) fun _ => raises_only_pure _
  | IntentEntry entry => exact raises_only_bind (require_previous_raises _) fun _ => raises_only_pure _

end

theorem optional_digest_raises (value : Json) (label : String) :
    RaisesOnly (∃ message, · = chain_fault message) (optional_digest value label) := by
  unfold optional_digest
  split
  · exact raises_only_pure _
  · refine raises_only_bind (string_from_obj_raises _ _) fun _ => ?_
    exact raises_only_bind (raised_require _) fun _ => raises_only_pure _

theorem chain_outcome_raises (value : String) : RaisesOnly (∃ message, · = chain_fault message) (chain_outcome value) := by
  unfold chain_outcome
  split
  · exact raises_only_pure _
  · exact raised_throw _

theorem decode_fields_raises [UnicodeData] (obj : List (String × Json)) (entry_class : String) :
    RaisesOnly (∃ message, · = chain_fault message) (decode_fields obj entry_class) := by
  have hprevious := fun (rest : Option String → Except Raised (Option String × Entry)) => raises_only_bind (f := rest)
    (optional_digest_raises (member obj "previous") "previous")
  unfold decode_fields
  split
  · refine raises_only_bind (raised_require _) fun _ => hprevious _ fun _ => ?_
    refine raises_only_bind (payload_from_obj_raises _ _) fun _ => ?_
    exact raises_only_bind (surface_from_obj_raises _ _) fun _ => raises_only_pure _
  split
  · refine raises_only_bind (raised_require _) fun _ => hprevious _ fun _ => ?_
    refine raises_only_bind (optional_digest_raises _ _) fun _ => ?_
    refine raises_only_bind (string_from_obj_raises _ _) fun _ => ?_
    refine raises_only_bind (string_from_obj_raises _ _) fun _ => ?_
    refine raises_only_bind (string_from_obj_raises _ _) fun _ => ?_
    refine raises_only_bind (surface_from_obj_raises _ _) fun _ => ?_
    exact raises_only_bind (surface_from_obj_raises _ _) fun _ => raises_only_pure _
  split
  · refine raises_only_bind (raised_require _) fun _ => hprevious _ fun _ => ?_
    refine raises_only_bind (string_from_obj_raises _ _) fun _ => ?_
    refine raises_only_bind (chain_outcome_raises _) fun _ => ?_
    refine raises_only_bind (string_from_obj_raises _ _) fun _ => ?_
    exact raises_only_bind (string_from_obj_raises _ _) fun _ => raises_only_pure _
  split
  · refine raises_only_bind (raised_require _) fun _ => hprevious _ fun _ => ?_
    exact raises_only_bind (payload_from_obj_raises _ _) fun _ => raises_only_pure _
  · exact raised_throw _

theorem load_envelope_raises [UnicodeData] (data : List UInt8) :
    RaisesOnly (∃ message, · = chain_fault message) (load_envelope data) := by
  unfold load_envelope
  split
  · exact raised_throw _
  split
  · exact raised_throw _
  · exact raised_throw _
  · exact raises_only_pure _
  · exact raised_throw _

/-- Whatever bytes it is given, `decode_entry` raises `ChainStateInvalid` only. -/
theorem decode_entry_raises [UnicodeData] (data : List UInt8) :
    RaisesOnly (∃ message, · = chain_fault message) (decode_entry data) := by
  refine raises_only_bind (load_envelope_raises data) fun obj => ?_
  refine raises_only_bind (string_from_obj_raises _ _) fun entry_class => ?_
  refine raises_only_bind (decode_fields_raises obj entry_class) fun result => ?_
  refine raises_only_bind (entry_obj_raises _ _) fun _ => ?_
  exact raises_only_bind (raised_require _) fun _ => raises_only_pure _

/-- The codec is a bijection between the linked entries that it writes and the bytes that it
reads, and refuses every other byte string in one way. -/
theorem entry_codec_exact [UnicodeData] :
    (∀ previous entry envelope,
      encode_entry previous entry = .ok envelope ↔ decode_entry envelope = .ok (previous, entry)) ∧
    (∀ previous previous' entry entry' envelope, encode_entry previous entry = .ok envelope →
      encode_entry previous' entry' = .ok envelope → previous = previous' ∧ entry = entry') ∧
    (∀ previous entry envelope envelope', decode_entry envelope = .ok (previous, entry) →
      decode_entry envelope' = .ok (previous, entry) → envelope = envelope') ∧
    ∀ envelope, (∃ previous entry, encode_entry previous entry = .ok envelope) ∨
      ∃ message, decode_entry envelope = .error (.ChainStateInvalid message) := by
  refine ⟨fun previous entry envelope => ⟨decode_encode_entry, encode_decode_entry⟩, ?_, ?_, ?_⟩
  · intro previous previous' entry entry' envelope h h'
    have heq := (decode_encode_entry h).symm.trans (decode_encode_entry h')
    exact Prod.mk.inj (Except.ok.inj heq)
  · intro previous entry envelope envelope' h h'
    exact Except.ok.inj ((encode_decode_entry h).symm.trans (encode_decode_entry h'))
  · intro envelope
    cases hdecode : decode_entry envelope with
    | ok result => exact .inl ⟨result.1, result.2, encode_decode_entry hdecode⟩
    | error e =>
      obtain ⟨message, rfl⟩ := decode_entry_raises envelope e hdecode
      exact .inr ⟨message, rfl⟩

end atoms.chain
