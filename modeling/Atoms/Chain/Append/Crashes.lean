import Atoms.Chain.Append.Survivors

open atoms.errors atoms.identifiers atoms.fs checked keyed crash

namespace atoms.chain

section

variable [UnicodeData] [Sha256]

/-- What kills of one append, and of any number of passes after it, may leave. -/
inductive Crashed (fd : Inode) (validated : ValidatedChain) (entry : Entry) (d : Disk) : Disk → Prop
  | start : Crashed fd validated entry d d
  | append_killed {t : Disk} : (append_entry fd validated entry).Passes d t → Crashed fd validated entry d t
  | append_ended : Crashed fd validated entry d (append_entry fd validated entry d).final
  | pass_killed {t t' : Disk} (planned : List (List UInt8)) :
    Crashed fd validated entry d t → (repair fd planned).Passes t t' → Crashed fd validated entry d t'
  | pass_ended {t : Disk} (planned : List (List UInt8)) :
    Crashed fd validated entry d t → Crashed fd validated entry d (repair fd planned t).final

variable {d t : Disk} {fd : Inode} {rows : List Row} {entry : Entry} {envelope : List UInt8} {validated : ValidatedChain}

/-- An entry that cannot be written changes nothing. -/
theorem append_entry_refused {I : Disk → Prop} {e : Raised} (h : Directory d fd rows none) (hvalid : Valid rows)
    (hencode : encode_entry (last_digest none rows) entry = .error e) (validated : ValidatedChain) :
    (append_entry fd validated entry).Ensures d I (Prog.ends (fun _ _ => False) fun t => t = d) := by
  unfold append_entry
  refine .read_bind (fun _ _ => .guard_bind (fun _ => .read_bind (fun found hfound => ?_) fun _ _ => rfl) fun _ => rfl)
    fun _ _ => rfl
  refine (validate_chain_nil h hvalid).ensures_bind (.guard_bind (fun hsame => ?_) fun _ => rfl)
  rw [← hsame, hencode] at hfound
  cases hfound

/-- An append of an entry that cannot be written, and the passes after it, change nothing. -/
theorem Crashed.refused {e : Raised} (h : Crashed fd validated entry d t) (hstart : Published fd rows d)
    (hvalid : Valid rows) (hencode : encode_entry (last_digest none rows) entry = .error e) : Published fd rows t := by
  have hrefused := append_entry_refused (I := Published fd rows) hstart.directory hvalid hencode validated
  induction h with
  | start => exact hstart
  | append_killed hpasses => exact hrefused.passes hpasses
  | append_ended =>
    rcases hrefused.cases with ⟨_, _, hfalse⟩ | ⟨_, _, hend⟩
    · exact hfalse.elim
    · rw [hend]
      exact hstart
  | pass_killed planned _ hpasses ih => exact (repair_published ih hvalid planned).passes hpasses
  | pass_ended planned _ ih =>
    rcases (repair_published (I := Published fd rows) ih hvalid planned).cases with
      ⟨_, _, _, hend⟩ | ⟨_, _, hend, _⟩
    · rw [hend]
      exact ih
    · rw [hend]
      exact ih

/-- What an append and the passes after it may have left. -/
theorem Crashed.left (h : Crashed fd validated entry d t) (hstart : Published fd rows d) (hvalid : Valid rows)
    (hhex : Hexadecimal) (hencode : encode_entry (last_digest none rows) entry = .ok envelope)
    (hnew : entry_digest envelope ∉ rows.map Row.digest) (hnext : Valid (rows ++ [next_row rows entry envelope])) :
    Unpublished fd rows envelope t ∨ Published fd (rows ++ [next_row rows entry envelope]) t := by
  have happend := append_entry_ensures hstart.directory hvalid hstart.numbered hhex validated hencode
  have hsound := sound_next_row hhex hencode
  induction h with
  | start => exact .inl (hstart.unpublished envelope)
  | append_killed hpasses => exact happend.passes hpasses
  | append_ended =>
    rcases happend.cases with ⟨_, _, _, hpublished⟩ | ⟨_, _, hunpublished, _⟩
    · exact .inr hpublished
    · exact .inl hunpublished
  | pass_killed planned _ hpasses ih =>
    cases ih with
    | inl hunpublished => exact (repair_ensures hunpublished hvalid hencode hsound hnew hnext planned).passes hpasses
    | inr hpublished => exact .inr ((repair_published hpublished hnext planned).passes hpasses)
  | pass_ended planned _ ih =>
    cases ih with
    | inl hunpublished =>
      rcases (repair_ensures hunpublished hvalid hencode hsound hnew hnext planned).cases with
        ⟨_, _, ⟨_, hold⟩ | ⟨_, hpublished⟩⟩ | ⟨_, _, hend, _⟩
      · exact .inl (hold.unpublished envelope)
      · exact .inr hpublished
      · rw [hend]
        exact .inl hunpublished
    | inr hpublished =>
      have hpass := repair_published (I := fun _ => True) hpublished hnext planned
      rcases hpass.cases with ⟨_, _, _, hend⟩ | ⟨_, _, hend, _⟩
      · rw [hend]
        exact .inr hpublished
      · rw [hend]
        exact .inr hpublished

theorem Directory.validates {staged : Option (List UInt8)} (h : Directory t fd rows staged) (hvalid : Valid rows) :
    (validate_chain fd []).Completes t
      ⟨rows.map Row.link, last_digest none rows, (t.lookup fd STAGING_LEAF).map fun _ => .REMOVE⟩ t := by
  have hstage := h.stage
  refine ⟨[], (validate_chain_nil h hvalid).trans ?_⟩
  have hsurvivor : (staged.map fun _ => SurvivorAction.REMOVE) = (t.lookup fd STAGING_LEAF).map fun _ => .REMOVE := by
    cases hlookup : t.lookup fd STAGING_LEAF <;> cases staged <;> simp_all [leaf]
  rw [hsurvivor]

end

/-! A chain of one genesis. -/

section

/-- The Unicode database on the fixed inputs below. -/
@[reducible] def plain_text : UnicodeData where
  nfc := id
  nfd := id
  casefold := id
  is_printable _ := true

attribute [local instance] plain_text

def genesis_entry : Entry := .GenesisEntry { payload := [], baseline := [] }

def genesis_envelope : List UInt8 := canonical_bytes (.obj [("class", .str "genesis"), ("previous", .null),
  ("payload", payload_obj []), ("baseline", .arr [])])

def zeros : String := String.ofList (List.replicate 64 '0')

def ones : String := String.ofList (List.replicate 64 '1')

/-- A digest that tells the genesis from everything else. -/
@[reducible] def genesis_digest : Sha256 where
  hexdigest data := if data = genesis_envelope then zeros else ones

attribute [local instance] genesis_digest

def genesis_row : Row := ⟨zeros, none, genesis_entry, genesis_envelope⟩

def genesis_chain : ValidatedChain := ⟨[(zeros, genesis_entry)], some zeros, none⟩

def genesis_disk : Disk where
  entries := ⟨[], [((0, zeros), some ⟨.file, 1⟩)]⟩
  contents := ⟨[], [(1, genesis_envelope)]⟩
  modes := ⟨[], []⟩
  next := 2
  umask := 0o022
  short_writes := []

theorem hexdigest_eq (data : List UInt8) :
    Sha256.hexdigest data = if data = genesis_envelope then zeros else ones := rfl

theorem entry_digest_other {data : List UInt8} (h : data ≠ genesis_envelope) : entry_digest data = ones := by
  rw [entry_digest, hexdigest_eq, if_neg h]

theorem hexadecimal_genesis_digest : Hexadecimal := by
  intro data
  rw [hexdigest_eq]
  by_cases heq : data = genesis_envelope
  · rw [if_pos heq]
    decide
  · rw [if_neg heq]
    decide

theorem lookup_genesis_disk (parent : Inode) (name : String) :
    genesis_disk.lookup parent name = if (0, zeros) = (parent, name) then some ⟨.file, 1⟩ else none := rfl

theorem numbered_genesis_disk : genesis_disk.Numbered := by
  intro parent name entry hentry
  rw [lookup_genesis_disk] at hentry
  split at hentry
  · cases hentry
    decide
  · cases hentry

theorem encode_genesis : encode_entry none genesis_entry = .ok genesis_envelope := rfl

theorem directory_genesis_disk : Directory genesis_disk 0 [genesis_row] none where
  nodup := List.nodup_singleton _
  sound row hrow := by
    rw [List.mem_singleton.mp hrow]
    refine ⟨by decide, ?_, decode_encode_entry encode_genesis⟩
    rw [entry_digest, hexdigest_eq]
    exact if_pos rfl
  stage := rfl
  named row hrow := by
    rw [List.mem_singleton.mp hrow]
    rfl
  only name hname := by
    rw [leaf, lookup_genesis_disk] at hname
    split at hname
    · rename_i heq
      exact .inr (List.mem_singleton.mpr (Prod.mk.inj heq).2.symm)
    · cases hname

theorem valid_genesis : Valid [genesis_row] := ⟨⟨rfl, trivial⟩, _, rfl⟩

theorem validates_genesis_disk : (validate_chain 0 []).Completes genesis_disk genesis_chain genesis_disk :=
  ⟨[], validate_chain_nil directory_genesis_disk valid_genesis⟩

/-- What is written after a genesis is not the genesis. -/
theorem digest_after_genesis {previous : String} {entry : Entry} {envelope : List UInt8}
    (hencode : encode_entry (some previous) entry = .ok envelope) : entry_digest envelope = ones := by
  refine entry_digest_other fun heq => ?_
  have hdecode := decode_encode_entry hencode
  rw [heq, decode_encode_entry encode_genesis] at hdecode
  cases hdecode

def intent_entry : Entry := .IntentEntry { payload := [1, 2, 3] }

end

end atoms.chain
