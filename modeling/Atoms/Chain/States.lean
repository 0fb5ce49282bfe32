import Atoms.Chain.Codec
import Atoms.Core.Compiler.Phases

open atoms.errors atoms.fingerprint atoms.identifiers atoms.paths checked keyed

namespace atoms.chain

/-! Canonical numbers. -/

theorem digitChar_range : ∀ base ≤ 10, ∀ digit < base,
    ('0' ≤ Nat.digitChar digit ∧ Nat.digitChar digit ≤ Nat.digitChar (base - 1)) ∧
      (digit = 0 ∨ '1' ≤ Nat.digitChar digit) := by decide

/-- The digits of a number are in range, and the first of them is no zero unless the number is. -/
theorem toDigits_range {base : Nat} (hlow : 1 < base) (hhigh : base ≤ 10) (value : Nat) :
    (∀ c ∈ Nat.toDigits base value, '0' ≤ c ∧ c ≤ Nat.digitChar (base - 1)) ∧
      (value = 0 ∨ ∀ c, (Nat.toDigits base value).head? = some c → '1' ≤ c) := by
  induction value using Nat.strongRecOn with
  | ind value ih =>
    rw [Nat.toDigits_eq_if hlow]
    by_cases hlt : value < base
    · obtain ⟨hrange, hfirst⟩ := digitChar_range base hhigh value hlt
      simp only [if_pos hlt, List.mem_singleton, List.head?_cons, Option.some.injEq, forall_eq, forall_eq']
      exact ⟨hrange, hfirst⟩
    · have hmod : value % base < base := Nat.mod_lt _ (by omega)
      obtain ⟨hrange, _⟩ := digitChar_range base hhigh (value % base) hmod
      obtain ⟨hdigits, hfirst⟩ := ih (value / base) (Nat.div_lt_self (by omega) hlow)
      have hpos : value / base ≠ 0 := Nat.div_ne_zero_iff.mpr ⟨by omega, by omega⟩
      rw [if_neg hlt, List.head?_append_of_ne_nil _ Nat.toDigits_ne_nil]
      refine ⟨fun c hc => ?_, .inr (hfirst.resolve_left hpos)⟩
      rcases List.mem_append.mp hc with hc | hc
      · exact hdigits c hc
      · rw [List.mem_singleton.mp hc]
        exact hrange

theorem is_canonical_toDigits {base : Nat} (hlow : 1 < base) (hhigh : base ≤ 10) (value : Nat) :
    is_canonical (Nat.digitChar (base - 1)) (Nat.toDigits base value) = true := by
  obtain ⟨hdigits, hfirst⟩ := toDigits_range hlow hhigh value
  simp only [is_canonical, decide_eq_true_eq, List.all_eq_true]
  by_cases hzero : value = 0
  · left
    rw [hzero, Nat.toDigits_zero]
  · right
    cases hcases : Nat.toDigits base value with
    | nil => exact absurd hcases Nat.toDigits_ne_nil
    | cons c rest =>
      rw [hcases] at hdigits hfirst
      refine ⟨?_, fun d hd => hdigits d hd⟩
      rw [List.head?_cons, Option.any_some, decide_eq_true_eq]
      exact ⟨hfirst.resolve_left hzero c rfl, (hdigits c List.mem_cons_self).2⟩

theorem require_mode_oct {mode : Int} (hlow : 0 ≤ mode) (hhigh : mode ≤ MAX_MODE) (fault : Fault) (label : String) :
    require_mode (oct mode) fault label = .ok mode := by
  have hbound : mode.toNat ≤ MAX_MODE := by omega
  have hlength : (Nat.toDigits 8 mode.toNat).length ≤ 4 :=
    (Nat.length_toDigits_le_iff (by omega) (by omega)).mpr (by unfold MAX_MODE at hbound; omega)
  have hlist : (oct mode).toList = '0' :: 'o' :: Nat.toDigits 8 mode.toNat := by rw [oct, String.toList_ofList]
  have hstarts : starts_with "0o" (oct mode) = true := by
    rw [starts_with, hlist]
    rfl
  have hparsed : Nat.ofDigitChars 8 (Nat.toDigits 8 mode.toNat) 0 = mode.toNat :=
    Nat.ofDigitChars_toDigits (by omega) (by omega)
  have hsize : (oct mode).toList.length ≤ 6 ∧ is_canonical '7' (Nat.toDigits 8 mode.toNat) = true := by
    refine ⟨?_, is_canonical_toDigits (by omega) (by omega) _⟩
    rw [hlist, List.length_cons, List.length_cons]
    omega
  have hdrop : (oct mode).toList.drop 2 = Nat.toDigits 8 mode.toNat := by rw [hlist]; rfl
  have hvalue : ((mode.toNat : Nat) : Int) = mode := Int.toNat_of_nonneg hlow
  simp only [require_mode, hstarts, if_true, hdrop, hparsed, require_of hsize, require_of hbound, ok_bind, hvalue]
  rfl

theorem require_decimal_toString {value : Int} (hlow : 0 ≤ value) (hhigh : value ≤ MAX_INTEGER) (fault : Fault)
    (label : String) : require_decimal (toString value) fault label = .ok value := by
  obtain ⟨number, rfl⟩ := Int.eq_ofNat_of_zero_le hlow
  have hbound : number ≤ MAX_INTEGER := by omega
  have hlist : (toString (number : Int)).toList = Nat.toDigits 10 number := by
    have htext : toString (number : Int) = toString number := rfl
    rw [htext, Nat.toString_eq_ofList_toDigits, String.toList_ofList]
  have hlength : (toString (number : Int)).toList.length ≤ 19 := by
    rw [hlist]
    exact (Nat.length_toDigits_le_iff (by omega) (by omega)).mpr (by unfold MAX_INTEGER at hbound; omega)
  have hcanonical : is_canonical '9' (toString (number : Int)).toList = true := by
    rw [hlist]
    exact is_canonical_toDigits (by omega) (by omega) number
  have hparsed : Nat.ofDigitChars 10 (toString (number : Int)).toList 0 = number := by
    rw [hlist, Nat.ofDigitChars_ten_toDigits]
  simp only [require_decimal, require_of hlength, require_of hcanonical, hparsed, require_of hbound, ok_bind]
  rfl

/-! Path states. -/

variable [UnicodeData]

/-- The states that a compiled spec may declare. -/
def Fingerprinted (state : PathState) : Prop := ∃ what, compiler.require_fingerprint what state = .ok ()

theorem Fingerprinted.absent : Fingerprinted ABSENT := ⟨"", rfl⟩

/-- A state that compiles is written as facts that are read back as the state. -/
theorem state_to_json_written {state : PathState} (h : Fingerprinted state) :
    ∃ facts, state_to_json state = .ok facts ∧
      ∀ fault label, state_from_json facts fault label = .ok state := by
  obtain ⟨what, h⟩ := h
  -- The facts are read back wherever they are checked, so also by the writer itself.
  have hwritten : ∀ facts, state_facts state = .ok facts → (∀ fault label, state_from_json facts fault label = .ok state) →
      ∃ facts, state_to_json state = .ok facts ∧ ∀ fault label, state_from_json facts fault label = .ok state := by
    intro facts hfacts hread
    refine ⟨facts, ?_, hread⟩
    simp only [state_to_json, hfacts, ok_bind, hread]
    cases state <;> rfl
  cases state with
  | AbsentState =>
    refine hwritten _ rfl fun fault label => ?_
    rfl
  | FileState state =>
    simp only [compiler.require_fingerprint, compiler.require_mode, bind_eq_ok_iff, require_eq_ok_iff] at h
    obtain ⟨_, hhash, _, hlen, _, hempty, hmode⟩ := h
    obtain ⟨hdigest, hhex⟩ := sha256_digest_eq hhash
    refine hwritten [("kind", "file"), ("content_hash", String.ofList (state.content_hash.toList.drop 7)),
      ("mode", oct state.mode), ("byte_len", toString state.byte_len)] ?_ fun fault label => ?_
    · simp only [state_facts, require_mode_range, require_of hhash, ok_bind]
      rw [require_of (show 0 ≤ state.mode ∧ state.mode ≤ MAX_MODE from hmode),
        require_of (show 0 ≤ state.byte_len ∧ state.byte_len ≤ MAX_INTEGER from hlen)]
      rfl
    · have hkind : fact [("kind", "file"), ("content_hash", String.ofList (state.content_hash.toList.drop 7)),
          ("mode", oct state.mode), ("byte_len", toString state.byte_len)] "kind" = "file" := rfl
      have hcontent : fact [("kind", "file"), ("content_hash", String.ofList (state.content_hash.toList.drop 7)),
          ("mode", oct state.mode), ("byte_len", toString state.byte_len)] "content_hash" =
          String.ofList (state.content_hash.toList.drop 7) := rfl
      have hmode_fact : fact [("kind", "file"), ("content_hash", String.ofList (state.content_hash.toList.drop 7)),
          ("mode", oct state.mode), ("byte_len", toString state.byte_len)] "mode" = oct state.mode := rfl
      have hlen_fact : fact [("kind", "file"), ("content_hash", String.ofList (state.content_hash.toList.drop 7)),
          ("mode", oct state.mode), ("byte_len", toString state.byte_len)] "byte_len" = toString state.byte_len := rfl
      have hhex' : is_hex_digest (String.ofList (state.content_hash.toList.drop 7)) = true := by
        rw [is_hex_digest, String.toList_ofList]
        exact hhex
      have hempty' : String.ofList (state.content_hash.toList.drop 7) = EMPTY_HASH ↔ state.byte_len = 0 := by
        rw [← hempty]
        constructor
        · intro heq
          rw [← hdigest, heq]
          rfl
        · intro heq
          rw [heq]
          rfl
      simp only [state_from_json, hkind, hcontent, hmode_fact, hlen_fact, require_digest, require_of hhex',
        require_mode_oct hmode.1 hmode.2, require_decimal_toString hlen.1 hlen.2, require_of hempty', ok_bind, hdigest]
      rfl
  | SymlinkState state =>
    simp only [compiler.require_fingerprint, compiler.require_mode, bind_eq_ok_iff, require_eq_ok_iff] at h
    obtain ⟨_, hne, _, hnul, hmode⟩ := h
    have htarget : ∀ fault label, require_target state.target fault label = .ok () := by
      intro fault label
      simp only [require_target, require_of hne, require_of hnul, ok_bind]
    refine hwritten [("kind", "symlink"), ("target", state.target), ("mode", oct state.mode)] ?_ fun fault label => ?_
    · simp only [state_facts, require_mode_range, htarget]
      rw [require_of (show 0 ≤ state.mode ∧ state.mode ≤ MAX_MODE from hmode)]
      rfl
    · have hkind : fact [("kind", "symlink"), ("target", state.target), ("mode", oct state.mode)] "kind" = "symlink" := rfl
      have htarget_fact : fact [("kind", "symlink"), ("target", state.target), ("mode", oct state.mode)] "target" =
          state.target := rfl
      have hmode_fact : fact [("kind", "symlink"), ("target", state.target), ("mode", oct state.mode)] "mode" =
          oct state.mode := rfl
      simp only [state_from_json, hkind, htarget_fact, hmode_fact, htarget, require_mode_oct hmode.1 hmode.2, ok_bind]
      rfl
  | DirectoryState state =>
    have hmode : 0 ≤ state.mode ∧ state.mode ≤ MAX_MODE := require_eq_ok_iff.mp h
    refine hwritten [("kind", "directory"), ("mode", oct state.mode)] ?_ fun fault label => ?_
    · simp only [state_facts, require_mode_range]
      rw [require_of (show 0 ≤ state.mode ∧ state.mode ≤ MAX_MODE from hmode)]
      rfl
    · have hkind : fact [("kind", "directory"), ("mode", oct state.mode)] "kind" = "directory" := rfl
      have hmode_fact : fact [("kind", "directory"), ("mode", oct state.mode)] "mode" = oct state.mode := rfl
      simp only [state_from_json, hkind, hmode_fact, require_mode_oct hmode.1 hmode.2, ok_bind]
      rfl

end atoms.chain
