import Atoms.Core.Errors
import Atoms.Library.Checked

open atoms.errors checked

namespace atoms.identifiers

/-- A character of the class `[A-Za-z0-9_-]`. -/
def is_safe_char (c : Char) : Bool :=
  ('A' ≤ c && c ≤ 'Z') || ('a' ≤ c && c ≤ 'z') || ('0' ≤ c && c ≤ '9') || c == '_' || c == '-'

/-- The bounded safe-identifier grammar `^[A-Za-z0-9_-]{1,64}$`. -/
def is_valid_identifier (value : String) : Bool :=
  value.toList.all is_safe_char && 1 ≤ value.toList.length && value.toList.length ≤ 64

def require_valid_identifier [UnicodeData] (kind value : String) : Except AtomsError Unit :=
  require (is_valid_identifier value) (.SpecValidationError
    (kind ++ " " ++ py_repr value ++ " is not a valid identifier: expected 1–64 chars of [A-Za-z0-9_-]"))

/-- A character of the class `[0-9a-f]`. -/
def is_lower_hex (c : Char) : Bool := ('0' ≤ c && c ≤ '9') || ('a' ≤ c && c ≤ 'f')

/-- Text of the grammar `[0-9a-f]{64}`. -/
def is_hex_text (text : List Char) : Bool := text.all is_lower_hex && text.length == 64

/-- The digest grammar `^[0-9a-f]{64}$`. -/
def is_hex_digest (value : String) : Bool := is_hex_text value.toList

/-- The digest grammar `^sha256:[0-9a-f]{64}$`. -/
def is_sha256_digest (value : String) : Bool :=
  "sha256:".toList.isPrefixOf value.toList && is_hex_text (value.toList.drop 7)

/-- A digest with the name of its algorithm is that name and the rest. -/
theorem sha256_digest_eq {digest : String} (h : is_sha256_digest digest = true) :
    "sha256:" ++ String.ofList (digest.toList.drop 7) = digest ∧ is_hex_text (digest.toList.drop 7) = true := by
  rw [is_sha256_digest, Bool.and_eq_true, List.isPrefixOf_iff_prefix] at h
  obtain ⟨⟨rest, hrest⟩, hhex⟩ := h
  refine ⟨?_, hhex⟩
  have hdrop : digest.toList.drop 7 = rest := by rw [← hrest]; exact List.drop_left' rfl
  rw [← String.toList_inj, hdrop, String.toList_append, ← hrest]
  simp only [String.toList_ofList]

end atoms.identifiers
