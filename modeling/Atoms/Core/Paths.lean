import Atoms.Core.Effects
import Atoms.Core.Identifiers

open atoms.errors atoms.effects atoms.identifiers checked

namespace atoms.paths

/-- The parts of a text between its `separator` characters, as `str.split` gives them. -/
def split (separator : Char) : List Char → List (List Char)
  | [] => [[]]
  | c :: rest =>
    if c = separator then [] :: split separator rest
    else match split separator rest with
      | [] => [[c]]
      | part :: parts => (c :: part) :: parts

/-- `value.split("/")`. -/
def components (value : RelPath) : List String := (split '/' value.toList).map String.ofList

def SCRATCH_SIGIL : String := ".#~"

/-- `value.startswith(prefix)`. -/
def starts_with (lead value : String) : Bool := lead.toList.isPrefixOf value.toList

variable [UnicodeData]

/-- Whether any case- or normalization-form of `leaf` begins with the sigil. -/
def aliases_scratch_sigil (leaf : String) : Bool :=
  [leaf, UnicodeData.nfc leaf, UnicodeData.nfd leaf, UnicodeData.casefold leaf].any (starts_with SCRATCH_SIGIL)

def require_rel_path (kind : String) (value : RelPath) : Except AtomsError Unit := do
  require (value ≠ "") (.SpecValidationError (kind ++ " may not be empty"))
  require (Char.ofNat 0 ∉ value.toList) (.SpecValidationError (kind ++ " " ++ py_repr value ++ " contains a NUL byte"))
  require (¬ starts_with "/" value)
    (.SpecValidationError (kind ++ " " ++ py_repr value ++ " must be project-relative, not absolute"))
  require (value.toList.getLast? ≠ some '/')
    (.SpecValidationError (kind ++ " " ++ py_repr value ++ " may not end with '/'"))
  (components value).forM fun component => do
    require (component ≠ "") (.SpecValidationError (kind ++ " " ++ py_repr value ++ " contains an empty component"))
    require (component ≠ "." ∧ component ≠ "..")
      (.SpecValidationError (kind ++ " " ++ py_repr value ++ " contains a " ++ py_repr component ++ " component"))
    require (¬ aliases_scratch_sigil component) (.SpecValidationError (kind ++ " " ++ py_repr value ++
      " contains component " ++ py_repr component ++ ", which aliases the reserved scratch sigil"))

/-- The compiler's fixed Unicode portability key for a path or effect ID. -/
def portability_equivalence_key (value : String) : String :=
  UnicodeData.nfc (UnicodeData.casefold (UnicodeData.nfc value))

end atoms.paths
