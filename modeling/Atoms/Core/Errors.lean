import Mathlib.Data.List.Basic

namespace atoms.errors

/-- The engine's error hierarchy, one constructor for each exception class that a modelled function raises. -/
inductive AtomsError
  | ProtocolError (message : String)
  | SpecValidationError (message : String)
  | ProjectApprovalRefused (message : String)
  | PreconditionRefused (message : String)
  | CapabilityUnavailable (message : String)
  | TransactionHalted (message : String)
  | PendingUnresolved (message : String)
  | RootOperationInvalid (message : String)
  | RootOperationMismatch (message : String)
  | SourceSnapshotMoved (message : String)
  deriving DecidableEq

/-- The error numbers that the engine's calls raise or its tables name. -/
inductive Errno
  | EPERM | ENOENT | EACCES | EBUSY | EEXIST | EXDEV | ENOTDIR | EISDIR | EINVAL | ENOTEMPTY | ELOOP | EOPNOTSUPP
  deriving DecidableEq

/-- What a program over the volume, the chain and the store may raise. -/
inductive Raised
  | OSError (errno : Errno)
  | IntegrityError (message : String)
  | EffectMismatch (operation slot : String) (errno : Option Errno)
  | MetadataStoreInvalid (message : String)
  | ChainStateInvalid (message : String)
  | AtomsError (error : AtomsError)
  /-- The interpreter's own bound on nested calls. -/
  | RecursionError
  | KeyError
  /-- `_NeedsSource` -/
  | NeedsSource
  deriving DecidableEq

/-- What the engine asks of the Unicode database: the two normal forms and the
case folding of a text, and the characters that `repr` prints unescaped. -/
class UnicodeData where
  nfc : String → String
  nfd : String → String
  casefold : String → String
  is_printable : Char → Bool

private def hex_digit (n : Nat) : Char := "0123456789abcdef".toList.getD n '0'

private def hex : (width n : Nat) → List Char
  | 0, _ => []
  | width + 1, n => hex width (n / 16) ++ [hex_digit (n % 16)]

private def quote : Char := Char.ofNat 39

variable [UnicodeData]

private def escape (delimiter c : Char) : List Char :=
  if c = delimiter ∨ c = '\\' then ['\\', c]
  else if c = '\t' then ['\\', 't']
  else if c = '\n' then ['\\', 'n']
  else if c = '\r' then ['\\', 'r']
  else if UnicodeData.is_printable c then [c]
  else if c.toNat ≤ 0xff then ['\\', 'x'] ++ hex 2 c.toNat
  else if c.toNat ≤ 0xffff then ['\\', 'u'] ++ hex 4 c.toNat
  else ['\\', 'U'] ++ hex 8 c.toNat

/-- `repr` of a text: quoted by single quotes unless it has one and no double quote. -/
def py_repr (value : String) : String :=
  let text := value.toList
  let delimiter := if quote ∈ text ∧ '"' ∉ text then '"' else quote
  String.ofList ([delimiter] ++ text.flatMap (escape delimiter) ++ [delimiter])

/-- `repr` of a list of texts. -/
def repr_list (values : List String) : String :=
  "[" ++ String.intercalate ", " (values.map py_repr) ++ "]"

end atoms.errors
