import Atoms.Core.Errors

open atoms.errors

namespace atoms.fingerprint

/-- A regular file: content hash, exact permission bits, and byte length. -/
structure FileState where
  content_hash : String
  mode : Int
  byte_len : Int
  deriving DecidableEq

/-- A directory with exact permission bits. -/
structure DirectoryState where
  mode : Int
  deriving DecidableEq

/-- A symlink: its target and exact permission bits. -/
structure SymlinkState where
  target : String
  mode : Int
  deriving DecidableEq

/-- The declared or observed state of a single path. -/
inductive PathState
  | AbsentState
  | FileState (state : FileState)
  | DirectoryState (state : DirectoryState)
  | SymlinkState (state : SymlinkState)
  deriving DecidableEq

instance : Coe FileState PathState := ⟨.FileState⟩
instance : Coe DirectoryState PathState := ⟨.DirectoryState⟩
instance : Coe SymlinkState PathState := ⟨.SymlinkState⟩

def ABSENT : PathState := .AbsentState

/-- The class name that an error message gives for a state. -/
def PathState.type_name : PathState → String
  | .AbsentState => "AbsentState"
  | .FileState _ => "FileState"
  | .DirectoryState _ => "DirectoryState"
  | .SymlinkState _ => "SymlinkState"

/-- `repr` of a state, as the generated dataclass method writes it. -/
def PathState.py_repr [UnicodeData] : PathState → String
  | .AbsentState => "AbsentState()"
  | .FileState s => "FileState(content_hash=" ++ errors.py_repr s.content_hash ++ ", mode=" ++ toString s.mode ++
      ", byte_len=" ++ toString s.byte_len ++ ")"
  | .DirectoryState s => "DirectoryState(mode=" ++ toString s.mode ++ ")"
  | .SymlinkState s => "SymlinkState(target=" ++ errors.py_repr s.target ++ ", mode=" ++ toString s.mode ++ ")"

/-- The integer operator `~`. -/
def bit_not (value : Int) : Int := -value - 1

/-- The integer operator `&` on two's-complement bits. -/
def bit_and (left right : Int) : Int :=
  match left, right with
  | .ofNat m, .ofNat n => .ofNat (m &&& n)
  | .ofNat m, .negSucc n => .ofNat (m - (m &&& n))
  | .negSucc m, .ofNat n => .ofNat (n - (m &&& n))
  | .negSucc m, .negSucc n => .negSucc (m ||| n)

end atoms.fingerprint
