import Atoms.Fs.Disk
import Atoms.Recovery.Model

open atoms.errors atoms.fingerprint atoms.recovery crash

namespace atoms.fs

/-- `_READ_CHUNK` -/
def READ_CHUNK : Nat := 1 <<< 20

section

variable [Sha256]

/-- The state of a regular file. -/
def file_state (d : Disk) (inode : Inode) : FileState :=
  { content_hash := "sha256:" ++ Sha256.hexdigest (d.contents.get inode)
    mode := d.modes.get inode
    byte_len := (d.contents.get inode).length }

/-- What one look at a name finds. An object has one token in a pass, taken here to be its number. -/
def observe_entry (d : Disk) (parent_fd : Inode) (leaf : String) (modeled : List String) : ObservedEntry :=
  match d.lookup parent_fd leaf with
  | none => .ObservedAbsent
  | some ⟨.symlink target, inode⟩ => .ObservedSymlink { target, mode := d.modes.get inode }
  | some ⟨.directory, inode⟩ =>
    .ObservedDirectory { mode := d.modes.get inode } ⟨inode⟩ (some ((d.listdir inode).any fun name => name ∉ modeled))
  | some ⟨.file, inode⟩ => .ObservedFile (file_state d inode) ⟨inode⟩

/-- `Observation.observe` -/
def observe (parent_fd : Inode) (leaf : String) (modeled : List String) : Call ObservedEntry :=
  Prog.read fun d => .ok (observe_entry d parent_fd leaf modeled)

end

/-- The comparison of two contents, chunk by chunk: `fuel` bounds the number of chunks. -/
def compare_chunks : (fuel : Nat) → List UInt8 → List UInt8 → FileBuildRelation
  | 0, _, _ => .EXACT
  | fuel + 1, staged, planned =>
    let left := staged.take READ_CHUNK
    let right := planned.take READ_CHUNK
    if left = right then
      if left = [] then .EXACT else compare_chunks fuel (staged.drop READ_CHUNK) (planned.drop READ_CHUNK)
    else
      let shortest := min left.length right.length
      if left.take shortest ≠ right.take shortest then .DIVERGED
      else if left.length < right.length then .STRICT_PREFIX else .DIVERGED

/-- `Observation.build_relation` of an observed file and the planned content. -/
def build_relation (identity : EntryIdentity) (planned : List UInt8) : Call FileBuildRelation :=
  Prog.read fun d =>
    let staged := d.contents.get identity.token
    .ok (compare_chunks (staged.length + 1) staged planned)

end atoms.fs
