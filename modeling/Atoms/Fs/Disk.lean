import Atoms.Core.Errors
import Atoms.Library.Crash
import Atoms.Library.WriteBack

open atoms.errors crash writeback

namespace atoms.fs

/-- The digest of the Python `hashlib`, in lowercase hexadecimal. -/
class Sha256 where
  hexdigest : List UInt8 → String

abbrev Inode := Nat

/-- The kinds of object that a name may refer to. -/
inductive Kind
  | file
  | symlink (target : String)
  | directory
  deriving DecidableEq

/-- What a name in a directory refers to. -/
structure Entry where
  kind : Kind
  inode : Inode
  deriving DecidableEq

/-- A volume. Each name, each file's content and each object's mode is written back on its own. -/
structure Disk where
  entries : Cache (Inode × String) (Option Entry)
  contents : Cache Inode (List UInt8)
  modes : Cache Inode Nat
  /-- The number of the next object. -/
  next : Inode
  umask : Nat
  /-- How many bytes each of the next writes takes; without it, a write takes all it is given. -/
  short_writes : List Nat

namespace Disk

def lookup (d : Disk) (parent : Inode) (leaf : String) : Option Entry := d.entries.get (parent, leaf)

def set_entry (d : Disk) (parent : Inode) (leaf : String) (entry : Option Entry) : Disk :=
  { d with entries := d.entries.set (parent, leaf) entry }

/-- A new object under a name, its mode cut by the mask. -/
def allocate (d : Disk) (kind : Kind) (parent : Inode) (leaf : String) (mode : Nat) : Disk :=
  { d with
    entries := d.entries.set (parent, leaf) (some ⟨kind, d.next⟩)
    contents := d.contents.set d.next []
    modes := d.modes.set d.next (mode - (mode &&& d.umask))
    next := d.next + 1 }

/-- The names in a directory. -/
def listdir (d : Disk) (fd : Inode) : List String :=
  (d.entries.keys.filter fun key => key.1 = fd ∧ (d.entries.get key).isSome).map Prod.snd

/-- The content, the mode and the names of one object are on disk. -/
def fsync (d : Disk) (fd : Inode) : Disk :=
  { d with
    entries := d.entries.flush fun key => key.1 = fd
    contents := d.contents.flush fun inode => inode = fd
    modes := d.modes.flush fun inode => inode = fd }

/-- A power cut drops any part of what is pending. -/
def Cut (d d' : Disk) : Prop :=
  d.entries.Cut d'.entries ∧ d.contents.Cut d'.contents ∧ d.modes.Cut d'.modes ∧ d'.next = d.next

end Disk

/-! The calls of the backend. A descriptor is the object it was opened on, so closing one changes nothing here. -/

abbrev Call (α : Type) := Prog Disk Raised α

def create_exclusive (parent : Inode) (name : String) (mode : Nat) : Call Inode := Prog.call fun d =>
  match d.lookup parent name with
  | some _ => .error (.OSError .EEXIST)
  | none => .ok (d.next, d.allocate .file parent name mode)

def mkdir_child (parent : Inode) (name : String) (mode : Nat) : Call Unit := Prog.call fun d =>
  match d.lookup parent name with
  | some _ => .error (.OSError .EEXIST)
  | none => .ok ((), d.allocate .directory parent name mode)

/-- A symlink has one mode, whatever the mask is. -/
def symlink_child (parent : Inode) (name target : String) : Call Unit := Prog.call fun d =>
  match d.lookup parent name with
  | some _ => .error (.OSError .EEXIST)
  | none => .ok ((),
    { d with
      entries := d.entries.set (parent, name) (some ⟨.symlink target, d.next⟩)
      modes := d.modes.set d.next 0o777
      next := d.next + 1 })

/-- Append to a file that is written from its start; returns how many bytes the write took. -/
def write (fd : Inode) (data : List UInt8) : Call Nat := Prog.call fun d =>
  let taken := match d.short_writes with
    | [] => data.length
    | count :: _ => min count data.length
  .ok (taken,
    { d with
      contents := d.contents.set fd (d.contents.get fd ++ data.take taken)
      short_writes := d.short_writes.tail })

def set_mode (fd : Inode) (mode : Nat) : Call Unit := Prog.call fun d =>
  .ok ((), { d with modes := d.modes.set fd mode })

/-- The mode of a name that is not followed; `before_change` runs once the name is opened. -/
def repair_entry_mode (parent : Inode) (name : String) (mode : Nat) (before_change : Call Unit) : Call Unit := do
  let fd ← Prog.read fun d => match d.lookup parent name with
    | none => .error (.OSError .ENOENT)
    | some ⟨.symlink _, _⟩ => .error (.OSError .EOPNOTSUPP)
    | some ⟨_, inode⟩ => .ok inode
  before_change
  set_mode fd mode

def unlink_child (parent : Inode) (name : String) : Call Unit := Prog.call fun d =>
  match d.lookup parent name with
  | none => .error (.OSError .ENOENT)
  | some ⟨.directory, _⟩ => .error (.OSError .EISDIR)
  | some _ => .ok ((), d.set_entry parent name none)

def rmdir_child (parent : Inode) (name : String) : Call Unit := Prog.call fun d =>
  match d.lookup parent name with
  | none => .error (.OSError .ENOENT)
  | some ⟨.directory, inode⟩ =>
    if d.listdir inode = [] then .ok ((), d.set_entry parent name none) else .error (.OSError .ENOTEMPTY)
  | some _ => .error (.OSError .ENOTDIR)

def transfer_noclobber (src_fd : Inode) (src : String) (dst_fd : Inode) (dst : String) : Call Unit :=
  Prog.call fun d => match d.lookup src_fd src, d.lookup dst_fd dst with
    | none, _ => .error (.OSError .ENOENT)
    | some _, some _ => .error (.OSError .EEXIST)
    | some entry, none => .ok ((), (d.set_entry src_fd src none).set_entry dst_fd dst (some entry))

def exchange (parent : Inode) (left right : String) : Call Unit := Prog.call fun d =>
  match d.lookup parent left, d.lookup parent right with
  | some first, some second => .ok ((), (d.set_entry parent left (some second)).set_entry parent right (some first))
  | _, _ => .error (.OSError .ENOENT)

def link_anchor (src_fd : Inode) (src : String) (dst_fd : Inode) (dst : String) : Call Unit :=
  Prog.call fun d => match d.lookup src_fd src, d.lookup dst_fd dst with
    | none, _ => .error (.OSError .ENOENT)
    | some _, some _ => .error (.OSError .EEXIST)
    | some ⟨.directory, _⟩, none => .error (.OSError .EPERM)
    | some entry, none => .ok ((), d.set_entry dst_fd dst (some entry))

def flush_file (fd : Inode) : Call Unit := Prog.call fun d => .ok ((), d.fsync fd)

def flush_directory (fd : Inode) : Call Unit := Prog.call fun d => .ok ((), d.fsync fd)

/-- A name opened for reading without following a symlink: its kind and its object. -/
def open_regular_nofollow (parent : Inode) (name : String) : Call Entry := Prog.read fun d =>
  match d.lookup parent name with
  | none => .error (.OSError .ENOENT)
  | some ⟨.symlink _, _⟩ => .error (.OSError .ELOOP)
  | some entry => .ok entry

def open_child_directory (parent : Inode) (name : String) : Call Inode := Prog.read fun d =>
  match d.lookup parent name with
  | none => .error (.OSError .ENOENT)
  | some ⟨.directory, inode⟩ => .ok inode
  | some ⟨.symlink _, _⟩ => .error (.OSError .ELOOP)
  | some ⟨.file, _⟩ => .error (.OSError .ENOTDIR)

/-- The target and the mode of a symlink. -/
def symlink_fingerprint (parent : Inode) (name : String) : Call (String × Nat) := Prog.read fun d =>
  match d.lookup parent name with
  | none => .error (.OSError .ENOENT)
  | some ⟨.symlink target, inode⟩ => .ok (target, d.modes.get inode)
  | some _ => .error (.OSError .EINVAL)

/-- `os.lstat`, of which the engine compares the object. -/
def lstat (parent : Inode) (name : String) : Call Inode := Prog.read fun d =>
  match d.lookup parent name with
  | none => .error (.OSError .ENOENT)
  | some entry => .ok entry.inode

/-- `os.stat` of a name that is not followed: its kind and its mode, or none where it raises `FileNotFoundError`. -/
def stat_child (parent : Inode) (name : String) : Call (Option (Kind × Nat)) := Prog.read fun d =>
  .ok ((d.lookup parent name).map fun entry => (entry.kind, d.modes.get entry.inode))

def readlink (parent : Inode) (name : String) : Call String := Prog.read fun d =>
  match d.lookup parent name with
  | none => .error (.OSError .ENOENT)
  | some ⟨.symlink target, _⟩ => .ok target
  | some _ => .error (.OSError .EINVAL)

/-- `os.read` of an opened object up to its end. -/
def read_all (fd : Entry) : Call (List UInt8) := Prog.read fun d =>
  match fd.kind with
  | .directory => .error (.OSError .EISDIR)
  | _ => .ok (d.contents.get fd.inode)

/-- `stat.S_IMODE(os.fstat(fd).st_mode)` -/
def fstat_mode (fd : Inode) : Call Nat := Prog.read fun d => .ok (d.modes.get fd)

def listdir (fd : Inode) : Call (List String) := Prog.read fun d => .ok (d.listdir fd)

end atoms.fs
