import Atoms.Core.Paths

open atoms.errors atoms.effects atoms.paths checked

namespace atoms.fs

structure FilesystemIdentity where
  device : Nat
  inode : Nat
  deriving DecidableEq

/-- What can be proved about the names of a directory. -/
inductive LookupProof
  | EXACT_BYTES | UNREPRODUCIBLE_CASEFOLD
  deriving DecidableEq

def LookupProof.value : LookupProof → String
  | .EXACT_BYTES => "exact_bytes"
  | .UNREPRODUCIBLE_CASEFOLD => "unreproducible_casefold"

structure DirectoryConstraints where
  lookup_proof : LookupProof
  name_max : Nat
  deriving DecidableEq

structure DirectoryFacts where
  identity : FilesystemIdentity
  constraints : DirectoryConstraints
  deriving DecidableEq

inductive EntryKind
  | DIRECTORY | REGULAR_FILE | SYMLINK | OTHER
  deriving DecidableEq

def EntryKind.value : EntryKind → String
  | .DIRECTORY => "directory"
  | .REGULAR_FILE => "regular_file"
  | .SYMLINK => "symlink"
  | .OTHER => "other"

/-- `AbsentFrontier | PresentFrontier` -/
inductive Frontier
  | AbsentFrontier
  | PresentFrontier (identity : FilesystemIdentity) (kind : EntryKind)
  deriving DecidableEq

structure ResolvedHop where
  declared_component : String
  facts : DirectoryFacts
  deriving DecidableEq

/-- The deepest existing directory prefix of one declared path. -/
structure ResolvedPrefix where
  root : DirectoryFacts
  hops : List ResolvedHop
  frontier_name : String
  frontier : Frontier
  remainder : List String
  deriving DecidableEq

def EXT4_NAME_MAX : Nat := 255

/-- `raise ProjectApprovalRefused(message)` -/
def approval_refused (message : String) : Raised := .AtomsError (.ProjectApprovalRefused message)

/-- `len(name.encode("utf-8"))` -/
def width (name : String) : Nat := name.utf8ByteSize

/-- A directory, or another entry, of a tree. -/
structure TreeEntry where
  kind : EntryKind
  identity : FilesystemIdentity
  constraints : DirectoryConstraints

/-- A tree below a project root: what is at each name, given by its components. Entries are in directories, and a
directory has one name. -/
structure ProjectTree where
  entry : List String → Option TreeEntry
  root_is_directory : (entry []).map TreeEntry.kind = some .DIRECTORY
  parent_is_directory : ∀ lead name, (entry (lead ++ [name])).isSome = true →
    (entry lead).map TreeEntry.kind = some .DIRECTORY
  one_name : ∀ left right l r, entry left = some l → entry right = some r → l.kind = .DIRECTORY → r.kind = .DIRECTORY →
    l.identity = r.identity → left = right

variable [UnicodeData]

/-- `_require_supported` -/
def require_supported (filesystem_type : String) : Except Raised Unit :=
  require (filesystem_type = "ext4") (.AtomsError (.CapabilityUnavailable ("filesystem " ++ py_repr filesystem_type ++
    " has no lookup-proof mechanism; only non-casefold ext4 can be approved")))

/-- The constraints of a directory that is created under `parent`. -/
def inherited_constraints (parent : DirectoryConstraints) (filesystem_type : String) :
    Except Raised DirectoryConstraints := do
  require_supported filesystem_type
  pure { lookup_proof := parent.lookup_proof, name_max := EXT4_NAME_MAX }

/-- The key under which `name` collides with another name in a directory. -/
def lookup_equivalence_key (constraints : DirectoryConstraints) (name : String) : Except Raised String :=
  if constraints.lookup_proof = .EXACT_BYTES then pure name
  else throw (.AtomsError (.CapabilityUnavailable ("lookup proof " ++ py_repr constraints.lookup_proof.value ++
    " has no reproducible name equivalence, so " ++ py_repr name ++ " cannot be compared against sibling names")))

section

variable (tree : ProjectTree) (metadata_identity : FilesystemIdentity) (rel_path : RelPath)

/-- `PathResolver._require_name_fits` -/
def resolver_name_fits (component : String) (facts : DirectoryFacts) : Except Raised Unit :=
  require (width component ≤ facts.constraints.name_max) (approval_refused ("component " ++ py_repr component ++ " of " ++
    py_repr rel_path ++ " is " ++ toString (width component) ++ " bytes, over its parent's NAME_MAX of " ++
    toString facts.constraints.name_max))

/-- `PathResolver._facts_for` -/
def facts_for (entry : TreeEntry) : Except Raised DirectoryFacts := do
  require (entry.identity ≠ metadata_identity) (approval_refused (py_repr rel_path ++
    " traverses the metadata root by identity (device " ++ toString entry.identity.device ++ ", inode " ++
    toString entry.identity.inode ++ ")"))
  require (entry.constraints.lookup_proof ≠ .UNREPRODUCIBLE_CASEFOLD) (approval_refused (py_repr rel_path ++
    " traverses a casefold directory whose lookup relation cannot be reproduced"))
  pure { identity := entry.identity, constraints := entry.constraints }

/-- `PathResolver._observe` -/
def observe_frontier (found : Option TreeEntry) : Except Raised Frontier :=
  match found with
  | none => pure .AbsentFrontier
  | some entry => do
    require (entry.identity ≠ metadata_identity) (approval_refused (py_repr rel_path ++
      " resolves to the metadata root by identity (device " ++ toString entry.identity.device ++ ", inode " ++
      toString entry.identity.inode ++ ")"))
    pure (.PresentFrontier entry.identity entry.kind)

/-- The walk of `PathResolver.resolve` from the directory at `lead` on. -/
def resolve_from (root : DirectoryFacts) (leaf : String) :
    List String → DirectoryFacts → List ResolvedHop → List String → Except Raised ResolvedPrefix
  | lead, facts, hops, [] => do
    resolver_name_fits rel_path leaf facts
    let frontier ← observe_frontier metadata_identity rel_path (tree.entry (lead ++ [leaf]))
    pure { root, hops, frontier_name := leaf, frontier, remainder := [] }
  | lead, facts, hops, component :: rest => do
    resolver_name_fits rel_path component facts
    match tree.entry (lead ++ [component]) with
    | some ⟨.DIRECTORY, identity, constraints⟩ => do
      let child ← facts_for metadata_identity rel_path ⟨.DIRECTORY, identity, constraints⟩
      resolve_from root leaf (lead ++ [component]) child (hops ++ [⟨component, child⟩]) rest
    | found => do
      -- `open_child_directory` fails: nothing is there, or something that is not a directory
      let frontier ← observe_frontier metadata_identity rel_path found
      pure { root, hops, frontier_name := component, frontier, remainder := rest ++ [leaf] }

/-- `PathResolver.resolve` -/
def resolve (path_max : Nat) : Except Raised ResolvedPrefix :=
  match require_rel_path "path" rel_path with
  | .error (.SpecValidationError caught) => throw (.AtomsError (.ProtocolError
      ("resolve() requires a well-formed project-relative path: " ++ caught)))
  | .error other => throw (.AtomsError other)
  | .ok () => do
    require (width rel_path + 1 ≤ path_max) (approval_refused ("path " ++ py_repr rel_path ++ " needs " ++
      toString (width rel_path + 1) ++ " bytes including the terminating NUL, over the volume PATH_MAX of " ++
      toString path_max))
    match tree.entry [] with
    | none => throw (.OSError .ENOENT)
    | some entry => do
      let root ← facts_for metadata_identity rel_path entry
      resolve_from tree metadata_identity rel_path root ((components rel_path).getLast?.getD "") [] root []
        (components rel_path).dropLast

end

end atoms.fs
