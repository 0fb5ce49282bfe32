import Atoms.Fs.Approval
import Atoms.Store.Diagnostic

open atoms.errors atoms.paths atoms.spec atoms.store checked json

namespace atoms.fs

/-- The node matches `topology_directory:(0|[1-9][0-9]*)`. -/
def is_topology_node (node : String) : Bool :=
  starts_with "topology_directory:" node && match node.toList.drop "topology_directory:".length with
    | [] => false
    | ['0'] => true
    | first :: rest => first ≠ '0' && first.isDigit && rest.all Char.isDigit

/-- `node.removeprefix("persistent:")`, of a node that starts with it. -/
def persistent_path (node : String) : String := String.ofList (node.toList.drop "persistent:".length)

/-- `_nonnegative_integer` -/
def nonnegative_integer (value : Json) (label : String) : Except AtomsError Nat :=
  match value with
  | .int (.ofNat value) => pure value
  | _ => throw (.ProtocolError (label ++ " must be a non-negative exact int"))

/-- `_closed_object` -/
def closed_object (value : Json) (keys : List String) (label : String) : Except AtomsError Members :=
  match value with
  | .obj members => do
    require (keyed.set_eq (members.map Prod.fst) keys) (.ProtocolError (label ++ " has missing or unexpected fields"))
    pure members
  | _ => throw (.ProtocolError (label ++ " has missing or unexpected fields"))

/-- `LookupProof(value)` -/
def lookup_proof (value : Json) (label : String) : Except AtomsError LookupProof :=
  match value with
  | .str "exact_bytes" => pure .EXACT_BYTES
  | .str "unreproducible_casefold" => pure .UNREPRODUCIBLE_CASEFOLD
  | _ => throw (.ProtocolError (label ++ ".lookup_proof is outside its closed domain"))

/-- `_decoded_constraints` -/
def decoded_constraints (obj : Members) (label : String) : Except AtomsError DirectoryConstraints := do
  let proof ← lookup_proof (field obj "lookup_proof") label
  let name_max ← nonnegative_integer (field obj "name_max") (label ++ ".name_max")
  pure { lookup_proof := proof, name_max }

/-- `_decoded_identity` -/
def decoded_identity (value : Json) (label : String) : Except AtomsError FilesystemIdentity := do
  let identity ← closed_object value ["st_dev", "st_ino"] label
  let device ← nonnegative_integer (field identity "st_dev") (label ++ ".st_dev")
  let inode ← nonnegative_integer (field identity "st_ino") (label ++ ".st_ino")
  pure { device, inode }

/-- `value is None` -/
def is_null : Json → Bool
  | .null => true
  | _ => false

/-- An identity, or null. -/
def optional_identity (value : Json) (label : String) : Except AtomsError (Option FilesystemIdentity) :=
  match value with
  | .null => pure none
  | value => do
    let identity ← decoded_identity value label
    pure (some identity)

section

variable [UnicodeData]

/-- The node of a directory. -/
def decoded_node (value : Json) (label : String) : Except AtomsError String :=
  match value with
  | .str node => do
    require (node ∈ ["project_root", "work_root"] ∨ is_topology_node node ∨ starts_with "persistent:" node)
      (.ProtocolError (label ++ ".node is outside its closed domain"))
    pure node
  | _ => throw (.ProtocolError (label ++ ".node is outside its closed domain"))

/-- `require_rel_path`, whose error is raised as a `ProtocolError` of the same text. -/
def evidence_rel_path (path : String) : Except AtomsError Unit :=
  match require_rel_path "approval evidence directory path" path with
  | .error (.SpecValidationError caught) => throw (.ProtocolError caught)
  | checked => checked

/-- The path that the node of a directory may have. -/
def require_node_path (node path : String) : Except AtomsError Unit :=
  if node = "project_root" then require (path = "") (.ProtocolError "project_root evidence must use the empty path")
  else evidence_rel_path path

/-- The path of a directory, which the work root has none of. -/
def decoded_path (node : String) (value : Json) (label : String) : Except AtomsError (Option String) :=
  match value with
  | .null => do
    require (node = "work_root") (.ProtocolError (label ++ ".path must be an exact str"))
    pure none
  | .str path => do
    require (node ≠ "work_root") (.ProtocolError (label ++ ".path must be null for work_root"))
    require_node_path node path
    require (starts_with "persistent:" node → persistent_path node = path)
      (.ProtocolError (label ++ " node and path disagree"))
    pure (some path)
  | _ => throw (.ProtocolError (label ++
      (if node = "work_root" then ".path must be null for work_root" else ".path must be an exact str")))

/-- The directory at `index`. -/
def decoded_directory (index : Nat) (value : Json) : Except AtomsError DirectoryEvidence := do
  let label := "approval evidence.directories[" ++ toString index ++ "]"
  let item ← closed_object value ["node", "path", "identity", "lookup_proof", "name_max"] label
  let node ← decoded_node (field item "node") label
  let path ← decoded_path node (field item "path") label
  require (node = "work_root" → is_null (field item "identity"))
    (.ProtocolError "work_root directory evidence cannot carry an identity")
  require (node = "project_root" → ¬ is_null (field item "identity"))
    (.ProtocolError "project_root directory evidence requires an identity")
  let identity ← optional_identity (field item "identity") (label ++ ".identity")
  let constraints ← decoded_constraints item label
  pure { node, path, identity, constraints }

/-- The directories from the one at `index` on. -/
def decoded_directories : (index : Nat) → List Json → Except AtomsError (List DirectoryEvidence)
  | _, [] => pure []
  | index, value :: rest => do
    let directory ← decoded_directory index value
    let directories ← decoded_directories (index + 1) rest
    pure (directory :: directories)

/-- The facts of the work base, or null. -/
def decoded_work_root (value : Json) : Except AtomsError (Option DirectoryFacts) :=
  match value with
  | .null => pure none
  | value => do
    let work ← closed_object value ["identity", "lookup_proof", "name_max"] "approval evidence.work_root"
    let identity ← decoded_identity (field work "identity") "approval evidence.work_root.identity"
    let constraints ← decoded_constraints work "approval evidence.work_root"
    pure (some { identity, constraints })

/-- What the reader makes of the evidence's text. -/
def load_evidence (text : String) : Except AtomsError Json :=
  match loads text with
  | .ok value => pure value
  | .error (.duplicate_key key) => throw (.ProtocolError ("duplicate approval-evidence JSON key: " ++ py_repr key))
  | .error .malformed => throw (.ProtocolError "approval evidence is not valid JSON")

def decode_approval_evidence (text : String) : Except AtomsError ApprovalEvidence := do
  let raw ← load_evidence text
  let document ← closed_object raw ["directories", "mount_id", "work_root"] "approval evidence"
  let mount_id ← nonnegative_integer (field document "mount_id") "approval evidence.mount_id"
  match field document "directories" with
  | .arr raw_directories => do
    let directories ← decoded_directories 0 raw_directories
    let nodes := directories.map DirectoryEvidence.node
    require (nodes = sorted_by id nodes ∧ nodes.Nodup)
      (.ProtocolError "approval evidence directory nodes must be sorted and unique")
    require (directories.filterMap DirectoryEvidence.path).Nodup
      (.ProtocolError "approval evidence directory paths must be unique")
    let work_root ← decoded_work_root (field document "work_root")
    require (nodes.count "project_root" = 1) (.ProtocolError "approval evidence must contain exactly one project_root")
    require ("work_root" ∈ nodes ↔ work_root.isSome = true)
      (.ProtocolError "approval evidence work_root directory and physical facts disagree")
    require (dumps false raw = text) (.ProtocolError "approval evidence is not canonical")
    pure { directories, mount_id, work_root }
  | _ => throw (.ProtocolError "approval evidence.directories must be an array")

/-! What the decoder accepts. -/

/-- A path that `require_rel_path` accepts. -/
def IsRelPath (path : String) : Prop := require_rel_path "approval evidence directory path" path = .ok ()

/-- The directories of a document: no path is given twice, the root and perhaps the work root are among them, and every
other one has a path below the root. -/
structure Decoded (document : ApprovalEvidence) : Prop where
  paths_nodup : (document.directories.map DirectoryEvidence.path).Nodup
  root : some "" ∈ document.directories.map DirectoryEvidence.path
  work_root : none ∈ document.directories.map DirectoryEvidence.path ↔ document.work_root.isSome = true
  rel_path : ∀ path, some path ∈ document.directories.map DirectoryEvidence.path → path ≠ "" → IsRelPath path

theorem evidence_rel_path_eq_ok {path : String} (h : evidence_rel_path path = .ok ()) : IsRelPath path := by
  unfold evidence_rel_path at h
  split at h
  · cases h
  · exact h

/-- What a directory's path says of its node. -/
theorem decoded_path_eq_ok {node label : String} {value : Json} {path : Option String}
    (h : decoded_path node value label = .ok path) :
    node = "work_root" ∧ path = none ∨
      node ≠ "work_root" ∧ ∃ text, path = some text ∧ if node = "project_root" then text = "" else IsRelPath text := by
  unfold decoded_path at h
  split at h
  · simp only [bind_eq_ok_iff, require_eq_ok_iff, pure_eq_ok_iff, exists_const] at h
    exact .inl ⟨h.1, h.2.symm⟩
  · simp only [bind_eq_ok_iff, require_eq_ok_iff, pure_eq_ok_iff, exists_const] at h
    obtain ⟨hnode, _, hpath, _, rfl⟩ := h
    refine .inr ⟨hnode, _, rfl, ?_⟩
    unfold require_node_path at hpath
    split at hpath
    · rename_i hroot
      rw [if_pos hroot]
      exact require_eq_ok_iff.mp hpath
    · rename_i hroot
      rw [if_neg hroot]
      exact evidence_rel_path_eq_ok hpath
  · cases h

theorem decoded_directory_eq_ok {index : Nat} {value : Json} {directory : DirectoryEvidence}
    (h : decoded_directory index value = .ok directory) :
    directory.node = "work_root" ∧ directory.path = none ∨
      directory.node ≠ "work_root" ∧ ∃ text, directory.path = some text ∧
        if directory.node = "project_root" then text = "" else IsRelPath text := by
  unfold decoded_directory at h
  simp only [bind_eq_ok_iff, require_eq_ok_iff, pure_eq_ok_iff, exists_const] at h
  obtain ⟨item, _, node, _, path, hpath, _, _, identity, _, constraints, _, rfl⟩ := h
  exact decoded_path_eq_ok hpath

theorem decoded_directories_eq_ok {index : Nat} {values : List Json} {directories : List DirectoryEvidence}
    (h : decoded_directories index values = .ok directories) :
    ∀ directory ∈ directories, ∃ index value, decoded_directory index value = .ok directory := by
  induction values generalizing index directories with
  | nil =>
    cases h
    exact fun _ hmem => absurd hmem List.not_mem_nil
  | cons value rest ih =>
    rw [decoded_directories] at h
    obtain ⟨directory, hdirectory, h⟩ := bind_eq_ok_iff.mp h
    obtain ⟨others, hothers, h⟩ := bind_eq_ok_iff.mp h
    cases h
    intro other hother
    obtain rfl | hother := List.mem_cons.mp hother
    · exact ⟨index, value, hdirectory⟩
    · exact ih hothers other hother

theorem decoded_of_decode {text : String} {document : ApprovalEvidence} (h : decode_approval_evidence text = .ok document) :
    Decoded document := by
  unfold decode_approval_evidence at h
  obtain ⟨raw, _, h⟩ := bind_eq_ok_iff.mp h
  obtain ⟨obj, _, h⟩ := bind_eq_ok_iff.mp h
  obtain ⟨mount_id, _, h⟩ := bind_eq_ok_iff.mp h
  split at h
  · simp only [bind_eq_ok_iff, require_eq_ok_iff, pure_eq_ok_iff, exists_const] at h
    obtain ⟨directories, hdirectories, ⟨_, hnodes⟩, hpaths, work_root, _, hroots, hwork, _, rfl⟩ := h
    have hkind : ∀ directory ∈ directories, directory.node = "work_root" ∧ directory.path = none ∨
        directory.node ≠ "work_root" ∧ ∃ text, directory.path = some text ∧
          if directory.node = "project_root" then text = "" else IsRelPath text := by
      intro directory hdirectory
      obtain ⟨index, value, heq⟩ := decoded_directories_eq_ok hdirectories directory hdirectory
      exact decoded_directory_eq_ok heq
    have hnone : ∀ directory ∈ directories, (directory.path = none ↔ directory.node = "work_root") := by
      intro directory hdirectory
      obtain ⟨hnode, hpath⟩ | ⟨hnode, text, hpath, _⟩ := hkind directory hdirectory
      · exact ⟨fun _ => hnode, fun _ => hpath⟩
      · simp [hnode, hpath]
    have hmem_node : ∀ node, node ∈ directories.map DirectoryEvidence.node ↔
        ∃ directory ∈ directories, directory.node = node := fun _ => List.mem_map
    constructor
    · rw [List.Nodup, List.pairwise_map] at hnodes ⊢
      rw [List.Nodup, List.pairwise_filterMap] at hpaths
      refine (hnodes.and hpaths).imp_of_mem fun {left right} hleft hright hdiffer heq => ?_
      cases hpath : left.path with
      | none =>
        have hnode := (hnone left hleft).mp hpath
        exact hdiffer.1 (hnode.trans ((hnone right hright).mp (heq ▸ hpath)).symm)
      | some text => exact hdiffer.2 text hpath text (heq ▸ hpath) rfl
    · have hroot : "project_root" ∈ directories.map DirectoryEvidence.node := List.count_pos_iff.mp (by omega)
      obtain ⟨directory, hdirectory, hnode⟩ := (hmem_node _).mp hroot
      obtain ⟨hwork, _⟩ | ⟨_, text, hpath, hempty⟩ := hkind directory hdirectory
      · rw [hnode] at hwork
        exact absurd hwork (by decide)
      · rw [if_pos hnode] at hempty
        exact List.mem_map.mpr ⟨directory, hdirectory, hpath.trans (congrArg some hempty)⟩
    · rw [← hwork, hmem_node, List.mem_map]
      exact exists_congr fun directory => and_congr_right (hnone directory)
    · intro path hpath hne
      obtain ⟨directory, hdirectory, heq⟩ := List.mem_map.mp hpath
      obtain ⟨_, hnone⟩ | ⟨_, text, htext, hrel⟩ := hkind directory hdirectory
      · rw [hnone] at heq
        cases heq
      · obtain rfl := Option.some.inj (htext.symm.trans heq)
        split at hrel
        · exact absurd hrel hne
        · exact hrel
  · cases h

end

end atoms.fs
