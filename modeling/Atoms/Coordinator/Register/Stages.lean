import Atoms.Chain.Frame
import Atoms.Coordinator.Lifecycle.Claim
import Atoms.Coordinator.Lifecycle.Walk
import Atoms.Coordinator.Register

open atoms.errors atoms.fingerprint atoms.paths atoms.spec atoms.fs atoms.store atoms.chain checked crash

namespace atoms.coordinator

/-- The names that a registration may change: the claim, the chain, and all that is in what it creates. -/
def Touched (root : Inode) (base : Disk) (parent : Inode) (name : String) : Prop :=
  base.next ≤ parent ∨ parent = root ∧ (name = ROOT_CLAIM_LEAF ∨ name = CHAIN_LEAF)

/-- A root on which no registration has left anything. -/
structure Unregistered (root : Inode) (s : RootState) : Prop where
  numbered : s.disk.Numbered
  progresses : s.disk.Progresses
  old : root < s.disk.next
  unreached : s.disk.Unreached root
  claim : s.disk.lookup root ROOT_CLAIM_LEAF = none
  chain : s.disk.lookup root CHAIN_LEAF = none
  /-- Nothing is in a directory that is not there yet. -/
  bare : ∀ parent name, s.disk.next ≤ parent → s.disk.lookup parent name = none
  carrier : s.carrier.version = 0 ∨ s.carrier = ⟨3, ⟨none, none⟩⟩

/-- A volume on which registrations have changed what they may change. -/
structure Beside (root : Inode) (base d : Disk) : Prop where
  apart : base.Apart (Touched root base) d
  numbered : d.Numbered

/-- The entry that the chain of a registration starts with. -/
def genesis_of (args : Registration) (baseline : List (String × PathStateJSON)) : chain.Entry :=
  .GenesisEntry { payload := args.genesis_payload, baseline }

section

variable [UnicodeData] [Sha256]

/-- The genesis of a registration: the baseline that is captured, and the envelope of the entry. -/
structure IsGenesis (root : Inode) (args : Registration) (base : Disk) (baseline : List (String × PathStateJSON))
    (envelope : List UInt8) : Prop where
  captured : (capture_baseline root args.registered_surface).Returns base baseline
  encoded : encode_entry none (genesis_of args baseline) = .ok envelope

/-- The machine and the path that a row of the lifecycle may have. -/
def Bindable (args : Registration) : Prop :=
  is_operation_id args.machine_id ∧ args.machine_id ≠ String.ofList (List.replicate 32 '0') ∧ args.project_root ≠ ""

/-- A registration that nothing on the root stands against. -/
structure Accepted (depth : Nat) (root : Inode) (args : Registration) (base : Disk) : Prop where
  surface : validate_registered_surface args.registered_surface = .ok ()
  requested : ∃ request, args.request = .ok request
  bindable : Bindable args
  genesis : ∃ baseline envelope, IsGenesis root args base baseline envelope
  deep : 2 ≤ depth
  tree : ∃ found, walk_tree base depth root "" (passed_over false) = .ok found

/-- The claim of an operation that makes the request. -/
structure Claims (args : Registration) (operation_id : String) (request : OperationRequest) (claim : List UInt8) :
    Prop where
  surface : validate_registered_surface args.registered_surface = .ok ()
  requested : args.request = .ok request
  encoded : encode_claim operation_id request = .ok claim
  minted : is_operation_id operation_id = true

/-- The chain directory is not there, and no new directory is. -/
def Bare (root : Inode) (base d : Disk) : Prop :=
  d.lookup root CHAIN_LEAF = none ∧ ∀ parent name, base.next ≤ parent → d.lookup parent name = none

/-- The chain directory may be there, with nothing but a staging leaf in it. -/
def Unfounded (root : Inode) (base d : Disk) : Prop :=
  Bare root base d ∨ ∃ fd staged, d.lookup root CHAIN_LEAF = some ⟨.directory, fd⟩ ∧ base.next ≤ fd ∧
    Directory d fd [] staged

/-- The chain is the genesis. -/
def Founded (root : Inode) (args : Registration) (base : Disk) (digest : String) (d : Disk) : Prop :=
  ∃ fd baseline envelope, d.lookup root CHAIN_LEAF = some ⟨.directory, fd⟩ ∧ base.next ≤ fd ∧
    IsGenesis root args base baseline envelope ∧ digest = entry_digest envelope ∧
    Directory d fd [next_row [] (genesis_of args baseline) envelope] none

def recorded_row (operation_id : String) (request : OperationRequest) : RootOperationRow :=
  { operation_id, kind := .register, phase := .recorded, request_json := request.operation_json,
    request_hash := request.operation_hash, source_snapshot := none, destination_snapshot := none, genesis_digest := none }

def durable_row (operation_id : String) (request : OperationRequest) (snapshot : Snapshot) (digest : String) :
    RootOperationRow :=
  { recorded_row operation_id request with
    phase := .tree_durable, destination_snapshot := some snapshot, genesis_digest := some digest }

def complete_row (operation_id : String) (request : OperationRequest) (snapshot : Snapshot) (digest : String) :
    RootOperationRow :=
  { durable_row operation_id request snapshot digest with phase := .complete }

def lifecycle_row (args : Registration) (state : RootLifecycleState) : RootLifecycleRow :=
  { state, machine_id := args.machine_id, root_path := args.project_root, origin := .register }

/-- How far the attempts at a registration have come. -/
inductive Stage (depth : Nat) (root : Inode) (args : Registration) (base : Disk) (s : RootState) : Prop
  | unclaimed : s.carrier.version = 0 ∨ s.carrier = ⟨3, ⟨none, none⟩⟩ → leaf s.disk root ROOT_CLAIM_LEAF = none →
    Bare root base s.disk → Stage depth root args base s
  | claimed {operation_id : String} {request : OperationRequest} {claim bytes : List UInt8} :
    s.carrier.version = 0 ∨ s.carrier = ⟨3, ⟨none, none⟩⟩ → Claims args operation_id request claim →
    leaf s.disk root ROOT_CLAIM_LEAF = some (some bytes) → bytes <+: claim → Bare root base s.disk →
    Stage depth root args base s
  | recorded {operation_id : String} {request : OperationRequest} {claim : List UInt8} :
    Claims args operation_id request claim → Bindable args →
    s.carrier = ⟨3, some (recorded_row operation_id request), some (lifecycle_row args .read_only_unserviceable)⟩ →
    leaf s.disk root ROOT_CLAIM_LEAF = some (some claim) →
    (Unfounded root base s.disk ∨ ∃ digest, Founded root args base digest s.disk) → Stage depth root args base s
  | durable {operation_id : String} {request : OperationRequest} {claim : List UInt8} {snapshot : Snapshot}
      {digest : String} :
    Claims args operation_id request claim → Accepted depth root args base →
    s.carrier = ⟨3, some (durable_row operation_id request snapshot digest),
      some (lifecycle_row args .read_only_unserviceable)⟩ →
    (∀ bytes ∈ leaf s.disk root ROOT_CLAIM_LEAF, bytes = some claim) → Founded root args base digest s.disk →
    snapshot_of s.disk depth root digest false = .ok snapshot → Stage depth root args base s
  | complete {operation_id : String} {request : OperationRequest} {snapshot : Snapshot} {digest : String} :
    args.request = .ok request → Accepted depth root args base →
    s.carrier = ⟨3, some (complete_row operation_id request snapshot digest), some (lifecycle_row args .writable)⟩ →
    leaf s.disk root ROOT_CLAIM_LEAF = none → Founded root args base digest s.disk → Stage depth root args base s

/-- What attempts at a registration, killed anywhere, may have left. -/
structure Left (depth : Nat) (root : Inode) (args : Registration) (base : Disk) (s : RootState) : Prop where
  beside : Beside root base s.disk
  stage : Stage depth root args base s

/-- The claim leaf holds a part of a claim. -/
def ClaimCut (root : Inode) (d : Disk) : Prop :=
  ∃ bytes, leaf d root ROOT_CLAIM_LEAF = some (some bytes) ∧ ∀ claim, decode_claim bytes ≠ .ok claim

end

end atoms.coordinator
