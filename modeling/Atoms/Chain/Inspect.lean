import Atoms.Chain.Model

open atoms.errors atoms.identifiers atoms.spec atoms.fs checked keyed crash

namespace atoms.chain

def STAGING_LEAF : String := ".#~stage"

inductive DefectKind
  | FOREIGN_LEAF | NAME_BYTES_MISMATCH | UNDECODABLE_ENTRY | GENESIS_COUNT | MISSING_PREDECESSOR | SIBLING_BRANCH | CYCLE
  | ORPHAN_HISTORY | SETTLEMENT_WITHOUT_REGISTRATION | SETTLEMENT_TXID_MISMATCH | DUPLICATE_SETTLEMENT
  | DUPLICATE_REGISTRATION | FULFILLS_UNRESOLVED | DUPLICATE_FULFILLMENT
  deriving DecidableEq

structure ChainDefect where
  kind : DefectKind
  subject : Option String
  detail : String
  deriving DecidableEq

/-- An entry of the scan: its digest, the digest it names as its predecessor, the entry and its bytes. -/
structure Row where
  digest : String
  previous : Option String
  entry : Entry
  envelope : List UInt8

structure ChainScan where
  found : List Row
  staged : Option (List UInt8)

structure WellFormedChain where
  genesis_digest : String
  entries : List (String × Entry)
  tip : String
  pending : List (String × String)

inductive ChainInspection
  | WellFormedChain (chain : WellFormedChain)
  | MalformedChain (defect : ChainDefect)
  | AbsentChain

section

variable [UnicodeData]

def foreign_leaf (name : String) : ChainDefect :=
  { kind := .FOREIGN_LEAF, subject := some name, detail := "foreign chain-directory leaf " ++ py_repr name }

/-- The bytes of a regular leaf, or none for anything else. -/
def read_leaf (chain_fd : Inode) (name : String) : Call (Option (List UInt8)) := Prog.read fun d =>
  match d.lookup chain_fd name with
  | some ⟨.file, inode⟩ => .ok (some (d.contents.get inode))
  | _ => .ok none

variable [Sha256]

/-- What one leaf adds to a scan. -/
def scan_leaf (chain_fd : Inode) (scan : ChainScan) (name : String) : Call (Except ChainDefect ChainScan) := do
  let bytes ← read_leaf chain_fd name
  match bytes with
  | none => pure (.error (foreign_leaf name))
  | some envelope =>
    if name = STAGING_LEAF then pure (.ok { scan with staged := some envelope })
    else if entry_digest envelope ≠ name then
      pure (.error
        { kind := .NAME_BYTES_MISMATCH, subject := some name
          detail := "chain entry name " ++ py_repr name ++ " does not match its bytes" })
    else match decode_entry envelope with
      | .error _ => pure (.error
        { kind := .UNDECODABLE_ENTRY, subject := some name
          detail := "chain entry " ++ py_repr name ++ " is not canonical" })
      | .ok (previous, entry) =>
        pure (.ok { scan with found := scan.found ++ [⟨name, previous, entry, envelope⟩] })

/-- The leaves of the directory, one fully before the next. -/
def scan_leaves (chain_fd : Inode) : ChainScan → List String → Call (Except ChainDefect ChainScan)
  | scan, [] => pure (.ok scan)
  | scan, name :: rest =>
    if name ≠ STAGING_LEAF ∧ ¬ is_hex_digest name then pure (.error (foreign_leaf name))
    else do
      let next ← scan_leaf chain_fd scan name
      match next with
      | .error defect => pure (.error defect)
      | .ok scan => scan_leaves chain_fd scan rest

def scan_chain_directory (chain_fd : Inode) : Call (Except ChainDefect ChainScan) := do
  let names ← listdir chain_fd
  scan_leaves chain_fd { found := [], staged := none } (sorted_by id names)

end

/-! Linkage. -/

/-- `successors.get(previous)`: the digests of the rows that name a predecessor, in ascending order. -/
def successors (ascending : List Row) (previous : String) : List String :=
  (ascending.filter fun row => row.previous = some previous).map Row.digest

/-- The walk from an entry to its successors; each turn visits one more of the digests. -/
def walk (ascending : List Row) : (fuel : Nat) → (visited : List String) → String → Except ChainDefect (List String)
  | 0, visited, _ => .ok visited
  | fuel + 1, visited, current =>
    if current ∈ visited then .error
      { kind := .CYCLE, subject := some current
        detail := "the chain revisits entry " ++ current ++ ", so it contains a cycle" }
    else match successors ascending current with
      | [] => .ok (visited ++ [current])
      | following :: _ => walk ascending fuel (visited ++ [current]) following

def genesis_count : ChainDefect :=
  { kind := .GENESIS_COUNT, subject := none, detail := "a non-empty chain must contain exactly one genesis" }

def missing_predecessor (row : Row) : ChainDefect :=
  { kind := .MISSING_PREDECESSOR, subject := some row.digest
    detail := "chain entry " ++ row.digest ++ " names missing predecessor " ++ row.previous.getD "" }

def sibling_branch (previous : String) : ChainDefect :=
  { kind := .SIBLING_BRANCH, subject := some previous
    detail := "chain entry " ++ previous ++ " has more than one successor" }

def orphan_history (digest : String) : ChainDefect :=
  { kind := .ORPHAN_HISTORY, subject := some digest
    detail := "the chain contains an orphan history reaching entry " ++ digest }

/-- The defect, if there is one. -/
def refuse_some {α : Type} (defect : α → ChainDefect) : Option α → Except ChainDefect Unit
  | some item => .error (defect item)
  | none => .ok ()

/-- `_linearize` -/
def linearize (found : List Row) : Except ChainDefect (List (String × Entry) × String) :=
  match (found.filter fun row => row.previous.isNone).map Row.digest with
  | [first] => do
    let ascending := sorted_by Row.digest found
    refuse_some missing_predecessor
      (ascending.find? fun row => ∃ previous ∈ row.previous, previous ∉ found.map Row.digest)
    refuse_some sibling_branch ((sorted_by id (ascending.filterMap Row.previous)).find? fun previous =>
      1 < (successors ascending previous).length)
    let visited ← walk ascending (found.length + 1) [] first
    refuse_some (fun row : Row => orphan_history row.digest) (ascending.find? fun row => row.digest ∉ visited)
    let ordered := visited.filterMap fun digest =>
      (find_key Row.digest found digest).map fun row => (digest, row.entry)
    pure (ordered, visited.getLast?.getD first)
  | _ => .error genesis_count

/-! Entry classes. -/

inductive FulfillsFault
  | missing | non_ancestor | non_intent
  deriving DecidableEq

def fulfills_fault_value : FulfillsFault → String
  | .missing => "missing"
  | .non_ancestor => "non-ancestor"
  | .non_intent => "non-intent"

/-- `fulfills_fault`: the first entry with the digest decides. -/
def fulfills_fault (entries : List (String × Entry)) (index : Nat) (fulfills : String) : Option FulfillsFault :=
  match entries.zipIdx.find? fun item => item.1.1 = fulfills with
  | none => some .missing
  | some ((_, entry), position) =>
    if index ≤ position then some .non_ancestor
    else match entry with
      | .IntentEntry _ => none
      | _ => some .non_intent

/-- The position of the last entry with a digest, as a dictionary built from the entries holds it. -/
def index_of (entries : List (String × Entry)) (digest : String) : Option (Nat × Entry) :=
  (find_key (fun item : (String × Entry) × Nat => item.1.1) entries.zipIdx digest).map fun item => (item.2, item.1.2)

/-- What pass 3 has seen: the transactions registered and settled, and the intents fulfilled. -/
structure ClassState where
  registered : List String
  settled : List String
  fulfilled : List String

/-- One entry of `_inspect_entry_classes`. -/
def inspect_entry (entries : List (String × Entry)) (index : Nat) (digest : String) (entry : Entry)
    (seen : ClassState) : Except ChainDefect ClassState :=
  match entry with
  | .RegisteredEntry entry =>
    if entry.txid ∈ seen.registered then .error
      { kind := .DUPLICATE_REGISTRATION, subject := some digest
        detail := "registration " ++ digest ++ " repeats transaction " ++ entry.txid }
    else match entry.fulfills.bind fun fulfills => (fulfills_fault entries index fulfills).map fun fault =>
        (fulfills, fault) with
      | some (fulfills, fault) => .error
        { kind := .FULFILLS_UNRESOLVED, subject := some digest
          detail := fulfills_fault_value fault ++ " fulfills referent " ++ fulfills ++ " named by registration " ++
            digest }
      | none => .ok { seen with registered := entry.txid :: seen.registered }
  | .SettledEntry entry =>
    match index_of entries entry.registration with
    | some (position, .RegisteredEntry registration) =>
      if index ≤ position then .error
        { kind := .SETTLEMENT_WITHOUT_REGISTRATION, subject := some digest
          detail := "settlement " ++ digest ++ " names no ancestor registration" }
      else if registration.txid ≠ entry.txid then .error
        { kind := .SETTLEMENT_TXID_MISMATCH, subject := some digest
          detail := "settlement " ++ digest ++ " names a registration of another transaction" }
      else if entry.txid ∈ seen.settled then .error
        { kind := .DUPLICATE_SETTLEMENT, subject := some digest
          detail := "settlement " ++ digest ++ " settles transaction " ++ entry.txid ++ " a second time" }
      else
        let settled := entry.txid :: seen.settled
        match (if entry.outcome = .COMMITTED then registration.fulfills else none) with
        | none => .ok { seen with settled }
        | some fulfills =>
          if fulfills ∈ seen.fulfilled then .error
            { kind := .DUPLICATE_FULFILLMENT, subject := some digest
              detail := "settlement " ++ digest ++ " commits a second fulfillment of intent " ++ fulfills }
          else .ok { seen with settled, fulfilled := fulfills :: seen.fulfilled }
    | _ => .error
      { kind := .SETTLEMENT_WITHOUT_REGISTRATION, subject := some digest
        detail := "settlement " ++ digest ++ " names no ancestor registration" }
  | _ => .ok seen

/-- `_inspect_entry_classes` -/
def inspect_entry_classes (entries : List (String × Entry)) : Except ChainDefect ClassState :=
  entries.zipIdx.foldlM (fun seen item => inspect_entry entries item.2 item.1.1 item.1.2 seen)
    { registered := [], settled := [], fulfilled := [] }

/-- `_pending_of` -/
def pending_of (entries : List (String × Entry)) : List (String × String) :=
  let settled := entries.filterMap fun
    | (_, .SettledEntry entry) => some entry.txid
    | _ => none
  entries.filterMap fun
    | (digest, .RegisteredEntry entry) => if entry.txid ∈ settled then none else some (entry.txid, digest)
    | _ => none

def inspect_scan (scan : ChainScan) : ChainInspection :=
  match scan.found with
  | [] => .AbsentChain
  | _ => match linearize scan.found with
    | .error defect => .MalformedChain defect
    | .ok (entries, tip) => match inspect_entry_classes entries with
      | .error defect => .MalformedChain defect
      | .ok _ => .WellFormedChain
        { genesis_digest := (entries.head?.map Prod.fst).getD "", entries, tip, pending := pending_of entries }

end atoms.chain
