import Atoms.Coordinator.Registration
import Atoms.Coordinator.Runs.Blobs
import Atoms.Coordinator.Runs.Workspaces
import Atoms.Fs.Streaming

open atoms.errors atoms.fingerprint atoms.identifiers atoms.paths atoms.fs atoms.fs.streaming atoms.spec atoms.store
  atoms.compiler atoms.recovery atoms.chain checked keyed crash

namespace atoms.coordinator

section

/-- `raise ChainStateInvalid(message)` unless `condition` holds. -/
abbrev require_history (condition : Prop) [Decidable condition] (message : String) : Storing Unit :=
  if condition then pure () else throw (.ChainStateInvalid message)

variable [UnicodeData] [Sha256]

/-- A record that is terminal, and bound to its one registration and its one settlement in the chain. -/
structure Settled (row : RecordRow) (validated : ValidatedChain) (registration : RegisteredEntry) : Prop where
  registered : ∃ digest, row.registration_digest = some digest ∧
    registrations validated.entries row.txid = [(digest, registration)] ∧
    bound_entry validated.entries digest = some (.RegisteredEntry registration)
  own : registration_entry row.spec row.txid = .ok (.RegisteredEntry registration)
  settled : ∃ digest settlement, row.settlement_digest = some digest ∧
    settlements validated.entries row.txid = [(digest, settlement)] ∧
    bound_entry validated.entries digest = some (.SettledEntry settlement) ∧
    some settlement.registration = row.registration_digest ∧
    (row.state, settlement.outcome) ∈ [(TransactionState.COMMITTED, ChainOutcome.COMMITTED), (.ROLLED_BACK, .ROLLED_BACK)]

variable {dirs : Directories} {captured : List (List UInt8)} {m m' : Metadata}

end

/-! A transaction that deletes an empty file is rolled back, and its preimage read. -/

attribute [local instance] journal.ascii empty_digest

end atoms.coordinator
