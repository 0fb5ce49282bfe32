import Atoms.Recovery.Classifier.Authorizable
import Atoms.Recovery.Classifier.Restored
import Atoms.Recovery.Variants.Resume

open atoms.errors atoms.fingerprint atoms.effects atoms.timeline atoms.compiler checked keyed

namespace atoms.recovery

variable [UnicodeData]

namespace classifier

/-- What an active record that rolls back needs to be classified by the planner again. -/
theorem rollback_source_of_rolling {s : RecoverySnapshot} (hrolling : s.transaction_state = .ROLLING_BACK)
    (hcommit : s.commit_decision = .UNCOMMITTED) (hactive : s.active = true)
    (hlanguage : journal.legal_journal_language .ROLLING_BACK s.states = true) (hauthorizable : Authorizable s) :
    RollbackSource s :=
  ⟨by simp [hrolling], hcommit, hactive, by rw [hrolling]; exact hlanguage, authorizable_iff.mpr hauthorizable⟩

end classifier

end atoms.recovery
