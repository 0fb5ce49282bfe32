import Atoms.Coordinator.Register.Converges

open atoms.errors atoms.fingerprint atoms.identifiers atoms.spec atoms.fs atoms.store atoms.chain checked crash json

namespace atoms.coordinator

section

variable [UnicodeData] [Sha256] {depth : Nat} {root : Inode} {args : Registration} {start s t : RootState}
  {minted : String} {request : OperationRequest}

/-- What attempts at a registration may leave, killed anywhere or not, one after another. -/
inductive Attempted (depth : Nat) (root : Inode) (args : Registration) (start : RootState) : RootState → Prop
  | start : Attempted depth root args start start
  | killed {s t : RootState} {minted : String} : Attempted depth root args start s → is_operation_id minted = true →
    (register_root depth root args minted).Passes s t → Attempted depth root args start t
  | ended {s : RootState} {minted : String} : Attempted depth root args start s → is_operation_id minted = true →
    Attempted depth root args start (register_root depth root args minted s).final

theorem Unregistered.left (h : Unregistered root s) : Left depth root args s.disk s :=
  ⟨⟨.refl _ _, h.numbered⟩, .unclaimed h.carrier (leaf_eq_none_iff.mpr h.claim) ⟨h.chain, h.bare⟩⟩

theorem Attempted.left (hhex : Hexadecimal) (hstart : Unregistered root start) (h : Attempted depth root args start t) :
    Left depth root args start.disk t := by
  induction h with
  | start => exact hstart.left
  | killed _ hminted hpasses ih => exact (register_root_ensures hhex hstart hminted ih).passes hpasses
  | ended _ hminted ih =>
    rcases (register_root_ensures hhex hstart hminted ih).cases with ⟨_, _, hleft, _⟩ | ⟨_, _, hleft, _⟩
    · exact hleft
    · exact hleft

end

/-! A root that is empty. -/

section

attribute [local instance] plain_text genesis_digest

def minted_id : String := String.ofList (List.replicate 32 'b')

theorem minted_minted_id : is_operation_id minted_id = true := by decide

end

end atoms.coordinator
