import Atoms.Coordinator.Copy.Durable
import Atoms.Coordinator.Copy.Faithful

open atoms.errors atoms.fingerprint atoms.identifiers atoms.paths atoms.spec atoms.fs atoms.store atoms.chain checked crash
  routes writeback

namespace atoms.coordinator

section

variable [UnicodeData] [Sha256] {root : Inode} {slot : Inode × String} {t u v : Disk}

/-- A power cut after a construction that ended leaves the destination in its place, with all that is below it but the claim. -/
theorem construction_survives_cut {args : CopyArguments} {source : Option CopySource} {entries : List (String × PathState)}
    {digest : Option String} (hhex : Hexadecimal) (h : (construct_destination args source root entries).Completes t digest u)
    (ht : t.Stable root slot {(root, ROOT_CLAIM_LEAF)} ∅) (htree : t.Tree root) (haccepted : ∀ fork ∈ args.fork, fork.Accepted)
    (hlisted : Listing (passed_over args.fork.isSome) entries)
    (hchain : ∀ fork ∈ args.fork, Unbegun root t ∨ ∃ digest, Forked root fork entries digest t) (hcut : u.Cut v) :
    v.child slot.1 slot.2 = some root ∧
      (∀ names, names.head? ≠ some ROOT_CLAIM_LEAF → state_at v root names = state_at u root names) ∧
      (args.fork = none → ∀ item ∈ entries, state_at v root (components item.1) = some item.2) := by
  have hu := construct_destination_stable h ht htree haccepted hlisted hchain
  obtain ⟨hconstructing, hconstructed⟩ := (construct_destination_ensures hhex htree haccepted hlisted hchain).completes h
  have hstates : ∀ names, names.head? ≠ some ROOT_CLAIM_LEAF → state_at v root names = state_at u root names :=
    fun names hnames => state_at_cut hu hconstructing.tree hcut hnames
  refine ⟨hu.place_cut hcut, hstates, fun hfork item hitem => ?_⟩
  rw [Constructed, hfork] at hconstructed
  have hname : (components item.1).head? ≠ some ROOT_CLAIM_LEAF := by
    intro heq
    refine hlisted.passed item hitem _ heq ?_
    rw [hfork]
    exact List.mem_singleton_self _
  exact (hstates _ hname).trans (hconstructed item hitem)

end

/-! The copy of a tree with one directory. -/

section

attribute [local instance] plain_text genesis_digest

/-- A volume with an empty destination and an empty source, on which nothing is pending. -/
def claimed_disk : Disk where
  entries := ⟨[((0, "d"), some ⟨.directory, 2⟩)], []⟩
  contents := ⟨[], []⟩
  modes := ⟨[(2, 0o700)], []⟩
  next := 3
  umask := 0o022
  short_writes := []

def one_directory : List (String × PathState) := [("x", .DirectoryState ⟨0o755⟩)]

def constructed_disk : Disk :=
  (construct_destination plain_copy (some plain_source) 2 one_directory claimed_disk).final

/-- What is left of it where all that is pending is lost. -/
def cut_disk : Disk where
  entries := ⟨constructed_disk.entries.flushed, []⟩
  contents := ⟨constructed_disk.contents.flushed, []⟩
  modes := ⟨constructed_disk.modes.flushed, []⟩
  next := constructed_disk.next
  umask := 0
  short_writes := []

theorem claimed_disk_stable : claimed_disk.Stable 2 (0, "d") {(2, ROOT_CLAIM_LEAF)} ∅ where
  place := rfl
  names _ hwrite := absurd hwrite List.not_mem_nil
  contents _ hwrite := absurd hwrite List.not_mem_nil
  modes _ hwrite := absurd hwrite List.not_mem_nil

theorem claimed_disk_tree : claimed_disk.Tree 2 := by
  have hlookup : ∀ parent name, claimed_disk.lookup parent name =
      if (0, "d") = (parent, name) then some ⟨.directory, 2⟩ else none := fun _ _ => rfl
  have hfound : ∀ {parent name entry}, claimed_disk.lookup parent name = some entry →
      parent = 0 ∧ name = "d" ∧ entry = ⟨.directory, 2⟩ := by
    intro parent name entry hentry
    rw [hlookup] at hentry
    split at hentry
    · rename_i heq
      cases heq
      cases hentry
      exact ⟨rfl, rfl, rfl⟩
    · cases hentry
  have hshallow : claimed_disk.Shallow 2 := ⟨Nat.lt_succ_self 2, fun _ => rfl⟩
  refine hshallow.tree ⟨fun parent name entry hentry => ?_, fun parent name hnext => ?_, fun parent name entry hentry => ?_⟩
  · obtain ⟨_, _, rfl⟩ := hfound hentry
    exact Nat.lt_succ_self 2
  · cases hentry : claimed_disk.lookup parent name with
    | none => rfl
    | some entry =>
      obtain ⟨rfl, _⟩ := hfound hentry
      cases hnext
  · obtain ⟨_, rfl, _⟩ := hfound hentry
    decide

theorem one_directory_listed : Listing (passed_over false) one_directory := by
  refine ⟨by decide, by decide, fun item hitem => ?_, fun item hitem => ?_, fun item hitem => ?_⟩ <;>
    obtain rfl := List.mem_singleton.mp hitem
  · exact (by decide : ∀ name ∈ components "x", name ≠ "" ∧ '/' ∉ name.toList)
  · decide
  · exact Int.le.intro 0o755 rfl

theorem one_directory_survives : cut_disk.child 0 "d" = some 2 ∧
    (∀ names, names.head? ≠ some ROOT_CLAIM_LEAF → state_at cut_disk 2 names = state_at constructed_disk 2 names) ∧
    (plain_copy.fork = none → ∀ item ∈ one_directory, state_at cut_disk 2 (components item.1) = some item.2) := by
  have hcompletes : (construct_destination plain_copy (some plain_source) 2 one_directory).Completes claimed_disk none
      constructed_disk := Prog.completes_final (by decide +kernel)
  have hcut : constructed_disk.Cut cut_disk :=
    ⟨⟨[], List.nil_sublist _, by simp [cut_disk]⟩, ⟨[], List.nil_sublist _, by simp [cut_disk]⟩,
      ⟨[], List.nil_sublist _, by simp [cut_disk]⟩, rfl⟩
  exact construction_survives_cut hexadecimal_genesis_digest hcompletes claimed_disk_stable claimed_disk_tree
    (fun _ hmem => by cases hmem) one_directory_listed (fun _ hmem => by cases hmem) hcut

end

end atoms.coordinator
