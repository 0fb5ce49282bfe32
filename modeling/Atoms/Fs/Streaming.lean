import Atoms.Fs.Observe
import Mathlib.Data.List.Infix

open atoms.recovery

namespace atoms.fs.streaming

/-- An open file. Read number `n` from here on gives at most `bound n` bytes, and at least one short of the end. -/
structure OpenFile where
  content : List UInt8
  position : Nat
  bound : Nat → Nat

namespace OpenFile

/-- What is left to read. -/
def unread (file : OpenFile) : List UInt8 := file.content.drop file.position

/-- `os.lseek(fd, 0, os.SEEK_SET)` -/
def rewind (file : OpenFile) : OpenFile := { file with position := 0 }

/-- `os.read` -/
def read (file : OpenFile) (size : Nat) : List UInt8 × OpenFile :=
  let chunk := file.unread.take (min (max 1 (file.bound 0)) size)
  (chunk, { file with position := file.position + chunk.length, bound := fun n => file.bound (n + 1) })

@[simp] theorem unread_rewind (file : OpenFile) : file.rewind.unread = file.content := rfl

@[simp] theorem content_read (file : OpenFile) (size : Nat) : (file.read size).2.content = file.content := rfl

/-- A read takes a chunk off what is left, however short the chunk is. -/
theorem read_append_unread (file : OpenFile) (size : Nat) :
    (file.read size).1 ++ (file.read size).2.unread = file.unread := by
  have hunread : (file.read size).2.unread = file.unread.drop (file.read size).1.length := by
    simp only [unread, read, List.drop_drop]
  have hlead : (file.read size).1 = file.unread.take (file.read size).1.length :=
    List.prefix_iff_eq_take.mp (List.take_prefix _ _)
  rw [hunread]
  conv_lhs => lhs; rw [hlead]
  exact List.take_append_drop _ _

theorem length_read_le (file : OpenFile) (size : Nat) : (file.read size).1.length ≤ size := by
  simp only [read, List.length_take]
  omega

/-- Only at the end does a read give nothing. -/
theorem read_eq_nil_iff (file : OpenFile) {size : Nat} (hsize : size ≠ 0) :
    (file.read size).1 = [] ↔ file.unread = [] := by
  have hbound : min (max 1 (file.bound 0)) size ≠ 0 := by omega
  simp only [read, List.take_eq_nil_iff, hbound, false_or]

end OpenFile

/-- `_read_exactly` -/
def read_exactly (file : OpenFile) (remaining : Nat) : List UInt8 × OpenFile :=
  if remaining = 0 then ([], file)
  else if (file.read remaining).1 = [] then ([], (file.read remaining).2)
  else
    let rest := read_exactly (file.read remaining).2 (remaining - (file.read remaining).1.length)
    ((file.read remaining).1 ++ rest.1, rest.2)
termination_by remaining
decreasing_by
  rename_i hmore hchunk
  have := List.length_pos_iff.mpr hchunk
  omega

/-- It gives what was asked for, unless the file ends before. -/
theorem read_exactly_eq (file : OpenFile) (size : Nat) :
    (read_exactly file size).1 = file.unread.take size ∧ (read_exactly file size).2.unread = file.unread.drop size := by
  fun_induction read_exactly file size with
  | case1 file => simp
  | case2 file remaining hmore hchunk =>
    have happend := file.read_append_unread remaining
    rw [hchunk, List.nil_append] at happend
    have hend := (file.read_eq_nil_iff hmore).mp hchunk
    simp [happend, hend]
  | case3 file remaining hmore hchunk rest ih =>
    obtain ⟨hgiven, hleft⟩ := ih
    have happend := file.read_append_unread remaining
    have hlength := file.length_read_le remaining
    rw [← happend, List.take_append, List.take_of_length_le hlength, List.drop_append, List.drop_of_length_le hlength,
      List.nil_append]
    exact ⟨congrArg _ hgiven, hleft⟩

/-- The comparison, from where the files stand. -/
def compare (size : Nat) (staged planned : OpenFile) : FileBuildRelation :=
  let left := read_exactly staged size
  let right := read_exactly planned size
  if left.1 = right.1 then
    if left.1 = [] then .EXACT else compare size left.2 right.2
  else
    let shortest := min left.1.length right.1.length
    if left.1.take shortest ≠ right.1.take shortest then .DIVERGED
    else if left.1.length < right.1.length then .STRICT_PREFIX else .DIVERGED
termination_by staged.unread.length
decreasing_by
  rename_i hend
  obtain ⟨hgiven, hleft⟩ := read_exactly_eq staged size
  have hpos := List.length_pos_iff.mpr hend
  simp only [left, hgiven, List.length_take] at hpos
  simp only [hleft, List.length_drop]
  omega

/-- `Observation.build_relation`, with `size` for `_READ_CHUNK` -/
def build_relation (size : Nat) (staged planned : OpenFile) : FileBuildRelation :=
  compare size staged.rewind planned.rewind

/-! What the comparison is for. -/

/-- How one content relates to another that it is built up to. -/
def relation_of (staged planned : List UInt8) : FileBuildRelation :=
  if staged = planned then .EXACT else if staged <+: planned then .STRICT_PREFIX else .DIVERGED

section

variable {size : Nat} {staged planned : List UInt8}

/-- A chunk that is the same on both sides leaves the relation to what follows. -/
theorem relation_of_drop (h : staged.take size = planned.take size) :
    relation_of (staged.drop size) (planned.drop size) = relation_of staged planned := by
  have hlead : staged.drop size <+: planned.drop size ↔ staged <+: planned := by
    conv_rhs => rw [← List.take_append_drop size staged, ← List.take_append_drop size planned, h]
    exact (List.prefix_append_right_inj _).symm
  have heq : staged.drop size = planned.drop size ↔ staged = planned := by
    conv_rhs => rw [← List.take_append_drop size staged, ← List.take_append_drop size planned, h]
    exact (List.append_cancel_left_eq _ _ _ ▸ Iff.rfl)
  simp only [relation_of, hlead, heq]

/-- Two chunks that differ decide: either one of them ends before they part, and its file with it, or they part. -/
theorem relation_of_differ (h : staged.take size ≠ planned.take size) :
    let left := staged.take size
    let right := planned.take size
    let shortest := min left.length right.length
    (if left.take shortest ≠ right.take shortest then FileBuildRelation.DIVERGED
      else if left.length < right.length then .STRICT_PREFIX else .DIVERGED) = relation_of staged planned := by
  intro left right shortest
  have hne : staged ≠ planned := fun heq => h (heq ▸ rfl)
  rw [relation_of, if_neg hne]
  by_cases hshort : staged.length < size ∧ staged.length < planned.length
  · -- the staged file ends in this chunk, the planned one does not end there
    have hleft : left = staged := List.take_of_length_le hshort.1.le
    have hlt : left.length < right.length := by
      simp only [hleft, right, List.length_take]
      omega
    have hshortest : shortest = staged.length := by
      simp only [shortest, hleft] at hlt ⊢
      omega
    have htake : right.take staged.length = planned.take staged.length := by
      simp only [right, List.take_take]
      congr 1
      omega
    rw [if_pos hlt, hshortest, hleft, List.take_length, htake]
    by_cases heq : staged = planned.take staged.length
    · rw [if_neg (not_not.mpr heq), if_pos (List.prefix_iff_eq_take.mpr heq)]
    · rw [if_pos heq, if_neg (mt List.prefix_iff_eq_take.mp heq)]
  · have hnot : ¬ staged <+: planned := by
      intro hlead
      obtain ⟨rest, rfl⟩ := hlead
      have hrest : rest ≠ [] := by
        rintro rfl
        exact hne (List.append_nil _).symm
      have := List.length_pos_iff.mpr hrest
      rw [List.length_append] at hshort
      exact h (List.take_append_of_le_length (by omega)).symm
    rw [if_neg hnot]
    by_cases hlt : left.length < right.length
    · have hend : staged.length < size ∧ staged.length < planned.length := by
        simp only [left, right, List.length_take] at hlt
        omega
      exact absurd hend hshort
    · rw [if_neg hlt, ite_self]

theorem relation_of_eq_exact_iff : relation_of staged planned = .EXACT ↔ staged = planned := by
  unfold relation_of
  split
  · simp [*]
  · split <;> simp [*]

theorem relation_of_eq_strict_prefix_iff :
    relation_of staged planned = .STRICT_PREFIX ↔ staged <+: planned ∧ staged ≠ planned := by
  unfold relation_of
  split
  · simp [*]
  · split <;> simp [*]

theorem relation_of_eq_diverged_iff : relation_of staged planned = .DIVERGED ↔ ¬ staged <+: planned := by
  unfold relation_of
  split
  · rename_i heq
    simp [heq, List.prefix_rfl]
  · split <;> simp [*]

end

/-- The streaming comparison gives the relation of what is left of the two files. -/
theorem compare_eq {size : Nat} (hsize : 1 ≤ size) (staged planned : OpenFile) :
    compare size staged planned = relation_of staged.unread planned.unread := by
  induction hlength : staged.unread.length using Nat.strong_induction_on generalizing staged planned with
  | h length ih =>
    obtain ⟨hstaged, hstaged_left⟩ := read_exactly_eq staged size
    obtain ⟨hplanned, hplanned_left⟩ := read_exactly_eq planned size
    rw [compare]
    simp only [hstaged, hplanned]
    by_cases heq : staged.unread.take size = planned.unread.take size
    · rw [if_pos heq]
      by_cases hend : staged.unread.take size = []
      · -- both files are at their ends
        have hnil := (List.take_eq_nil_iff.mp hend).resolve_left (by omega)
        have hnil' := (List.take_eq_nil_iff.mp (heq ▸ hend)).resolve_left (by omega)
        rw [if_pos hend, hnil, hnil', relation_of_eq_exact_iff.mpr rfl]
      · have hpos := List.length_pos_iff.mpr hend
        rw [List.length_take] at hpos
        have hless : (read_exactly staged size).2.unread.length < length := by
          rw [hstaged_left, List.length_drop]
          omega
        rw [if_neg hend, ih _ hless _ _ rfl, hstaged_left, hplanned_left, relation_of_drop heq]
    · rw [if_neg heq]
      exact relation_of_differ heq

/-- However the reads are split, and wherever the chunks end: the comparison says that the contents are equal, that the
staged one is a proper prefix of the planned one, or neither, exactly when it is so. -/
theorem build_relation_exact {size : Nat} (hsize : 1 ≤ size) (staged planned : OpenFile) :
    (build_relation size staged planned = .EXACT ↔ staged.content = planned.content) ∧
      (build_relation size staged planned = .STRICT_PREFIX ↔
        staged.content <+: planned.content ∧ staged.content ≠ planned.content) ∧
      (build_relation size staged planned = .DIVERGED ↔ ¬ staged.content <+: planned.content) := by
  rw [build_relation, compare_eq hsize, OpenFile.unread_rewind, OpenFile.unread_rewind]
  exact ⟨relation_of_eq_exact_iff, relation_of_eq_strict_prefix_iff, relation_of_eq_diverged_iff⟩

/-- Four bytes and six, read in chunks of two, the first file a byte at a time. -/
theorem build_relation_boundary : 1 ≤ 2 ∧
    build_relation 2 ⟨[1, 2, 3, 4], 3, fun _ => 1⟩ ⟨[1, 2, 3, 4, 5, 6], 0, fun n => n⟩ = .STRICT_PREFIX :=
  ⟨by decide, (build_relation_exact (by decide) _ _).2.1.mpr (by decide)⟩

/-- The whole-chunk comparison of an observation is the same relation. -/
theorem compare_chunks_eq {fuel : Nat} {staged planned : List UInt8} (hfuel : staged.length < fuel) :
    compare_chunks fuel staged planned = relation_of staged planned := by
  induction fuel generalizing staged planned with
  | zero => omega
  | succ fuel ih =>
    have hsize : 0 < READ_CHUNK := by decide
    rw [compare_chunks]
    by_cases heq : staged.take READ_CHUNK = planned.take READ_CHUNK
    · simp only [if_pos heq]
      by_cases hend : staged.take READ_CHUNK = []
      · have hnil := (List.take_eq_nil_iff.mp hend).resolve_left (by omega)
        have hnil' := (List.take_eq_nil_iff.mp (heq ▸ hend)).resolve_left (by omega)
        rw [if_pos hend, hnil, hnil', relation_of_eq_exact_iff.mpr rfl]
      · have hpos := List.length_pos_iff.mpr hend
        rw [List.length_take] at hpos
        rw [if_neg hend, ih (by rw [List.length_drop]; omega), relation_of_drop heq]
    · simp only [if_neg heq]
      exact relation_of_differ heq

end atoms.fs.streaming
