import Atoms.Core.Errors
import Atoms.Core.Paths
import Atoms.Library.Checked
import Atoms.Library.Text

open atoms.errors checked text

namespace atoms.fs.volume

structure MountEntry where
  mount_id : Nat
  device : String
  mount_point : String
  mount_options : List String
  filesystem_type : String
  super_options : List String
  deriving DecidableEq

/-- The token matches `[0-9]+`. -/
def is_decimal (token : List Char) : Bool := !token.isEmpty && token.all Char.isDigit

/-- The token matches `[0-9]+:[0-9]+`. -/
def is_device (token : List Char) : Bool :=
  match paths.split ':' token with
  | [major, minor] => is_decimal major && is_decimal minor
  | _ => false

/-- `_KERNEL_ESCAPE_VALUES`, by the digits after the backslash -/
def kernel_escape_value : List Char → Option Char
  | ['0', '4', '0'] => some ' '
  | ['0', '1', '1'] => some '\t'
  | ['0', '1', '2'] => some '\n'
  | ['1', '3', '4'] => some '\\'
  | _ => none

/-- `_INVALID_KERNEL_ESCAPE.search(value)`: where the first backslash is that begins none of the escapes. -/
def invalid_escape : (offset : Nat) → List Char → Option Nat
  | _, [] => none
  | offset, c :: rest =>
    if c = '\\' ∧ (kernel_escape_value (rest.take 3)).isNone then some offset else invalid_escape (offset + 1) rest

/-- `_KERNEL_ESCAPE.sub(...)` -/
def substitute : List Char → List Char
  | '\\' :: a :: b :: c :: rest =>
    match kernel_escape_value [a, b, c] with
    | some value => value :: substitute rest
    | none => '\\' :: substitute (a :: b :: c :: rest)
  | c :: rest => c :: substitute rest
  | [] => []

/-- `_unescape`, or the text of its `ValueError` -/
def unescape (value : List Char) : Except String (List Char) :=
  match invalid_escape 0 value with
  | some offset => throw ("unsupported kernel escape at offset " ++ toString offset)
  | none => pure (substitute value)

/-- `_mountinfo_error` -/
def mountinfo_error (line_number : Nat) (reason : String) : AtomsError :=
  .CapabilityUnavailable ("malformed mountinfo line " ++ toString line_number ++ ": " ++ reason)

/-- `_decimal_field` -/
def decimal_field (token : List Char) (name : String) (line_number : Nat) : Except AtomsError Nat := do
  require (is_decimal token) (mountinfo_error line_number (name ++ " is not an unsigned decimal token"))
  pure (Nat.ofDigitChars 10 token 0)

/-- `_option_field` -/
def option_field (token : List Char) (name : String) (line_number : Nat) : Except AtomsError (List String) := do
  let options := paths.split ',' token
  require ([] ∉ options) (mountinfo_error line_number (name ++ " contains an empty option"))
  pure (options.map String.ofList)

/-- `_unescape` of a field of the record -/
def unescaped_field (value : List Char) (line_number : Nat) : Except AtomsError (List Char) :=
  match unescape value with
  | .ok text => pure text
  | .error caught => throw (mountinfo_error line_number caught)

/-- One record of `parse_mountinfo`, as the words of its line. -/
def parse_record (line_number : Nat) (mount_ids : List Nat) (fields : List (List Char)) :
    Except AtomsError MountEntry := do
  require (fields.count ['-'] = 1) (mountinfo_error line_number "expected exactly one field separator")
  let separator := fields.idxOf ['-']
  require (6 ≤ separator) (mountinfo_error line_number "record is missing required pre-separator fields")
  require (fields.length = separator + 4)
    (mountinfo_error line_number "record must carry exactly three post-separator fields")
  let mount_id ← decimal_field (fields.getD 0 []) "mount id" line_number
  let _ ← decimal_field (fields.getD 1 []) "parent mount id" line_number
  require (is_device (fields.getD 2 [])) (mountinfo_error line_number "device is not an unsigned major:minor pair")
  require (mount_id ∉ mount_ids) (mountinfo_error line_number ("duplicate mount id " ++ toString mount_id))
  let _ ← unescaped_field (fields.getD 3 []) line_number
  let mount_point ← unescaped_field (fields.getD 4 []) line_number
  let _ ← unescaped_field (fields.getD (separator + 2) []) line_number
  let mount_options ← option_field (fields.getD 5 []) "mount options" line_number
  let super_options ← option_field (fields.getD (separator + 3) []) "super options" line_number
  pure
    { mount_id
      device := String.ofList (fields.getD 2 [])
      mount_point := String.ofList mount_point
      mount_options
      filesystem_type := String.ofList (fields.getD (separator + 1) [])
      super_options }

/-- The loop of `parse_mountinfo`. -/
def parse_lines : (line_number : Nat) → (mount_ids : List Nat) → List (List Char) → Except AtomsError (List MountEntry)
  | _, _, [] => pure []
  | line_number, mount_ids, line :: rest =>
    if line.all is_space then parse_lines (line_number + 1) mount_ids rest
    else do
      let entry ← parse_record line_number mount_ids (split_words line)
      let entries ← parse_lines (line_number + 1) (entry.mount_id :: mount_ids) rest
      pure (entry :: entries)

def parse_mountinfo (text : String) : Except AtomsError (List MountEntry) := parse_lines 1 [] (splitlines text.toList)

/-! What the parser accepts. -/

/-- The fields of a record, each in its place. -/
structure Fields where
  mount_id : List Char
  parent_id : List Char
  device : List Char
  root : List Char
  mount_point : List Char
  mount_options : List Char
  tags : List (List Char)
  filesystem_type : List Char
  source : List Char
  super_options : List Char

namespace Fields

def before (fields : Fields) : List (List Char) :=
  fields.mount_id :: fields.parent_id :: fields.device :: fields.root :: fields.mount_point :: fields.mount_options ::
    fields.tags

def after (fields : Fields) : List (List Char) := [fields.filesystem_type, fields.source, fields.super_options]

/-- The words of the record. -/
def words (fields : Fields) : List (List Char) := fields.before ++ ['-'] :: fields.after

/-- The fields are those of an entry. -/
structure Gives (fields : Fields) (entry : MountEntry) : Prop where
  before : ['-'] ∉ fields.before
  after : ['-'] ∉ fields.after
  mount_id : is_decimal fields.mount_id = true ∧ Nat.ofDigitChars 10 fields.mount_id 0 = entry.mount_id
  parent_id : is_decimal fields.parent_id = true
  device : is_device fields.device = true ∧ String.ofList fields.device = entry.device
  root : invalid_escape 0 fields.root = none
  mount_point : invalid_escape 0 fields.mount_point = none ∧
    String.ofList (substitute fields.mount_point) = entry.mount_point
  source : invalid_escape 0 fields.source = none
  mount_options : [] ∉ paths.split ',' fields.mount_options ∧
    (paths.split ',' fields.mount_options).map String.ofList = entry.mount_options
  filesystem_type : String.ofList fields.filesystem_type = entry.filesystem_type
  super_options : [] ∉ paths.split ',' fields.super_options ∧
    (paths.split ',' fields.super_options).map String.ofList = entry.super_options

end Fields

/-- The words of a record are those of an entry. -/
def Reads (words : List (List Char)) (entry : MountEntry) : Prop := ∃ fields : Fields, words = fields.words ∧ fields.Gives entry

theorem unescaped_field_eq_ok_iff {value result : List Char} {line_number : Nat} :
    unescaped_field value line_number = .ok result ↔ invalid_escape 0 value = none ∧ substitute value = result := by
  unfold unescaped_field unescape
  cases invalid_escape 0 value <;> simp [pure, Except.pure, throw, throwThe, MonadExceptOf.throw]

theorem decimal_field_eq_ok_iff {token : List Char} {name : String} {line_number value : Nat} :
    decimal_field token name line_number = .ok value ↔ is_decimal token = true ∧ Nat.ofDigitChars 10 token 0 = value := by
  simp [decimal_field]

theorem option_field_eq_ok_iff {token : List Char} {name : String} {line_number : Nat} {options : List String} :
    option_field token name line_number = .ok options ↔
      [] ∉ paths.split ',' token ∧ (paths.split ',' token).map String.ofList = options := by
  simp [option_field]

/-- Words with one separator, at least six before it and three after it, are the fields of a record. -/
theorem exists_fields {words : List (List Char)} (hcount : words.count ['-'] = 1) (hbefore : 6 ≤ words.idxOf ['-'])
    (hlength : words.length = words.idxOf ['-'] + 4) :
    ∃ fields : Fields, words = fields.words ∧ ['-'] ∉ fields.before ∧ ['-'] ∉ fields.after ∧
      words.idxOf ['-'] = fields.before.length := by
  have hmem : ['-'] ∈ words := List.count_pos_iff.mp (by omega)
  obtain ⟨before, after, rfl, hfresh⟩ := List.eq_append_cons_of_mem hmem
  have hindex : (before ++ ['-'] :: after).idxOf ['-'] = before.length := by
    rw [List.idxOf_append_of_notMem hfresh, List.idxOf_cons_self, Nat.add_zero]
  rw [hindex] at hbefore hlength
  have hafter : ['-'] ∉ after := by
    rw [List.count_append, List.count_cons_self, List.count_eq_zero_of_not_mem hfresh] at hcount
    exact List.count_eq_zero.mp (by omega)
  have hthree : after.length = 3 := by
    simp only [List.length_append, List.length_cons] at hlength
    omega
  obtain ⟨filesystem_type, source, super_options, rfl⟩ := List.length_eq_three.mp hthree
  rcases before with _ | ⟨mount_id, _ | ⟨parent_id, _ | ⟨device, _ | ⟨root, _ | ⟨mount_point, _ | ⟨mount_options, tags⟩⟩⟩⟩⟩⟩
  iterate 6 simp at hbefore
  exact ⟨⟨mount_id, parent_id, device, root, mount_point, mount_options, tags, filesystem_type, source,
    super_options⟩, rfl, hfresh, hafter, hindex⟩

theorem Fields.getD_after (fields : Fields) (index : Nat) :
    fields.words.getD (fields.before.length + (index + 1)) [] = fields.after.getD index [] := by
  rw [words, List.getD_eq_getElem?_getD, List.getElem?_append_right (Nat.le_add_right _ _), Nat.add_sub_cancel_left,
    List.getElem?_cons_succ, List.getD_eq_getElem?_getD]

/-- The parser makes an entry of the words of its fields, if no entry before it has its mount id. -/
theorem parse_record_eq_ok_iff {line_number : Nat} {mount_ids : List Nat} {words : List (List Char)} {entry : MountEntry} :
    parse_record line_number mount_ids words = .ok entry ↔ Reads words entry ∧ entry.mount_id ∉ mount_ids := by
  constructor
  · intro h
    unfold parse_record at h
    simp only [bind_eq_ok_iff, require_eq_ok_iff, decimal_field_eq_ok_iff, unescaped_field_eq_ok_iff,
      option_field_eq_ok_iff, pure_eq_ok_iff, exists_const] at h
    obtain ⟨hcount, hbefore, hlength, mount_id, hmount_id, parent_id, hparent_id, hdevice, hnew, root, hroot, mount_point,
      hmount_point, source, hsource, mount_options, hmount_options, super_options, hsuper_options, rfl⟩ := h
    obtain ⟨fields, rfl, hfresh, hafter, hindex⟩ := exists_fields hcount hbefore hlength
    rw [hindex, fields.getD_after 1] at hsource
    rw [hindex, fields.getD_after 2] at hsuper_options
    rw [hindex, fields.getD_after 0]
    refine ⟨⟨fields, rfl, ?_⟩, hnew⟩
    exact
      { before := hfresh
        after := hafter
        mount_id := hmount_id
        parent_id := hparent_id.1
        device := ⟨hdevice, rfl⟩
        root := hroot.1
        mount_point := ⟨hmount_point.1, congrArg String.ofList hmount_point.2⟩
        source := hsource.1
        mount_options := hmount_options
        filesystem_type := rfl
        super_options := hsuper_options }
  · rintro ⟨⟨fields, rfl, h⟩, hnew⟩
    have hindex : fields.words.idxOf ['-'] = fields.before.length := by
      rw [Fields.words, List.idxOf_append_of_notMem h.before, List.idxOf_cons_self, Nat.add_zero]
    have hcount : fields.words.count ['-'] = 1 := by
      rw [Fields.words, List.count_append, List.count_cons_self, List.count_eq_zero_of_not_mem h.before,
        List.count_eq_zero_of_not_mem h.after]
    have hbefore : 6 ≤ fields.before.length := by
      simp [Fields.before]
    have hlength : fields.words.length = fields.before.length + 4 := by
      rw [Fields.words, List.length_append, List.length_cons]
      rfl
    unfold parse_record
    simp only [bind_eq_ok_iff, require_eq_ok_iff, decimal_field_eq_ok_iff, unescaped_field_eq_ok_iff,
      option_field_eq_ok_iff, pure_eq_ok_iff, exists_const, hindex, fields.getD_after 0, fields.getD_after 1,
      fields.getD_after 2]
    refine ⟨hcount, hbefore, hlength, entry.mount_id, h.mount_id, _, ⟨h.parent_id, rfl⟩, h.device.1, hnew, _, ⟨h.root, rfl⟩,
      _, ⟨h.mount_point.1, rfl⟩, _, ⟨h.source, rfl⟩, _, h.mount_options, _, h.super_options, ?_⟩
    obtain ⟨mount_id, device, mount_point, mount_options, filesystem_type, super_options⟩ := entry
    rw [MountEntry.mk.injEq]
    exact ⟨rfl, h.device.2, h.mount_point.2, rfl, h.filesystem_type, rfl⟩

/-- The parser makes an entry of each line that has words, and no two entries have one mount id. -/
theorem parse_lines_eq_ok_iff {line_number : Nat} {mount_ids : List Nat} {lines : List (List Char)}
    {entries : List MountEntry} : parse_lines line_number mount_ids lines = .ok entries ↔
      List.Forall₂ Reads (worded lines) entries ∧ (entries.map MountEntry.mount_id).Nodup ∧
        ∀ entry ∈ entries, entry.mount_id ∉ mount_ids := by
  induction lines generalizing line_number mount_ids entries with
  | nil =>
    rw [parse_lines, pure_eq_ok_iff]
    constructor
    · rintro rfl
      exact ⟨.nil, List.nodup_nil, fun _ h => absurd h List.not_mem_nil⟩
    · rintro ⟨h, _⟩
      cases h
      rfl
  | cons line rest ih =>
    rw [parse_lines, worded_cons]
    by_cases hblank : split_words line = []
    · have hall : line.all is_space = true := List.all_eq_true.mpr (words_eq_nil_iff.mp hblank)
      rw [if_pos hall, if_pos hblank, List.nil_append]
      exact ih
    · have hall : ¬ line.all is_space = true := fun h => hblank (words_eq_nil_iff.mpr (List.all_eq_true.mp h))
      rw [if_neg hall, if_neg hblank, List.singleton_append]
      simp only [bind_eq_ok_iff, parse_record_eq_ok_iff, ih, pure_eq_ok_iff]
      constructor
      · rintro ⟨entry, ⟨hreads, hnew⟩, others, ⟨hall, hnodup, hfresh⟩, rfl⟩
        refine ⟨.cons hreads hall, ?_, ?_⟩
        · rw [List.map_cons, List.nodup_cons]
          refine ⟨fun hmem => ?_, hnodup⟩
          obtain ⟨other, hother, heq⟩ := List.mem_map.mp hmem
          exact hfresh other hother (heq ▸ List.mem_cons_self)
        · intro other hother
          obtain rfl | hother := List.mem_cons.mp hother
          · exact hnew
          · exact fun hmem => hfresh other hother (List.mem_cons_of_mem _ hmem)
      · rintro ⟨hall, hnodup, hfresh⟩
        cases hall with
        | @cons _ entry _ others hreads hall =>
          rw [List.map_cons, List.nodup_cons] at hnodup
          refine ⟨entry, ⟨hreads, hfresh entry List.mem_cons_self⟩, others, ⟨hall, hnodup.2, ?_⟩, rfl⟩
          intro other hother hmem
          obtain heq | hmem := List.mem_cons.mp hmem
          · exact hnodup.1 (heq ▸ List.mem_map_of_mem hother)
          · exact hfresh other (List.mem_cons_of_mem _ hother) hmem

theorem parse_mountinfo_eq_ok_iff {text : String} {entries : List MountEntry} :
    parse_mountinfo text = .ok entries ↔
      List.Forall₂ Reads (lines_of_words text.toList) entries ∧ (entries.map MountEntry.mount_id).Nodup := by
  rw [parse_mountinfo, parse_lines_eq_ok_iff, lines_of_words]
  refine and_congr_right fun _ => and_iff_left fun _ _ => List.not_mem_nil

end atoms.fs.volume
