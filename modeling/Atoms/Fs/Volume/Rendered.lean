import Atoms.Core.Paths.Components
import Atoms.Fs.Volume

open atoms.errors checked text

namespace atoms.fs.volume

/-! How the kernel renders a record. -/

/-- A character inside a field. -/
def kernel_escape (c : Char) : List Char :=
  if c = ' ' then ['\\', '0', '4', '0']
  else if c = '\t' then ['\\', '0', '1', '1']
  else if c = '\n' then ['\\', '0', '1', '2']
  else if c = '\\' then ['\\', '1', '3', '4']
  else [c]

def escape (field : List Char) : List Char := field.flatMap kernel_escape

/-- The text of a field as it stands in a line. -/
def rendered (field : String) : String := String.ofList (escape field.toList)

/-- The options of a field, with a comma between any two. -/
def joined_options (options : List String) : List Char := [','].intercalate (options.map String.toList)

/-- One record of the mount table. -/
structure MountRecord where
  mount_id : Nat
  parent_id : Nat
  major : Nat
  minor : Nat
  root : String
  mount_point : String
  mount_options : List String
  tags : List String
  filesystem_type : String
  source : String
  super_options : List String
  /-- A comma ends an option, and no option is empty. -/
  options_separate : ∀ option ∈ mount_options ++ super_options, option ≠ "" ∧ ',' ∉ option.toList

namespace MountRecord

def device (record : MountRecord) : List Char := Nat.toDigits 10 record.major ++ ':' :: Nat.toDigits 10 record.minor

/-- The numbers that a line begins with. -/
def numbers (record : MountRecord) : List (List Char) :=
  [Nat.toDigits 10 record.mount_id, Nat.toDigits 10 record.parent_id, record.device]

/-- The fields between the numbers and the separator. -/
def places (record : MountRecord) : List (List Char) :=
  escape record.root.toList :: escape record.mount_point.toList :: escape (joined_options record.mount_options) ::
    record.tags.map fun tag => escape tag.toList

/-- The fields after the separator. -/
def filesystem (record : MountRecord) : List (List Char) :=
  [escape record.filesystem_type.toList, escape record.source.toList, escape (joined_options record.super_options)]

def line (record : MountRecord) : List Char :=
  [' '].intercalate (record.numbers ++ record.places ++ ['-'] :: record.filesystem)

/-- The entry of the record, its options and its type in the form that `text` gives them. -/
def entry_with (text : String → String) (record : MountRecord) : MountEntry where
  mount_id := record.mount_id
  device := String.ofList record.device
  mount_point := record.mount_point
  mount_options := record.mount_options.map text
  filesystem_type := text record.filesystem_type
  super_options := record.super_options.map text

/-- The entry of the record. -/
def entry (record : MountRecord) : MountEntry := record.entry_with id

end MountRecord

/-- The mount table. -/
def render (records : List MountRecord) : String := String.ofList (records.flatMap fun record => record.line ++ ['\n'])

/-! Escapes. -/

theorem kernel_escape_cases (c : Char) : kernel_escape c = [c] ∧ c ≠ '\\' ∨
    ∃ code, kernel_escape c = '\\' :: code ∧ code.length = 3 ∧ kernel_escape_value code = some c ∧
      (∀ d ∈ code, d ≠ '\\') ∧ ∀ d ∈ '\\' :: code, is_space d = false := by
  unfold kernel_escape
  split
  · rename_i h
    subst h
    exact .inr ⟨_, rfl, rfl, rfl, by simp, by simp [is_space]⟩
  split
  · rename_i h
    subst h
    exact .inr ⟨_, rfl, rfl, rfl, by simp, by simp [is_space]⟩
  split
  · rename_i h
    subst h
    exact .inr ⟨_, rfl, rfl, rfl, by simp, by simp [is_space]⟩
  split
  · rename_i h
    subst h
    exact .inr ⟨_, rfl, rfl, rfl, by simp, by simp [is_space]⟩
  · exact .inl ⟨rfl, by assumption⟩

theorem escape_cons (c : Char) (field : List Char) : escape (c :: field) = kernel_escape c ++ escape field := rfl

theorem invalid_escape_append {value : List Char} (h : ∀ c ∈ value, c ≠ '\\') (offset : Nat) (rest : List Char) :
    invalid_escape offset (value ++ rest) = invalid_escape (offset + value.length) rest := by
  induction value generalizing offset with
  | nil => rfl
  | cons c value ih =>
    have hc : ¬ (c = '\\' ∧ (kernel_escape_value ((value ++ rest).take 3)).isNone) := fun hc => h c List.mem_cons_self hc.1
    rw [List.cons_append, invalid_escape, if_neg hc, ih fun d hd => h d (List.mem_cons_of_mem _ hd), List.length_cons,
      Nat.add_assoc, Nat.add_comm 1]

/-- What the kernel escapes, the parser accepts. -/
theorem invalid_escape_escape (field : List Char) (offset : Nat) : invalid_escape offset (escape field) = none := by
  induction field generalizing offset with
  | nil => rfl
  | cons c field ih =>
    rw [escape_cons]
    obtain ⟨hplain, hc⟩ | ⟨code, hcode, hlength, hvalue, hplain, _⟩ := kernel_escape_cases c
    · have hone : ∀ d ∈ [c], d ≠ '\\' := fun d hd => List.mem_singleton.mp hd ▸ hc
      rw [hplain, invalid_escape_append hone, ih]
    · have hvalid : ¬ ('\\' = '\\' ∧ (kernel_escape_value ((code ++ escape field).take 3)).isNone) := by
        rw [← hlength, List.take_left, hvalue]
        simp
      rw [hcode, List.cons_append, invalid_escape, if_neg hvalid, invalid_escape_append hplain, ih]

/-- And undoes. -/
theorem substitute_escape (field : List Char) : substitute (escape field) = field := by
  induction field with
  | nil => rfl
  | cons c field ih =>
    rw [escape_cons]
    obtain ⟨hplain, hc⟩ | ⟨code, hcode, hlength, hvalue, _⟩ := kernel_escape_cases c
    · rw [hplain, List.singleton_append, substitute.eq_def]
      split
      · rename_i heq
        exact absurd (List.cons.inj heq).1 hc
      · rename_i heq
        obtain ⟨rfl, rfl⟩ := List.cons.inj heq
        rw [ih]
      · rename_i heq
        cases heq
    · obtain ⟨x, y, z, rfl⟩ := List.length_eq_three.mp hlength
      rw [hcode]
      simp only [List.cons_append, List.nil_append, substitute, hvalue, ih]

/-! Words. -/

theorem splitOnP_append_of_forall {p : Char → Bool} {value : List Char} (h : ∀ c ∈ value, p c = false) (rest : List Char) :
    (value ++ rest).splitOnP p = (rest.splitOnP p).modifyHead (value ++ ·) := by
  induction value with
  | nil =>
    rw [List.nil_append]
    cases rest.splitOnP p <;> rfl
  | cons c value ih =>
    rw [List.cons_append, List.splitOnP_cons_eq_if_modifyHead, h c List.mem_cons_self, if_neg Bool.false_ne_true,
      ih fun d hd => h d (List.mem_cons_of_mem _ hd), List.modifyHead_modifyHead]
    rfl

/-- White space that the kernel does not escape. -/
def is_foreign (c : Char) : Bool := is_space c && kernel_escape c = [c]

/-- The words of a field as it stands in a line: the field breaks at the white space that the kernel does not escape. -/
theorem splitOnP_escape (field : List Char) :
    (escape field).splitOnP is_space = (field.splitOnP is_foreign).map escape := by
  induction field with
  | nil => rfl
  | cons c field ih =>
    rw [escape_cons, List.splitOnP_cons_eq_if_modifyHead]
    cases hforeign : is_foreign c with
    | true =>
      simp only [is_foreign, Bool.and_eq_true, decide_eq_true_eq] at hforeign
      rw [hforeign.2, List.singleton_append, List.splitOnP_cons_eq_if_modifyHead, hforeign.1, if_pos rfl, if_pos rfl, ih]
      rfl
    | false =>
      have hspace : ∀ d ∈ kernel_escape c, is_space d = false := by
        obtain ⟨hplain, _⟩ | ⟨code, hcode, _, _, _, hcodes⟩ := kernel_escape_cases c
        · intro d hd
          rw [hplain, List.mem_singleton] at hd
          rw [hd]
          simpa [is_foreign, hplain] using hforeign
        · exact hcode ▸ hcodes
      rw [splitOnP_append_of_forall hspace, ih, if_neg Bool.false_ne_true]
      obtain ⟨head, tail, htail⟩ := List.exists_cons_of_ne_nil (List.splitOnP_ne_nil is_foreign field)
      rw [htail, List.modifyHead_cons, List.map_cons, List.modifyHead_cons, List.map_cons]
      rfl

/-- A word of a field is the rendering of a text. -/
theorem exists_of_mem_split_words {field word : List Char} (h : word ∈ split_words (escape field)) :
    ∃ value, word = escape value := by
  rw [split_words, words, splitOnP_escape] at h
  obtain ⟨value, _, rfl⟩ := List.mem_map.mp (List.mem_filter.mp h).1
  exact ⟨value, rfl⟩

theorem split_words_intercalate (fields : List (List Char)) :
    split_words ([' '].intercalate fields) = fields.flatMap split_words := by
  induction fields with
  | nil => rfl
  | cons field rest ih =>
    cases rest with
    | nil => simp [List.intercalate]
    | cons other rest =>
      have hcons : [' '].intercalate (field :: other :: rest) = field ++ ' ' :: [' '].intercalate (other :: rest) := by
        simp [List.intercalate, List.intersperse]
      rw [hcons, List.flatMap_cons, ← ih]
      exact words_append_cons (by decide) _ _

/-! Numbers. -/

theorem is_decimal_toDigits (value : Nat) : is_decimal (Nat.toDigits 10 value) = true := by
  have hall : ∀ c ∈ Nat.toDigits 10 value, c.isDigit = true := fun c hc => Nat.isDigit_of_mem_toDigits (by omega) (by omega) hc
  simp only [is_decimal, Bool.and_eq_true, List.all_eq_true]
  exact ⟨by simp, hall⟩

theorem is_space_of_is_digit {c : Char} (h : c.isDigit = true) : is_space c = false := by
  have hbounds : 48 ≤ c.toNat ∧ c.toNat ≤ 57 := by
    simp only [Char.isDigit, Bool.and_eq_true, decide_eq_true_eq, UInt32.le_iff_toNat_le] at h
    exact h
  rw [Bool.eq_false_iff]
  intro hspace
  simp only [is_space, Bool.or_eq_true, Bool.and_eq_true, decide_eq_true_eq, beq_iff_eq] at hspace
  omega

theorem not_mem_of_is_decimal {token : List Char} (h : is_decimal token = true) {c : Char} (hc : c.isDigit = false) : c ∉ token := by
  simp only [is_decimal, Bool.and_eq_true, List.all_eq_true] at h
  intro hmem
  rw [h.2 c hmem] at hc
  cases hc

namespace MountRecord

variable (record : MountRecord)

theorem is_device_device : is_device record.device = true := by
  have hdevice : record.device = [':'].intercalate [Nat.toDigits 10 record.major, Nat.toDigits 10 record.minor] := by
    simp [device, List.intercalate]
  have hcolon : ∀ part ∈ [Nat.toDigits 10 record.major, Nat.toDigits 10 record.minor], ':' ∉ part := by
    intro part hpart
    simp only [List.mem_cons, List.not_mem_nil, or_false] at hpart
    obtain rfl | rfl := hpart <;> exact not_mem_of_is_decimal (is_decimal_toDigits _) (by decide)
  have hsplit := List.splitOn_intercalate ':' hcolon (List.cons_ne_nil _ _)
  rw [is_device, hdevice, paths.split_eq_splitOn, hsplit]
  simp [is_decimal_toDigits]

theorem not_space_of_mem_numbers {field : List Char} (h : field ∈ record.numbers) {c : Char} (hc : c ∈ field) :
    is_space c = false := by
  have hdigit : ∀ value, c ∈ Nat.toDigits 10 value → is_space c = false := fun value hc =>
    is_space_of_is_digit (Nat.isDigit_of_mem_toDigits (by omega) (by omega) hc)
  simp only [numbers, List.mem_cons, List.not_mem_nil, or_false] at h
  obtain rfl | rfl | rfl := h
  · exact hdigit _ hc
  · exact hdigit _ hc
  · rw [device, List.mem_append, List.mem_cons] at hc
    obtain hc | rfl | hc := hc
    · exact hdigit _ hc
    · rfl
    · exact hdigit _ hc

/-- The numbers are a word each, and none of them is the separator. -/
theorem split_words_numbers : record.numbers.flatMap split_words = record.numbers ∧ ['-'] ∉ record.numbers := by
  have hwords : ∀ field ∈ record.numbers, split_words field = [field] := by
    intro field hfield
    refine words_of_forall ?_ fun c hc => record.not_space_of_mem_numbers hfield hc
    simp only [numbers, List.mem_cons, List.not_mem_nil, or_false] at hfield
    obtain rfl | rfl | rfl := hfield
    · exact Nat.toDigits_ne_nil
    · exact Nat.toDigits_ne_nil
    · simp [device]
  have hdash : ∀ value, ['-'] ≠ Nat.toDigits 10 value := by
    intro value heq
    have hnot := not_mem_of_is_decimal (is_decimal_toDigits value) (c := '-') (by decide)
    exact hnot (heq ▸ List.mem_singleton_self _)
  constructor
  · rw [List.flatMap_congr hwords, List.flatMap_singleton']
  · simp only [numbers, List.mem_cons, List.not_mem_nil, or_false, not_or]
    refine ⟨hdash _, hdash _, fun heq => ?_⟩
    have hcolon : ':' ∈ record.device := List.mem_append_right _ List.mem_cons_self
    rw [← heq] at hcolon
    revert hcolon
    decide

/-- The words of a line. -/
theorem split_words_line : split_words record.line = (record.numbers ++ record.places.flatMap split_words) ++
    ['-'] :: record.filesystem.flatMap split_words := by
  have hdash : split_words ['-'] = [['-']] := words_of_forall (List.cons_ne_nil _ _) (by simp [is_space])
  rw [line, split_words_intercalate, List.flatMap_append, List.flatMap_append, List.flatMap_cons,
    record.split_words_numbers.1, hdash, List.singleton_append]

end MountRecord

/-! Options. -/

/-- The parser finds the options of a field in it. -/
theorem split_options_iff {options : List String} (h : ∀ option ∈ options, option ≠ "" ∧ ',' ∉ option.toList)
    {token : List Char} (hne : token ≠ []) :
    [] ∉ paths.split ',' token ∧ (paths.split ',' token).map String.ofList = options ↔ token = joined_options options := by
  rw [paths.split_eq_splitOn]
  constructor
  · rintro ⟨_, rfl⟩
    rw [joined_options, List.map_map]
    have hid : (String.toList ∘ String.ofList) = (id : List Char → List Char) := funext fun _ => String.toList_ofList
    rw [hid, List.map_id]
    exact (List.intercalate_splitOn ',').symm
  · rintro rfl
    have hoptions : options ≠ [] := by
      rintro rfl
      exact hne rfl
    have hsplit : (joined_options options).splitOn ',' = options.map String.toList := by
      refine List.splitOn_intercalate ',' (fun part hpart => ?_) (by simpa using hoptions)
      obtain ⟨option, hoption, rfl⟩ := List.mem_map.mp hpart
      exact (h option hoption).2
    rw [hsplit, List.map_map]
    have hid : (String.ofList ∘ String.toList) = (id : String → String) := funext fun _ => String.ofList_toList
    rw [hid, List.map_id]
    refine ⟨fun hmem => ?_, rfl⟩
    obtain ⟨option, hoption, hnil⟩ := List.mem_map.mp hmem
    exact (h option hoption).1 (String.toList_inj.mp hnil)

/-! What the parser makes of a line. -/

/-- A form of the options and of the type that neither adds nor removes what the parser goes by. -/
structure Form (text : String → String) : Prop where
  foreign : ∀ value c, c ∈ value.toList → is_foreign c = true → c ∈ (text value).toList
  separate : ∀ value, value ≠ "" ∧ ',' ∉ value.toList → text value ≠ "" ∧ ',' ∉ (text value).toList

/-- The words of the record's fields are where the parser looks for them: the mount point is the second word of the
fields before the separator and the mount options are the third, the type is the first of the three words after it and
the super options are the last, and no word of theirs is taken for the separator. -/
structure Placed (text : String → String) (record : MountRecord) : Prop where
  before : ∃ root tags, record.places.flatMap split_words =
    root :: escape record.mount_point.toList :: joined_options (record.mount_options.map text) :: tags
  after : ∃ source, record.filesystem.flatMap split_words =
    [(text record.filesystem_type).toList, source, joined_options (record.super_options.map text)]
  unmarked : ['-'] ∉ record.places.flatMap split_words ∧ ['-'] ∉ record.filesystem.flatMap split_words

theorem Form.options {text : String → String} (h : Form text) {options : List String}
    (hoptions : ∀ option ∈ options, option ≠ "" ∧ ',' ∉ option.toList) :
    ∀ option ∈ options.map text, option ≠ "" ∧ ',' ∉ option.toList := by
  intro option hoption
  obtain ⟨value, hvalue, rfl⟩ := List.mem_map.mp hoption
  exact h.separate value (hoptions value hvalue)

/-- A word of the record's fields is the rendering of a text. -/
theorem MountRecord.exists_of_mem_places {record : MountRecord} {word : List Char}
    (h : word ∈ record.places.flatMap split_words ∨ word ∈ record.filesystem.flatMap split_words) :
    word ≠ [] ∧ ∃ value, word = escape value := by
  have hfield : ∃ field, word ∈ split_words (escape field) := by
    rw [List.mem_flatMap, List.mem_flatMap] at h
    obtain ⟨field, hfield, hword⟩ | ⟨field, hfield, hword⟩ := h
    · simp only [places, List.mem_cons, List.mem_map] at hfield
      obtain rfl | rfl | rfl | ⟨tag, _, rfl⟩ := hfield <;> exact ⟨_, hword⟩
    · simp only [filesystem, List.mem_cons, List.not_mem_nil, or_false] at hfield
      obtain rfl | rfl | rfl := hfield <;> exact ⟨_, hword⟩
  obtain ⟨field, hword⟩ := hfield
  exact ⟨(of_mem_words hword).1, exists_of_mem_split_words hword⟩

/-- The parser makes the record's entry of the line exactly when the words are in their places. -/
theorem reads_line_iff {text : String → String} (h : Form text) (record : MountRecord) :
    Reads (split_words record.line) (record.entry_with text) ↔ Placed text record := by
  have hmount : ∀ option ∈ record.mount_options.map text, option ≠ "" ∧ ',' ∉ option.toList :=
    h.options fun option hoption => record.options_separate option (List.mem_append_left _ hoption)
  have hsuper : ∀ option ∈ record.super_options.map text, option ≠ "" ∧ ',' ∉ option.toList :=
    h.options fun option hoption => record.options_separate option (List.mem_append_right _ hoption)
  rw [record.split_words_line]
  constructor
  · rintro ⟨fields, hwords, hgives⟩
    obtain ⟨hbefore, -, hafter⟩ := (List.append_cons_inj_of_notMem hgives.before hgives.after).mp hwords.symm
    have hunmarked := hgives.before
    rw [hbefore, List.mem_append, not_or] at hunmarked
    simp only [Fields.before, MountRecord.numbers, List.cons_append, List.nil_append, List.cons.injEq] at hbefore
    obtain ⟨_, _, _, hplaces⟩ := hbefore
    have hword : ∀ word, word ∈ fields.root :: fields.mount_point :: fields.mount_options :: fields.tags ∨
        word ∈ fields.after → word ≠ [] ∧ ∃ value, word = escape value := by
      intro word hmem
      rw [hplaces, hafter] at hmem
      exact MountRecord.exists_of_mem_places hmem
    refine ⟨⟨fields.root, fields.tags, ?_⟩, ⟨fields.source, ?_⟩, hunmarked.2, hafter ▸ hgives.after⟩
    · obtain ⟨_, value, hvalue⟩ := hword fields.mount_point (.inl (by simp))
      have hpoint : value = record.mount_point.toList := by
        have hgiven := hgives.mount_point.2
        rw [hvalue, substitute_escape] at hgiven
        rw [← String.toList_ofList (l := value), hgiven]
        rfl
      have hoptions := (split_options_iff hmount (hword fields.mount_options (.inl (by simp))).1).mp hgives.mount_options
      rw [← hplaces, ← hoptions, ← hpoint, ← hvalue]
    · have hoptions := (split_options_iff hsuper (hword fields.super_options (.inr (by simp [Fields.after]))).1).mp
        hgives.super_options
      have htype : fields.filesystem_type = (text record.filesystem_type).toList := by
        rw [← String.toList_ofList (l := fields.filesystem_type), hgives.filesystem_type]
        rfl
      rw [← hafter, ← hoptions, ← htype]
      rfl
  · rintro ⟨⟨root, tags, hplaces⟩, ⟨source, hafter⟩, hunmarked, hunmarked'⟩
    let fields : Fields :=
      { mount_id := Nat.toDigits 10 record.mount_id
        parent_id := Nat.toDigits 10 record.parent_id
        device := record.device
        root
        mount_point := escape record.mount_point.toList
        mount_options := joined_options (record.mount_options.map text)
        tags
        filesystem_type := (text record.filesystem_type).toList
        source
        super_options := joined_options (record.super_options.map text) }
    have hbefore : fields.before = record.numbers ++ record.places.flatMap split_words := by
      rw [hplaces]
      rfl
    have hword : ∀ word, word ∈ record.places.flatMap split_words ∨ word ∈ record.filesystem.flatMap split_words →
        word ≠ [] ∧ invalid_escape 0 word = none := by
      intro word hmem
      obtain ⟨hne, value, rfl⟩ := MountRecord.exists_of_mem_places hmem
      exact ⟨hne, invalid_escape_escape value 0⟩
    refine ⟨fields, ?_, ?_⟩
    · rw [Fields.words, hbefore, hafter]
      rfl
    · exact
        { before := by
            rw [hbefore, List.mem_append, not_or]
            exact ⟨record.split_words_numbers.2, hunmarked⟩
          after := by
            rw [hafter] at hunmarked'
            exact hunmarked'
          mount_id := ⟨is_decimal_toDigits _, Nat.ofDigitChars_toDigits (by omega) (by omega)⟩
          parent_id := is_decimal_toDigits _
          device := ⟨record.is_device_device, rfl⟩
          root := (hword root (.inl (by simp [hplaces]))).2
          mount_point := by
            refine ⟨invalid_escape_escape _ 0, ?_⟩
            rw [substitute_escape, String.ofList_toList]
            rfl
          source := (hword source (.inr (by simp [hafter]))).2
          mount_options := (split_options_iff hmount (hword _ (.inl (by simp [hplaces, fields]))).1).mpr rfl
          filesystem_type := String.ofList_toList
          super_options := (split_options_iff hsuper (hword _ (.inr (by simp [hafter, fields]))).1).mpr rfl }

/-- The line of a record is read back: it stays one line, and its words are in their places. -/
structure Recoverable (text : String → String) (record : MountRecord) : Prop where
  unbroken : ∀ c ∈ record.line, is_line_break c = false
  placed : Placed text record

theorem lines_of_words_render (records : List MountRecord) :
    lines_of_words (render records).toList = records.flatMap fun record => lines_of_words record.line := by
  rw [render, String.toList_ofList]
  induction records with
  | nil => rfl
  | cons record rest ih =>
    rw [List.flatMap_cons, List.flatMap_cons, ← ih, List.append_assoc, List.singleton_append]
    exact lines_of_words_append_cons (by decide) _ _

/-- A table of as many lines with words as it has records has one for each record. -/
theorem length_eq_one_of_flatMap {records : List MountRecord} {lines : MountRecord → List (List (List Char))}
    (h : (records.flatMap lines).length ≤ records.length) (hpos : ∀ record, lines record ≠ []) :
    ∀ record ∈ records, (lines record).length = 1 := by
  have hleast : ∀ records : List MountRecord, records.length ≤ (records.flatMap lines).length := by
    intro records
    induction records with
    | nil => exact Nat.le_refl _
    | cons record rest ih =>
      have hone := List.length_pos_iff.mpr (hpos record)
      rw [List.flatMap_cons, List.length_append, List.length_cons]
      omega
  induction records with
  | nil => exact fun _ hmem => absurd hmem List.not_mem_nil
  | cons record rest ih =>
    have hone := List.length_pos_iff.mpr (hpos record)
    have hrest := hleast rest
    rw [List.flatMap_cons, List.length_append, List.length_cons] at h
    intro other hother
    obtain rfl | hother := List.mem_cons.mp hother
    · omega
    · exact ih (by omega) other hother

theorem mem_joined_options {options : List String} {option : String} (h : option ∈ options) {c : Char}
    (hc : c ∈ option.toList) : c ∈ joined_options options := by
  rw [joined_options, List.intercalate, List.mem_flatten]
  refine ⟨option.toList, ?_, hc⟩
  induction options with
  | nil => cases h
  | cons head rest ih =>
    rw [List.map_cons]
    cases rest with
    | nil => simpa using List.mem_singleton.mp h ▸ rfl
    | cons other rest =>
      rw [List.map_cons, List.intersperse_cons_cons]
      obtain rfl | h := List.mem_cons.mp h
      · exact List.mem_cons_self
      · exact List.mem_cons_of_mem _ (List.mem_cons_of_mem _ (ih h))

theorem of_mem_intercalate {separator c : Char} {fields : List (List Char)} (hc : c ∈ [separator].intercalate fields) :
    c = separator ∨ ∃ field ∈ fields, c ∈ field := by
  induction fields with
  | nil => cases hc
  | cons head rest ih =>
    cases rest with
    | nil =>
      rw [List.intercalate_singleton] at hc
      exact .inr ⟨head, List.mem_singleton_self _, hc⟩
    | cons other rest =>
      have hcons : [separator].intercalate (head :: other :: rest) =
          head ++ separator :: [separator].intercalate (other :: rest) := by
        simp [List.intercalate]
      rw [hcons, List.mem_append, List.mem_cons] at hc
      obtain hc | hc | hc := hc
      · exact .inr ⟨head, List.mem_cons_self, hc⟩
      · exact .inl hc
      · obtain hseparator | ⟨field, hfield, hc⟩ := ih hc
        · exact .inl hseparator
        · exact .inr ⟨field, List.mem_cons_of_mem _ hfield, hc⟩

theorem of_mem_joined_options {options : List String} {c : Char} (hc : c ∈ joined_options options) :
    c = ',' ∨ ∃ option ∈ options, c ∈ option.toList := by
  obtain hcomma | ⟨field, hfield, hc⟩ := of_mem_intercalate hc
  · exact .inl hcomma
  · obtain ⟨option, hoption, rfl⟩ := List.mem_map.mp hfield
    exact .inr ⟨option, hoption, hc⟩

theorem exists_intercalate_append (fields : List (List Char)) (field : List Char) :
    ∃ start, [' '].intercalate (fields ++ [field]) = start ++ field := by
  induction fields with
  | nil => exact ⟨[], by simp⟩
  | cons head rest ih =>
    obtain ⟨start, hstart⟩ := ih
    obtain ⟨other, others, hothers⟩ := List.exists_cons_of_ne_nil (List.append_ne_nil_of_right_ne_nil rest
      (List.cons_ne_nil field []))
    refine ⟨head ++ ' ' :: start, ?_⟩
    rw [hothers] at hstart
    rw [List.cons_append, hothers, List.append_assoc, List.cons_append, ← hstart]
    simp [List.intercalate, List.intersperse]

/-- A field without white space of its own stands in a line without any. -/
theorem not_space_of_mem_escape {field : List Char} (h : ∀ c ∈ field, is_foreign c = false) :
    ∀ d ∈ escape field, is_space d = false := by
  intro d hd
  obtain ⟨c, hc, hd⟩ := List.mem_flatMap.mp hd
  obtain ⟨hplain, _⟩ | ⟨code, hcode, _, _, _, hcodes⟩ := kernel_escape_cases c
  · have hforeign := h c hc
    rw [hplain, List.mem_singleton] at hd
    rw [hd]
    simpa [is_foreign, hplain] using hforeign
  · exact hcodes d (hcode ▸ hd)

/-- A record whose words are in their places ends in a character that is no white space. -/
theorem exists_last {text : String → String} (h : Form text) {record : MountRecord} (hplaced : Placed text record) :
    ∃ start last, record.line = start ++ [last] ∧ is_space last = false := by
  obtain ⟨source, hafter⟩ := hplaced.after
  have hword : joined_options (record.super_options.map text) ≠ [] ∧
      ∀ c ∈ joined_options (record.super_options.map text), is_space c = false := by
    have hmem : joined_options (record.super_options.map text) ∈ record.filesystem.flatMap split_words := by
      rw [hafter]
      simp
    obtain ⟨field, _, hword⟩ := List.mem_flatMap.mp hmem
    exact of_mem_words hword
  have hforeign : ∀ c ∈ joined_options record.super_options, is_foreign c = false := by
    intro c hc
    refine Bool.eq_false_iff.mpr fun hforeign => ?_
    obtain rfl | ⟨option, hoption, hc⟩ := of_mem_joined_options hc
    · revert hforeign
      decide
    · have hspace := hword.2 c (mem_joined_options (List.mem_map_of_mem hoption) (h.foreign option c hc hforeign))
      simp [is_foreign, hspace] at hforeign
  have hne : escape (joined_options record.super_options) ≠ [] := by
    obtain ⟨option, hoption⟩ : ∃ option, option ∈ record.super_options := by
      refine List.exists_mem_of_ne_nil _ fun hnil => hword.1 ?_
      rw [hnil]
      rfl
    have hsome := (record.options_separate option (List.mem_append_right _ hoption)).1
    obtain ⟨c, hc⟩ := List.exists_mem_of_ne_nil option.toList fun hnil => hsome (String.toList_inj.mp hnil)
    intro hnil
    have hmem := mem_joined_options hoption hc
    rw [escape, List.flatMap_eq_nil_iff] at hnil
    have hcode := hnil c hmem
    obtain ⟨hplain, _⟩ | ⟨code, hescape, _⟩ := kernel_escape_cases c
    · rw [hplain] at hcode
      cases hcode
    · rw [hescape] at hcode
      cases hcode
  obtain ⟨start, hstart⟩ := exists_intercalate_append (record.numbers ++ record.places ++ ['-'] ::
    [escape record.filesystem_type.toList, escape record.source.toList]) (escape (joined_options record.super_options))
  have hline : record.line = start ++ escape (joined_options record.super_options) := by
    rw [← hstart, MountRecord.line, MountRecord.filesystem, List.append_assoc _ (['-'] :: _)]
    rfl
  refine ⟨start ++ (escape (joined_options record.super_options)).dropLast, (escape (joined_options
    record.super_options)).getLast hne, ?_, not_space_of_mem_escape hforeign _ (List.getLast_mem hne)⟩
  rw [List.append_assoc, List.dropLast_append_getLast, hline]

theorem lines_of_words_ne_nil {value : List Char} {c : Char} (hc : c ∈ value) (h : is_space c = false) :
    lines_of_words value ≠ [] := by
  intro hnil
  have hflatten := flatten_lines_of_words value
  rw [hnil, List.flatten_nil, eq_comm, words_eq_nil_iff] at hflatten
  rw [hflatten c hc] at h
  cases h

theorem MountRecord.exists_first (record : MountRecord) : ∃ first rest, record.line = first :: rest ∧ first.isDigit = true := by
  obtain ⟨first, digits, hdigits⟩ := List.exists_cons_of_ne_nil (Nat.toDigits_ne_nil (b := 10) (n := record.mount_id))
  have hfirst : first ∈ Nat.toDigits 10 record.mount_id := by
    rw [hdigits]
    exact List.mem_cons_self
  refine ⟨first, digits ++ ' ' :: [' '].intercalate (Nat.toDigits 10 record.parent_id :: record.device :: (record.places ++
    ['-'] :: record.filesystem)), ?_, Nat.isDigit_of_mem_toDigits (by omega) (by omega) hfirst⟩
  rw [line, numbers, hdigits]
  simp [List.intercalate, List.intersperse]

/-- A line that is read as one is one: a break in it would part the mount id from the end of the super options. -/
theorem unbroken_of_one {text : String → String} (h : Form text) {record : MountRecord} (hplaced : Placed text record)
    (hone : (lines_of_words record.line).length = 1) : ∀ c ∈ record.line, is_line_break c = false := by
  obtain ⟨start, last, hline, hlast⟩ := exists_last h hplaced
  obtain ⟨first, rest, hfirst, hdigit⟩ := record.exists_first
  intro c hc
  refine Bool.eq_false_iff.mpr fun hbreak => ?_
  have hspace := is_space_of_is_line_break hbreak
  obtain ⟨left, right, hparts⟩ := List.append_of_mem hc
  have hleft : first ∈ left := by
    rw [hfirst] at hparts
    cases left with
    | nil =>
      rw [List.nil_append, List.cons.injEq] at hparts
      rw [← hparts.1, is_space_of_is_digit hdigit] at hspace
      cases hspace
    | cons d left =>
      rw [List.cons_append, List.cons.injEq] at hparts
      exact hparts.1 ▸ List.mem_cons_self
  have hright : last ∈ right := by
    have hend := hline.symm.trans hparts
    have hlasts := congrArg List.getLast? hend
    rw [List.getLast?_concat] at hlasts
    cases right with
    | nil =>
      rw [List.getLast?_concat, Option.some.injEq] at hlasts
      rw [← hlasts, hlast] at hspace
      cases hspace
    | cons d right =>
      rw [List.getLast?_append_of_ne_nil _ (List.cons_ne_nil _ _), List.getLast?_cons_cons] at hlasts
      exact List.mem_of_getLast? hlasts.symm
  rw [hparts, lines_of_words_append_cons hbreak, List.length_append] at hone
  have hfew := List.length_pos_iff.mpr (lines_of_words_ne_nil hleft (is_space_of_is_digit hdigit))
  have hmore := List.length_pos_iff.mpr (lines_of_words_ne_nil hright hlast)
  omega

theorem forall_of_forall₂ {α β γ : Type} {R : β → γ → Prop} {f : α → List β} {g : α → γ} {xs : List α} {make : α → β}
    (hone : ∀ x ∈ xs, f x = [make x]) :
    List.Forall₂ R (xs.flatMap f) (xs.map g) ↔ ∀ x ∈ xs, R (make x) (g x) := by
  induction xs with
  | nil => simp
  | cons x rest ih =>
    rw [List.flatMap_cons, hone x List.mem_cons_self, List.singleton_append, List.map_cons, List.forall₂_cons,
      List.forall_mem_cons, ih fun y hy => hone y (List.mem_cons_of_mem _ hy)]

theorem parse_render_iff {text : String → String} (h : Form text) {records : List MountRecord}
    (hnodup : (records.map MountRecord.mount_id).Nodup) :
    parse_mountinfo (render records) = .ok (records.map fun record => record.entry_with text) ↔
      ∀ record ∈ records, Recoverable text record := by
  have hnonempty : ∀ record : MountRecord, lines_of_words record.line ≠ [] := by
    intro record
    obtain ⟨first, rest, hfirst, hdigit⟩ := record.exists_first
    exact lines_of_words_ne_nil (hfirst ▸ List.mem_cons_self) (is_space_of_is_digit hdigit)
  have hids : ((records.map fun record => record.entry_with text).map MountEntry.mount_id).Nodup := by
    rwa [List.map_map]
  rw [parse_mountinfo_eq_ok_iff, lines_of_words_render, and_iff_left hids]
  constructor
  · intro hall
    have hlengths := length_eq_one_of_flatMap (Nat.le_of_eq (hall.length_eq.trans (List.length_map _))) hnonempty
    have hone : ∀ record ∈ records, lines_of_words record.line = [split_words record.line] := by
      intro record hrecord
      obtain ⟨words, hwords⟩ := List.length_eq_one_iff.mp (hlengths record hrecord)
      have hflatten := flatten_lines_of_words record.line
      rw [hwords, List.flatten_cons, List.flatten_nil, List.append_nil] at hflatten
      rw [hwords, hflatten]
    rw [forall_of_forall₂ hone] at hall
    intro record hrecord
    have hplaced := (reads_line_iff h record).mp (hall record hrecord)
    exact ⟨unbroken_of_one h hplaced (hlengths record hrecord), hplaced⟩
  · intro hall
    have hone : ∀ record ∈ records, lines_of_words record.line = [split_words record.line] := by
      intro record hrecord
      have hsome := hnonempty record
      rw [lines_of_words_of_forall (hall record hrecord).unbroken] at hsome ⊢
      split at hsome
      · exact absurd rfl hsome
      · rename_i hwords
        exact if_neg hwords
    rw [forall_of_forall₂ hone]
    exact fun record hrecord => (reads_line_iff h record).mpr (hall record hrecord).placed

/-! The two forms. -/

theorem form_id : Form id := ⟨fun _ _ h _ => h, fun _ h => h⟩

theorem form_rendered : Form rendered := by
  constructor
  · intro value c hc hforeign
    rw [rendered, String.toList_ofList, escape, List.mem_flatMap]
    simp only [is_foreign, Bool.and_eq_true, decide_eq_true_eq] at hforeign
    exact ⟨c, hc, hforeign.2 ▸ List.mem_singleton_self c⟩
  · rintro value ⟨hne, hcomma⟩
    have hlist : value.toList ≠ [] := fun h => hne (String.toList_inj.mp h)
    constructor
    · intro hempty
      have hescape : escape value.toList = [] := by
        rw [← String.toList_ofList (l := escape value.toList), ← rendered, hempty]
        rfl
      have hsubstitute := substitute_escape value.toList
      rw [hescape] at hsubstitute
      exact hlist hsubstitute.symm
    · rw [rendered, String.toList_ofList, escape, List.mem_flatMap]
      rintro ⟨c, hc, hmem⟩
      unfold kernel_escape at hmem
      split at hmem
      · revert hmem
        decide
      split at hmem
      · revert hmem
        decide
      split at hmem
      · revert hmem
        decide
      split at hmem
      · revert hmem
        decide
      · exact hcomma (List.mem_singleton.mp hmem ▸ hc)

/-- A field is told from the others: it has a character, it is not the separator, and it has no white space that the
kernel leaves as it is. -/
structure Plain (field : List Char) : Prop where
  written : field ≠ []
  unmarked : field ≠ ['-']
  native : ∀ c ∈ field, is_foreign c = false

theorem Plain.split_words {field : List Char} (h : Plain field) :
    text.split_words (escape field) = [escape field] ∧ escape field ≠ ['-'] := by
  have hinjective : ∀ other, escape field = escape other → field = other := by
    intro other heq
    rw [← substitute_escape field, heq, substitute_escape]
  exact ⟨words_of_forall (fun hnil => h.written (hinjective [] hnil)) (not_space_of_mem_escape h.native),
    fun hdash => h.unmarked (hinjective ['-'] hdash)⟩

/-- Plain fields are a word each, and none of them is the separator. -/
theorem flatMap_split_words {fields : List (List Char)} (h : ∀ field ∈ fields, Plain field) :
    (fields.map escape).flatMap split_words = fields.map escape ∧ ['-'] ∉ fields.map escape := by
  induction fields with
  | nil => exact ⟨rfl, List.not_mem_nil⟩
  | cons field rest ih =>
    obtain ⟨hwords, hdash⟩ := (h field List.mem_cons_self).split_words
    obtain ⟨hrest, hunmarked⟩ := ih fun other hother => h other (List.mem_cons_of_mem _ hother)
    rw [List.map_cons, List.flatMap_cons, hwords, hrest, List.mem_cons, not_or]
    exact ⟨rfl, fun heq => hdash heq.symm, hunmarked⟩

theorem escape_joined_options (options : List String) :
    escape (joined_options options) = joined_options (options.map rendered) := by
  induction options with
  | nil => rfl
  | cons head rest ih =>
    have hrendered : ∀ option : String, (rendered option).toList = escape option.toList := fun _ => String.toList_ofList
    cases rest with
    | nil => simp [joined_options, List.intercalate, hrendered]
    | cons other rest =>
      have hcons : ∀ head other rest, joined_options (head :: other :: rest) =
          head.toList ++ ',' :: joined_options (other :: rest) := by
        intro head other rest
        simp [joined_options, List.intercalate]
      rw [hcons, escape, List.flatMap_append, List.flatMap_cons, List.map_cons, List.map_cons, hcons, hrendered,
        ← List.map_cons, ← ih]
      rfl

namespace MountRecord

/-- The fields of a record, before they are rendered. -/
def fields (record : MountRecord) : List (List Char) :=
  (record.root.toList :: record.mount_point.toList :: joined_options record.mount_options :: record.tags.map String.toList) ++
    [record.filesystem_type.toList, record.source.toList, joined_options record.super_options]

end MountRecord

/-- A record of plain fields is read back. -/
theorem recoverable_of_plain {record : MountRecord} (h : ∀ field ∈ record.fields, Plain field) :
    Recoverable rendered record := by
  have hplaces : record.places = (record.root.toList :: record.mount_point.toList :: joined_options record.mount_options ::
      record.tags.map String.toList).map escape := by
    simp [MountRecord.places]
  have hfilesystem : record.filesystem = [record.filesystem_type.toList, record.source.toList,
      joined_options record.super_options].map escape := rfl
  obtain ⟨hbefore, hunmarked⟩ := flatMap_split_words fun field hfield => h field (List.mem_append_left _ hfield)
  obtain ⟨hafter, hunmarked'⟩ := flatMap_split_words fun field hfield => h field (List.mem_append_right _ hfield)
  rw [← hplaces] at hbefore hunmarked
  rw [← hfilesystem] at hafter hunmarked'
  have hplaced : Placed rendered record := by
    refine ⟨⟨escape record.root.toList, record.tags.map fun tag => escape tag.toList, ?_⟩, ⟨escape record.source.toList, ?_⟩,
      by rwa [hbefore], by rwa [hafter]⟩
    · rw [hbefore, ← escape_joined_options]
      rfl
    · rw [hafter, ← escape_joined_options, rendered, String.toList_ofList]
      rfl
  refine ⟨fun c hc => ?_, hplaced⟩
  have hspace : c = ' ' ∨ is_space c = false := by
    obtain hblank | ⟨field, hfield, hc⟩ := of_mem_intercalate hc
    · exact .inl hblank
    refine .inr ?_
    rw [List.mem_append, List.mem_append, List.mem_cons, hplaces, hfilesystem] at hfield
    obtain (hnumber | hplace) | rfl | hlast := hfield
    · exact record.not_space_of_mem_numbers hnumber hc
    · obtain ⟨value, hvalue, rfl⟩ := List.mem_map.mp hplace
      exact not_space_of_mem_escape (h value (List.mem_append_left _ hvalue)).native c hc
    · rw [List.mem_singleton] at hc
      exact hc ▸ rfl
    · obtain ⟨value, hvalue, rfl⟩ := List.mem_map.mp hlast
      exact not_space_of_mem_escape (h value (List.mem_append_right _ hvalue)).native c hc
  obtain rfl | hspace := hspace
  · rfl
  · exact Bool.eq_false_iff.mpr fun hbreak => by simp [is_space_of_is_line_break hbreak] at hspace

/-- The parser returns the records of a mount table exactly when it can tell them from their lines: with their options and
their types as they are, and with them as the kernel renders them. -/
theorem mountinfo_inverts_iff (records : List MountRecord) (hnodup : (records.map MountRecord.mount_id).Nodup) :
    (parse_mountinfo (render records) = .ok (records.map MountRecord.entry) ↔
      ∀ record ∈ records, Recoverable id record) ∧
    (parse_mountinfo (render records) = .ok (records.map (MountRecord.entry_with rendered)) ↔
      ∀ record ∈ records, Recoverable rendered record) :=
  ⟨parse_render_iff form_id hnodup, parse_render_iff form_rendered hnodup⟩

/-- A mount point with each of the characters that the kernel escapes, and one with none. -/
def sample_records : List MountRecord :=
  [{ mount_id := 36
     parent_id := 35
     major := 98
     minor := 0
     root := "/mnt1"
     mount_point := "/mnt 2\t\n\\"
     mount_options := ["rw", "noatime"]
     tags := ["master:1"]
     filesystem_type := "ext4"
     source := "/dev/root"
     super_options := ["rw", "errors=continue"]
     options_separate := by simp },
   { mount_id := 37
     parent_id := 36
     major := 0
     minor := 31
     root := "/"
     mount_point := "/proc"
     mount_options := ["rw"]
     tags := []
     filesystem_type := "proc"
     source := "proc"
     super_options := ["rw"]
     options_separate := by simp }]

theorem mountinfo_inverts_sample : (sample_records.map MountRecord.mount_id).Nodup ∧
    parse_mountinfo (render sample_records) = .ok (sample_records.map (MountRecord.entry_with rendered)) ∧
    ∀ record ∈ sample_records, Recoverable id record := by
  have hplain : (sample_records.all fun record => record.fields.all fun field =>
      !field.isEmpty && field != ['-'] && !field.any is_foreign) = true := by
    decide +kernel
  refine ⟨by decide, ?_, ?_⟩
  · refine (mountinfo_inverts_iff sample_records (by decide)).2.mpr fun record hrecord => ?_
    refine recoverable_of_plain fun field hfield => ?_
    have hfield := List.all_eq_true.mp (List.all_eq_true.mp hplain record hrecord) field hfield
    simp only [Bool.and_eq_true, Bool.not_eq_true', List.isEmpty_eq_false_iff, bne_iff_ne, List.any_eq_false,
      Bool.not_eq_true] at hfield
    exact ⟨hfield.1.1, hfield.1.2, hfield.2⟩
  · exact (mountinfo_inverts_iff sample_records (by decide)).1.mp (by decide +kernel)

/-- A mount point with a space that does not break a line, which the kernel leaves as it is. -/
def broken_record : MountRecord where
  mount_id := 36
  parent_id := 35
  major := 98
  minor := 0
  root := "/"
  mount_point := "/mnt/a\u00a0b"
  mount_options := ["rw"]
  tags := []
  filesystem_type := "ext4"
  source := "/dev/root"
  super_options := ["rw"]
  options_separate := by simp

/-- The parser takes what stands before the space for the mount point, and what stands after it for the options. -/
theorem mount_point_broken : parse_mountinfo (render [broken_record]) =
    .ok [{ broken_record.entry with mount_point := "/mnt/a", mount_options := ["b"] }] ∧
    parse_mountinfo (render [broken_record]) ≠ .ok [broken_record.entry] := by
  decide +kernel

end atoms.fs.volume
