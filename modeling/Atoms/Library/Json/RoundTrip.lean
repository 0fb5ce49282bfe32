import Atoms.Library.Json
import Atoms.Library.Keyed
import Mathlib.Data.List.TakeDrop

namespace json

/-! Characters. -/

theorem hex_value_digitChar : ∀ digit < 16, hex_value (Nat.digitChar digit) = some digit := by decide

theorem hex_value_hex_digit (value : Nat) : hex_value (hex_digit value) = some (value % 16) :=
  hex_value_digitChar _ (Nat.mod_lt _ (by omega))

theorem read_unit_escape {code : Nat} (h : code < 0x10000) (rest : List Char) :
    read_unit (hex_digit (code / 4096) :: hex_digit (code / 256) :: hex_digit (code / 16) :: hex_digit code :: rest) =
      some (code, rest) := by
  have hsum : code / 4096 % 16 * 4096 + code / 256 % 16 * 256 + code / 16 % 16 * 16 + code % 16 = code := by omega
  simp only [read_unit, hex_value_hex_digit, Option.bind_eq_bind, Option.bind_some, hsum]
  rfl

/-- A character is below the surrogates or above them. -/
theorem char_range (c : Char) : c.toNat < 0xd800 ∨ 0xdfff < c.toNat ∧ c.toNat < 0x110000 := by
  have h := c.valid
  unfold UInt32.isValidChar Nat.isValidChar at h
  exact h

/-- Reading an escaped character gives the character back. -/
theorem read_char_unicode_escape {c : Char} (h : c.toNat < 0x10000) (rest : List Char) :
    read_char (unicode_escape c.toNat ++ rest) = some (some c, rest) := by
  have hrange := char_range c
  have hhigh : ¬ (0xd800 ≤ c.toNat ∧ c.toNat ≤ 0xdbff) := by omega
  have hlow : ¬ (0xdc00 ≤ c.toNat ∧ c.toNat ≤ 0xdfff) := by omega
  simp only [unicode_escape, List.cons_append, List.nil_append, read_char, Char.reduceEq, if_false, if_true,
    read_unicode_escape, read_unit_escape h, Option.bind_eq_bind, Option.bind_some, if_neg hhigh, if_neg hlow,
    Char.ofNat_toNat]
  rfl

/-- Reading a pair of surrogates gives the character that they make up. -/
theorem read_char_pair {c : Char} {high low : Nat} (hhigh : 0xd800 ≤ high ∧ high ≤ 0xdbff)
    (hlow : 0xdc00 ≤ low ∧ low ≤ 0xdfff) (hsum : 0x10000 + (high - 0xd800) * 1024 + (low - 0xdc00) = c.toNat)
    (rest : List Char) : read_char (unicode_escape high ++ unicode_escape low ++ rest) = some (some c, rest) := by
  have hfirst := read_unit_escape (show high < 0x10000 by omega)
  have hsecond := read_unit_escape (show low < 0x10000 by omega)
  simp only [unicode_escape, List.cons_append, List.nil_append, read_char, Char.reduceEq, if_false, if_true,
    read_unicode_escape, hfirst, hsecond, Option.bind_eq_bind, Option.bind_some, if_pos hhigh, if_pos hlow, hsum,
    Char.ofNat_toNat]
  rfl

theorem read_char_surrogates {c : Char} (h : ¬ c.toNat < 0x10000) (rest : List Char) :
    read_char (unicode_escape (0xd800 + (c.toNat - 0x10000) / 1024) ++
      unicode_escape (0xdc00 + (c.toNat - 0x10000) % 1024) ++ rest) = some (some c, rest) := by
  have hrange := char_range c
  apply read_char_pair
  · omega
  · omega
  · omega

/-- The ways to write a character. -/
inductive Written (c : Char) : List Char → Prop
  | escape {mark : Char} (h : simple_escape mark = some c) (hmark : mark ≠ 'u') : Written c ['\\', mark]
  | unicode (h : c.toNat < 0x10000) : Written c (unicode_escape c.toNat)
  | surrogates (h : ¬ c.toNat < 0x10000) : Written c (unicode_escape (0xd800 + (c.toNat - 0x10000) / 1024) ++
      unicode_escape (0xdc00 + (c.toNat - 0x10000) % 1024))
  | plain (hquote : c ≠ '"') (hescape : c ≠ '\\') (h : ¬ c.toNat < 0x20) : Written c [c]

theorem write_char_written (ensure_ascii : Bool) (c : Char) : Written c (write_char ensure_ascii c) := by
  unfold write_char
  by_cases hquote : c = '"'
  · rw [if_pos hquote, hquote]
    exact .escape rfl (by decide)
  by_cases hescape : c = '\\'
  · rw [if_neg hquote, if_pos hescape, hescape]
    exact .escape rfl (by decide)
  rw [if_neg hquote, if_neg hescape]
  split
  · rename_i h
    exact h ▸ .escape rfl (by decide)
  split
  · rename_i h
    exact h ▸ .escape rfl (by decide)
  split
  · rename_i h
    exact h ▸ .escape rfl (by decide)
  split
  · rename_i h
    exact h ▸ .escape rfl (by decide)
  split
  · rename_i h
    exact h ▸ .escape rfl (by decide)
  split
  · exact .unicode (by omega)
  split
  · split
    · rename_i h
      exact .unicode h
    · rename_i h
      exact .surrogates h
  · rename_i hcontrol _
    exact .plain hquote hescape hcontrol

theorem Written.read_char {c : Char} {text : List Char} (h : Written c text) (rest : List Char) :
    read_char (text ++ rest) = some (some c, rest) := by
  cases h with
  | escape h hmark =>
    simp only [List.cons_append, List.nil_append, json.read_char, Char.reduceEq, if_false, if_true, h]
    rfl
  | unicode h => exact read_char_unicode_escape h rest
  | surrogates h => exact read_char_surrogates h rest
  | plain hquote hescape h =>
    simp only [List.cons_append, List.nil_append, json.read_char]
    rw [if_neg hquote, if_neg hescape, if_neg h]

theorem read_char_write_char (ensure_ascii : Bool) (c : Char) (rest : List Char) :
    read_char (write_char ensure_ascii c ++ rest) = some (some c, rest) :=
  (write_char_written ensure_ascii c).read_char rest

theorem write_char_ne_nil (ensure_ascii : Bool) (c : Char) : write_char ensure_ascii c ≠ [] := by
  intro h
  have hread := read_char_write_char ensure_ascii c []
  rw [h] at hread
  cases hread

/-! Strings. -/

theorem read_string_write (ensure_ascii : Bool) (rest : List Char) :
    ∀ (value : List Char) {fuel : Nat}, value.length < fuel →
      read_string fuel (value.flatMap (write_char ensure_ascii) ++ '"' :: rest) = some (value, rest)
  | [], fuel + 1, _ => rfl
  | c :: value, fuel + 1, h => by
    have hlt : value.length < fuel := by simpa using h
    have ih := read_string_write ensure_ascii rest value hlt
    rw [List.flatMap_cons, List.append_assoc, read_string, read_char_write_char]
    simp only [Option.bind_eq_bind, Option.bind_some, ih]
    rfl

theorem length_le_flatMap (ensure_ascii : Bool) (value : List Char) :
    value.length ≤ (value.flatMap (write_char ensure_ascii)).length := by
  induction value with
  | nil => simp
  | cons c value ih =>
    have hpos : 0 < (write_char ensure_ascii c).length := List.length_pos_of_ne_nil (write_char_ne_nil ensure_ascii c)
    rw [List.flatMap_cons, List.length_append, List.length_cons]
    omega

/-- A quoted string, after its opening quote. -/
theorem read_quoted_write (ensure_ascii : Bool) (value : String) (rest : List Char) :
    read_quoted (value.toList.flatMap (write_char ensure_ascii) ++ '"' :: rest) = .ok (value, rest) := by
  have hle := length_le_flatMap ensure_ascii value.toList
  have hfuel : value.toList.length <
      (value.toList.flatMap (write_char ensure_ascii) ++ '"' :: rest).length := by
    rw [List.length_append, List.length_cons]
    omega
  unfold read_quoted
  rw [read_string_write ensure_ascii rest value.toList hfuel]
  simp

/-! Numbers. -/

/-- What may follow a number: nothing that would continue it. -/
def Delimited (rest : List Char) : Prop :=
  ∀ c ∈ rest.head?, c.isDigit = false ∧ c ≠ '.' ∧ c ≠ 'e' ∧ c ≠ 'E'

theorem read_digits_append {digits rest : List Char} (hdigits : ∀ c ∈ digits, c.isDigit = true) (h : Delimited rest) :
    read_digits (digits ++ rest) = (digits, rest) := by
  unfold read_digits
  rw [List.span_eq_takeWhile_dropWhile, List.takeWhile_append_of_pos hdigits, List.dropWhile_append_of_pos hdigits]
  cases rest with
  | nil => simp
  | cons c rest =>
    have hc := (h c rfl).1
    rw [List.takeWhile_cons_of_neg (by simp [hc]), List.dropWhile_cons_of_neg (by simp [hc]), List.append_nil]

theorem digitChar_eq_zero : ∀ digit < 10, Nat.digitChar digit = '0' → digit = 0 := by decide

theorem head_toDigits {value : Nat} (h : (Nat.toDigits 10 value).head? = some '0') : value = 0 := by
  induction value using Nat.strongRecOn with
  | ind value ih =>
    rw [Nat.toDigits_eq_if (by omega)] at h
    by_cases hlt : value < 10
    · rw [if_pos hlt] at h
      have hchar : Nat.digitChar value = '0' := by simpa using h
      exact digitChar_eq_zero value hlt hchar
    · rw [if_neg hlt, List.head?_append_of_ne_nil _ Nat.toDigits_ne_nil] at h
      have hzero := ih (value / 10) (by omega) h
      omega

theorem read_fraction_delimited {rest : List Char} (h : Delimited rest) : read_fraction rest = ([], rest) := by
  unfold read_fraction
  split
  · exact absurd rfl (h '.' rfl).2.1
  · rfl

theorem read_exponent_delimited {rest : List Char} (h : Delimited rest) : read_exponent rest = ([], rest) := by
  cases rest with
  | nil => rfl
  | cons c rest =>
    obtain ⟨_, _, hlower, hupper⟩ := h c rfl
    rw [read_exponent, if_neg (by simp [hlower, hupper])]

theorem read_magnitude_toDigits (negative : Bool) (value : Nat) {rest : List Char} (h : Delimited rest) :
    read_magnitude negative (Nat.toDigits 10 value ++ rest) =
      .ok (.int (if negative then -(value : Int) else value), rest) := by
  have hdigits : ∀ c ∈ Nat.toDigits 10 value, c.isDigit = true :=
    fun c hc => Nat.isDigit_of_mem_toDigits (by omega) (by omega) hc
  have hpair : (if (Nat.toDigits 10 value).head? = some '0' then (['0'], (Nat.toDigits 10 value ++ rest).drop 1)
      else (Nat.toDigits 10 value, rest)) = (Nat.toDigits 10 value, rest) := by
    by_cases hzero : (Nat.toDigits 10 value).head? = some '0'
    · rw [if_pos hzero, head_toDigits hzero, Nat.toDigits_zero]
      rfl
    · rw [if_neg hzero]
  unfold read_magnitude
  rw [read_digits_append hdigits h]
  cases hcases : Nat.toDigits 10 value with
  | nil => exact absurd hcases Nat.toDigits_ne_nil
  | cons c digits =>
    rw [hcases] at hpair
    simp only [hpair, read_fraction_delimited h, read_exponent_delimited h, and_self, if_true]
    rw [← hcases, digits_value, Nat.ofDigitChars_ten_toDigits]

theorem after_word_of_ne {c d : Char} (h : c ≠ d) (word text : List Char) :
    after_word (c :: word) (d :: text) = none := by
  rw [after_word, if_neg h]

theorem after_word_append (word rest : List Char) : after_word word (word ++ rest) = some rest := by
  induction word with
  | nil => rfl
  | cons c word ih => rw [List.cons_append, after_word, if_pos rfl, ih]

/-- A text that starts with a digit holds none of the words. -/
theorem read_scalar_digit {d : Char} (hd : d.isDigit = true) (text : List Char) :
    read_scalar (d :: text) = read_magnitude false (d :: text) := by
  have hne : ∀ c : Char, c.isDigit = false → c ≠ d := by
    rintro c hc rfl
    rw [hd] at hc
    cases hc
  unfold read_scalar
  simp only [after_word_of_ne (hne 'n' rfl), after_word_of_ne (hne 't' rfl), after_word_of_ne (hne 'f' rfl),
    after_word_of_ne (hne 'N' rfl), after_word_of_ne (hne 'I' rfl), after_word_of_ne (hne '-' rfl)]
  split
  · rename_i heq
    exact absurd (List.cons.inj heq).1.symm (hne '-' rfl)
  · rfl

theorem read_scalar_minus {d : Char} (hd : d.isDigit = true) (text : List Char) :
    read_scalar ('-' :: d :: text) = read_magnitude true (d :: text) := by
  have hne : 'I' ≠ d := by
    rintro rfl
    cases hd
  unfold read_scalar
  rw [after_word_of_ne (by decide), after_word_of_ne (by decide), after_word_of_ne (by decide),
    after_word_of_ne (by decide), after_word_of_ne (by decide), after_word, if_pos rfl, after_word_of_ne hne]
  rfl

theorem exists_toDigits (value : Nat) : ∃ d digits, Nat.toDigits 10 value = d :: digits ∧ d.isDigit = true := by
  cases hcases : Nat.toDigits 10 value with
  | nil => exact absurd hcases Nat.toDigits_ne_nil
  | cons d digits =>
    have hmem : d ∈ Nat.toDigits 10 value := by rw [hcases]; exact List.mem_cons_self
    exact ⟨d, digits, rfl, Nat.isDigit_of_mem_toDigits (by omega) (by omega) hmem⟩

theorem read_scalar_write_int (value : Int) {rest : List Char} (h : Delimited rest) :
    read_scalar (write_int value ++ rest) = .ok (.int value, rest) := by
  cases value with
  | ofNat value =>
    obtain ⟨d, digits, hcases, hd⟩ := exists_toDigits value
    have hread := read_magnitude_toDigits false value h
    rw [hcases, List.cons_append] at hread
    rw [write_int, hcases, List.cons_append, read_scalar_digit hd, hread]
    rfl
  | negSucc value =>
    obtain ⟨d, digits, hcases, hd⟩ := exists_toDigits (value + 1)
    have hread := read_magnitude_toDigits true (value + 1) h
    rw [hcases, List.cons_append] at hread
    rw [write_int, hcases, List.cons_append, List.cons_append, read_scalar_minus hd, hread]
    rfl

/-! Values. -/

/-- A value without floating numbers, whose objects hold each key once. -/
inductive Plain : Json → Prop
  | null : Plain .null
  | bool (value : Bool) : Plain (.bool value)
  | int (value : Int) : Plain (.int value)
  | str (value : String) : Plain (.str value)
  | arr {items : List Json} (h : ∀ item ∈ items, Plain item) : Plain (.arr items)
  | obj {members : List (String × Json)} (hkeys : (members.map Prod.fst).Nodup)
      (h : ∀ member ∈ members, Plain member.2) : Plain (.obj members)

theorem Plain.of_texts {members : List (String × Json)} (hkeys : (members.map Prod.fst).Nodup)
    (h : ∀ member ∈ members, ∃ text, member.2 = .str text) : Plain (.obj members) := by
  refine .obj hkeys fun member hmember => ?_
  obtain ⟨text, htext⟩ := h member hmember
  rw [htext]
  exact .str text

/-- Reading what was written of a value gives it back, whatever delimits it. -/
def Reads (ensure_ascii : Bool) (value : Json) : Prop :=
  ∀ (fuel : Nat) (rest : List Char), (write ensure_ascii value).length ≤ fuel → Delimited rest →
    read_value fuel (write ensure_ascii value ++ rest) = .ok (value, rest)

/-- What a value starts with: it is no space and ends no array or object. -/
theorem write_head (ensure_ascii : Bool) {value : Json} (h : Plain value) :
    ∃ c text, write ensure_ascii value = c :: text ∧ is_space c = false ∧ c ≠ ']' ∧ c ≠ '}' := by
  have hdigit : ∀ {d : Char}, d.isDigit = true → is_space d = false ∧ d ≠ ']' ∧ d ≠ '}' := by
    intro d hd
    refine ⟨?_, ?_, ?_⟩
    · rw [is_space, decide_eq_false_iff_not]
      rintro (rfl | rfl | rfl | rfl) <;> cases hd
    · rintro rfl
      cases hd
    · rintro rfl
      cases hd
  cases h with
  | null => exact ⟨_, _, rfl, rfl, by decide, by decide⟩
  | bool value => cases value <;> exact ⟨_, _, rfl, rfl, by decide, by decide⟩
  | int value =>
    cases value with
    | ofNat value =>
      obtain ⟨d, digits, hcases, hd⟩ := exists_toDigits value
      exact ⟨d, digits, hcases, hdigit hd⟩
    | negSucc value => exact ⟨_, _, rfl, rfl, by decide, by decide⟩
  | str value => exact ⟨_, _, rfl, rfl, by decide, by decide⟩
  | @arr items _ => cases items <;> exact ⟨_, _, rfl, rfl, by decide, by decide⟩
  | @obj members _ _ => cases members <;> exact ⟨_, _, rfl, rfl, by decide, by decide⟩

theorem skip_space_cons {c : Char} (h : is_space c = false) (text : List Char) : skip_space (c :: text) = c :: text := by
  rw [skip_space, List.dropWhile_cons_of_neg (by simp [h])]

theorem skip_space_write (ensure_ascii : Bool) {value : Json} (h : Plain value) (rest : List Char) :
    skip_space (write ensure_ascii value ++ rest) = write ensure_ascii value ++ rest := by
  obtain ⟨c, text, heq, hspace, _, _⟩ := write_head ensure_ascii h
  rw [heq, List.cons_append, skip_space_cons hspace]

theorem delimited_of {c : Char} (h : c.isDigit = false ∧ c ≠ '.' ∧ c ≠ 'e' ∧ c ≠ 'E') (rest : List Char) :
    Delimited (c :: rest) := by
  rintro d hd
  cases hd
  exact h

theorem delimited_items (ensure_ascii : Bool) (items : List Json) (rest : List Char) :
    Delimited (write_items ensure_ascii items ++ rest) := by
  cases items with
  | nil => exact delimited_of (by decide) _
  | cons item items => exact delimited_of (by decide) _

theorem delimited_members (ensure_ascii : Bool) (members : List (String × Json)) (rest : List Char) :
    Delimited (write_members ensure_ascii members ++ rest) := by
  cases members with
  | nil => exact delimited_of (by decide) _
  | cons member members => exact delimited_of (by decide) _

theorem read_items_write {ensure_ascii : Bool} {item : Json} {items : List Json}
    (hplain : ∀ value ∈ item :: items, Plain value) (hreads : ∀ value ∈ item :: items, Reads ensure_ascii value)
    {fuel : Nat} (hfuel : (write ensure_ascii item).length + (write_items ensure_ascii items).length ≤ fuel)
    (rest : List Char) :
    read_items fuel (write ensure_ascii item ++ (write_items ensure_ascii items ++ rest)) =
      .ok (item :: items, rest) := by
  induction items generalizing item fuel with
  | nil =>
    have hlength : (write_items ensure_ascii []).length = 1 := by simp [write_items]
    obtain ⟨fuel, rfl⟩ : ∃ n, fuel = n + 1 := ⟨fuel - 1, by omega⟩
    have hitem := hreads item List.mem_cons_self fuel (write_items ensure_ascii [] ++ rest) (by omega)
      (delimited_items ensure_ascii [] rest)
    rw [read_items, hitem]
    rfl
  | cons next items ih =>
    have hlength : (write_items ensure_ascii (next :: items)).length =
        (write ensure_ascii next).length + (write_items ensure_ascii items).length + 1 := by
      simp [write_items]
    obtain ⟨fuel, rfl⟩ : ∃ n, fuel = n + 1 := ⟨fuel - 1, by omega⟩
    have hitem := hreads item List.mem_cons_self fuel (write_items ensure_ascii (next :: items) ++ rest) (by omega)
      (delimited_items ensure_ascii (next :: items) rest)
    have hlt : (write ensure_ascii next).length + (write_items ensure_ascii items).length ≤ fuel := by omega
    have htail := ih (fun value hvalue => hplain value (List.mem_cons_of_mem _ hvalue))
      (fun value hvalue => hreads value (List.mem_cons_of_mem _ hvalue)) hlt
    have hskip := skip_space_write ensure_ascii (hplain next (by simp)) (write_items ensure_ascii items ++ rest)
    rw [read_items, hitem]
    simp only [write_items, List.cons_append, List.append_assoc, bind, Except.bind]
    rw [skip_space_cons (by decide)]
    simp only [hskip, htail]
    rfl

/-- A member as it is written: its key, a colon and its value. -/
def write_member (ensure_ascii : Bool) (member : String × Json) : List Char :=
  write_string ensure_ascii member.1 ++ ':' :: write ensure_ascii member.2

theorem read_members_write {ensure_ascii : Bool} {member : String × Json} {members : List (String × Json)}
    (hplain : ∀ item ∈ member :: members, Plain item.2)
    (hreads : ∀ item ∈ member :: members, Reads ensure_ascii item.2) {fuel : Nat}
    (hfuel : (write_member ensure_ascii member).length + (write_members ensure_ascii members).length ≤ fuel)
    (rest : List Char) :
    read_members fuel (write_member ensure_ascii member ++ (write_members ensure_ascii members ++ rest)) =
      .ok (member :: members, rest) := by
  induction members generalizing member fuel with
  | nil =>
    obtain ⟨key, value⟩ := member
    have hlength : (write ensure_ascii value).length < (write_member ensure_ascii (key, value)).length := by
      simp [write_member]
      omega
    obtain ⟨fuel, rfl⟩ : ∃ n, fuel = n + 1 := ⟨fuel - 1, by omega⟩
    have hle : (write ensure_ascii value).length ≤ fuel := by omega
    have hvalue := hreads (key, value) List.mem_cons_self fuel (write_members ensure_ascii [] ++ rest) hle
      (delimited_members ensure_ascii [] rest)
    have hskip : skip_space (write ensure_ascii value ++ (write_members ensure_ascii [] ++ rest)) =
        write ensure_ascii value ++ (write_members ensure_ascii [] ++ rest) :=
      skip_space_write ensure_ascii (hplain (key, value) (by simp)) _
    dsimp only at hvalue
    simp only [write_member, write_string, List.cons_append, List.append_assoc, List.nil_append, read_members,
      read_quoted_write, bind, Except.bind]
    rw [skip_space_cons (by decide)]
    simp only [hskip, hvalue]
    rfl
  | cons next members ih =>
    obtain ⟨key, value⟩ := member
    have hlength : (write ensure_ascii value).length < (write_member ensure_ascii (key, value)).length := by
      simp [write_member]
      omega
    have hnext : (write_members ensure_ascii (next :: members)) =
        ',' :: (write_member ensure_ascii next ++ write_members ensure_ascii members) := by
      simp [write_members, write_member]
    have hnext_length := congrArg List.length hnext
    rw [List.length_cons, List.length_append] at hnext_length
    obtain ⟨fuel, rfl⟩ : ∃ n, fuel = n + 1 := ⟨fuel - 1, by omega⟩
    have hle : (write ensure_ascii value).length ≤ fuel := by omega
    have hvalue := hreads (key, value) List.mem_cons_self fuel (write_members ensure_ascii (next :: members) ++ rest)
      hle (delimited_members ensure_ascii (next :: members) rest)
    have hskip : skip_space (write ensure_ascii value ++ (write_members ensure_ascii (next :: members) ++ rest)) =
        write ensure_ascii value ++ (write_members ensure_ascii (next :: members) ++ rest) :=
      skip_space_write ensure_ascii (hplain (key, value) (by simp)) _
    dsimp only at hvalue
    have hlt : (write_member ensure_ascii next).length + (write_members ensure_ascii members).length ≤ fuel := by omega
    have htail := ih (fun item hitem => hplain item (List.mem_cons_of_mem _ hitem))
      (fun item hitem => hreads item (List.mem_cons_of_mem _ hitem)) hlt
    have hskip_next : skip_space (write_member ensure_ascii next ++ (write_members ensure_ascii members ++ rest)) =
        write_member ensure_ascii next ++ (write_members ensure_ascii members ++ rest) :=
      skip_space_cons (by decide) _
    simp only [write_member, write_string, List.cons_append, List.append_assoc, List.nil_append, read_members,
      read_quoted_write, bind, Except.bind]
    rw [skip_space_cons (by decide)]
    simp only [hskip, hvalue]
    simp only [hnext, List.cons_append, List.append_assoc]
    rw [skip_space_cons (by decide)]
    simp only [hskip_next, htail]
    rfl

/-- No key is repeated, and none has been seen before. -/
theorem repeated_key_none {seen keys : List String} (hkeys : keys.Nodup) (hseen : ∀ key ∈ keys, key ∉ seen) :
    repeated_key seen keys = none := by
  induction keys generalizing seen with
  | nil => rfl
  | cons key rest ih =>
    rw [List.nodup_cons] at hkeys
    rw [repeated_key, if_neg (hseen key List.mem_cons_self)]
    apply ih hkeys.2
    intro other hother hmem
    rcases List.mem_cons.mp hmem with rfl | hold
    · exact hkeys.1 hother
    · exact hseen other (List.mem_cons_of_mem _ hother) hold

theorem new_object_eq {members : List (String × Json)} (h : (members.map Prod.fst).Nodup) :
    new_object members = .ok (.obj members) := by
  rw [new_object, repeated_key_none h (by simp)]

/-- An object is read back whatever follows it. -/
theorem read_object_write {ensure_ascii : Bool} {members : List (String × Json)} (hkeys : (members.map Prod.fst).Nodup)
    (hmembers : ∀ member ∈ members, Plain member.2) (hreads : ∀ member ∈ members, Reads ensure_ascii member.2) {fuel : Nat}
    (hfuel : (write ensure_ascii (.obj members)).length ≤ fuel) (rest : List Char) :
    read_value fuel (write ensure_ascii (.obj members) ++ rest) = .ok (.obj members, rest) := by
  cases members with
  | nil =>
    obtain ⟨fuel, rfl⟩ : ∃ n, fuel = n + 1 := ⟨fuel - 1, by simp [write] at hfuel; omega⟩
    rfl
  | cons member members =>
    obtain ⟨key, value⟩ := member
    have hwrite : write ensure_ascii (.obj ((key, value) :: members)) =
        '{' :: (write_member ensure_ascii (key, value) ++ write_members ensure_ascii members) := by
      simp [write, write_member]
    rw [hwrite, List.length_cons, List.length_append] at hfuel
    obtain ⟨fuel, rfl⟩ : ∃ n, fuel = n + 1 := ⟨fuel - 1, by omega⟩
    have hread := read_members_write hmembers hreads (show _ ≤ fuel by omega) rest
    have hskip : skip_space (write_member ensure_ascii (key, value) ++ (write_members ensure_ascii members ++ rest)) =
        write_member ensure_ascii (key, value) ++ (write_members ensure_ascii members ++ rest) :=
      skip_space_cons (by decide) _
    rw [hwrite, List.cons_append, List.append_assoc, read_value, hskip]
    have hquote : ∃ text, write_member ensure_ascii (key, value) ++ (write_members ensure_ascii members ++ rest) =
        '"' :: text := ⟨_, rfl⟩
    obtain ⟨text, htext⟩ := hquote
    rw [htext] at hread ⊢
    split
    · rename_i heq
      exact absurd (List.cons.inj heq).1 (by decide)
    · simp only [hread, new_object_eq hkeys, bind, Except.bind]
      rfl

/-- Every plain value is read back from what is written of it. -/
theorem Plain.reads (ensure_ascii : Bool) {value : Json} (h : Plain value) : Reads ensure_ascii value := by
  induction h with
  | null =>
    intro fuel rest hfuel _
    obtain ⟨fuel, rfl⟩ : ∃ n, fuel = n + 1 := ⟨fuel - 1, by simp [write] at hfuel; omega⟩
    rfl
  | bool value =>
    intro fuel rest hfuel _
    obtain ⟨fuel, rfl⟩ : ∃ n, fuel = n + 1 := ⟨fuel - 1, by cases value <;> simp [write] at hfuel <;> omega⟩
    cases value <;> rfl
  | int value =>
    intro fuel rest hfuel hrest
    obtain ⟨c, text, heq, _, _, _⟩ := write_head ensure_ascii (.int value)
    have hpos : 0 < (write ensure_ascii (.int value)).length := by simp [heq]
    obtain ⟨fuel, rfl⟩ : ∃ n, fuel = n + 1 := ⟨fuel - 1, by omega⟩
    have hscalar := read_scalar_write_int value hrest
    have hwrite : write ensure_ascii (.int value) = write_int value := by simp [write]
    rw [hwrite]
    have hhead : ∃ c text, write_int value = c :: text ∧ c ≠ '"' ∧ c ≠ '[' ∧ c ≠ '{' := by
      cases value with
      | ofNat value =>
        obtain ⟨d, digits, hcases, hd⟩ := exists_toDigits value
        refine ⟨d, digits, hcases, ?_, ?_, ?_⟩ <;> (rintro rfl; cases hd)
      | negSucc value => exact ⟨_, _, rfl, by decide, by decide, by decide⟩
    obtain ⟨c, text, hint, hquote, harray, hobject⟩ := hhead
    rw [hint, List.cons_append] at hscalar ⊢
    rw [read_value]
    · exact hscalar
    · intro rest' heq
      exact hquote (List.cons.inj heq).1
    · intro rest' heq
      exact harray (List.cons.inj heq).1
    · intro rest' heq
      exact hobject (List.cons.inj heq).1
  | str value =>
    intro fuel rest hfuel _
    obtain ⟨fuel, rfl⟩ : ∃ n, fuel = n + 1 := ⟨fuel - 1, by simp [write, write_string] at hfuel; omega⟩
    simp only [write, write_string, List.cons_append, List.append_assoc, List.nil_append, read_value, read_quoted_write,
      bind, Except.bind]
    rfl
  | @arr items hitems ih =>
    intro fuel rest hfuel _
    cases items with
    | nil =>
      obtain ⟨fuel, rfl⟩ : ∃ n, fuel = n + 1 := ⟨fuel - 1, by simp [write] at hfuel; omega⟩
      rfl
    | cons item items =>
      simp only [write, List.length_cons, List.length_append] at hfuel
      obtain ⟨fuel, rfl⟩ : ∃ n, fuel = n + 1 := ⟨fuel - 1, by omega⟩
      have hread := read_items_write hitems ih (show _ ≤ fuel by omega) rest
      obtain ⟨c, text, heq, hspace, hend, _⟩ := write_head ensure_ascii (hitems item List.mem_cons_self)
      simp only [write, List.cons_append, List.append_assoc, read_value]
      rw [heq, List.cons_append] at hread ⊢
      rw [skip_space_cons hspace]
      split
      · rename_i hcons
        exact absurd (List.cons.inj hcons).1 hend
      · rw [hread]
        rfl
  | obj hkeys hmembers ih =>
    intro fuel rest hfuel _
    exact read_object_write hkeys hmembers ih hfuel rest

/-- No value is written as the text of an object with more after it. -/
theorem eq_of_write_append {ensure_ascii : Bool} {members : List (String × Json)} {value : Json} {rest : List Char}
    (h : Plain (.obj members)) (hvalue : Plain value)
    (heq : write ensure_ascii (.obj members) ++ rest = write ensure_ascii value) : rest = [] := by
  have hread := hvalue.reads ensure_ascii (write ensure_ascii value).length [] (Nat.le_refl _) fun c hc => nomatch hc
  rw [List.append_nil, ← heq] at hread
  cases h with
  | obj hkeys hmembers =>
    rw [read_object_write hkeys hmembers (fun member hmember => (hmembers member hmember).reads ensure_ascii)
      (by rw [List.length_append]; exact Nat.le_add_right _ _) rest] at hread
    exact (Prod.mk.inj (Except.ok.inj hread)).2

/-! What is written is printable. -/

def Printable (text : List Char) : Prop := ∀ c ∈ text, 0x20 ≤ c.toNat

theorem printable_append {left right : List Char} : Printable (left ++ right) ↔ Printable left ∧ Printable right :=
  List.forall_mem_append

theorem printable_cons {c : Char} {text : List Char} : Printable (c :: text) ↔ 0x20 ≤ c.toNat ∧ Printable text :=
  List.forall_mem_cons

theorem printable_digitChar (value : Nat) : 0x20 ≤ (Nat.digitChar (value % 16)).toNat := by
  have hall : ∀ digit < 16, 0x20 ≤ (Nat.digitChar digit).toNat := by decide
  exact hall _ (Nat.mod_lt _ (by decide))

theorem printable_unicode_escape (code : Nat) : Printable (unicode_escape code) := by
  intro c hc
  simp only [unicode_escape, List.mem_cons, List.not_mem_nil, or_false] at hc
  rcases hc with rfl | rfl | rfl | rfl | rfl | rfl
  · decide
  · decide
  all_goals exact printable_digitChar _

theorem Written.printable {c : Char} {text : List Char} (h : Written c text) : Printable text := by
  cases h with
  | @escape mark hescape _ =>
    have hmark : 0x20 ≤ mark.toNat := by
      by_contra hlow
      unfold simple_escape at hescape
      repeat' split at hescape
      all_goals first
        | (rename_i heq; exact hlow (by rw [heq]; decide))
        | cases hescape
    exact printable_cons.mpr ⟨by decide, printable_cons.mpr ⟨hmark, fun _ hc => absurd hc List.not_mem_nil⟩⟩
  | unicode _ => exact printable_unicode_escape _
  | surrogates _ => exact printable_append.mpr ⟨printable_unicode_escape _, printable_unicode_escape _⟩
  | plain _ _ hcontrol => exact printable_cons.mpr ⟨Nat.le_of_not_lt hcontrol, fun _ hc => absurd hc List.not_mem_nil⟩

theorem printable_write_string (ensure_ascii : Bool) (value : String) : Printable (write_string ensure_ascii value) := by
  refine printable_cons.mpr ⟨by decide, printable_append.mpr ⟨?_, printable_cons.mpr ⟨by decide, fun _ hc => absurd hc List.not_mem_nil⟩⟩⟩
  intro c hc
  obtain ⟨source, _, hwritten⟩ := List.mem_flatMap.mp hc
  exact (write_char_written ensure_ascii source).printable c hwritten

theorem printable_toDigits (value : Nat) : Printable (Nat.toDigits 10 value) := by
  intro c hc
  have hdigit := Nat.isDigit_of_mem_toDigits (by decide) (by decide) hc
  simp only [Char.isDigit, Bool.and_eq_true, decide_eq_true_eq] at hdigit
  have hlow : '0'.toNat ≤ c.toNat := hdigit.1
  exact Nat.le_trans (by decide) hlow

theorem printable_items {ensure_ascii : Bool} {items : List Json} (h : ∀ item ∈ items, Printable (write ensure_ascii item)) :
    Printable (write_items ensure_ascii items) := by
  induction items with
  | nil => exact printable_cons.mpr ⟨by decide, fun _ hc => absurd hc List.not_mem_nil⟩
  | cons item rest ih =>
    obtain ⟨hitem, hrest⟩ := List.forall_mem_cons.mp h
    exact printable_cons.mpr ⟨by decide, printable_append.mpr ⟨hitem, ih hrest⟩⟩

theorem printable_members {ensure_ascii : Bool} {members : List (String × Json)}
    (h : ∀ member ∈ members, Printable (write ensure_ascii member.2)) : Printable (write_members ensure_ascii members) := by
  induction members with
  | nil => exact printable_cons.mpr ⟨by decide, fun _ hc => absurd hc List.not_mem_nil⟩
  | cons member rest ih =>
    obtain ⟨key, value⟩ := member
    obtain ⟨hmember, hrest⟩ := List.forall_mem_cons.mp h
    exact printable_cons.mpr ⟨by decide, printable_append.mpr ⟨printable_write_string _ _, printable_cons.mpr ⟨by decide,
      printable_append.mpr ⟨hmember, ih hrest⟩⟩⟩⟩

/-- No control character is written of a plain value. -/
theorem Plain.printable (ensure_ascii : Bool) {value : Json} (h : Plain value) : Printable (write ensure_ascii value) := by
  induction h with
  | null => exact (by simp [Printable] : Printable ['n', 'u', 'l', 'l'])
  | bool value =>
    cases value with
    | false => exact (by simp [Printable] : Printable ['f', 'a', 'l', 's', 'e'])
    | true => exact (by simp [Printable] : Printable ['t', 'r', 'u', 'e'])
  | int value =>
    cases value with
    | ofNat value => exact printable_toDigits value
    | negSucc value => exact printable_cons.mpr ⟨by decide, printable_toDigits _⟩
  | str value => exact printable_write_string ensure_ascii value
  | @arr items _ ih =>
    cases items with
    | nil => exact (by simp [Printable] : Printable ['[', ']'])
    | cons item rest =>
      obtain ⟨hitem, hrest⟩ := List.forall_mem_cons.mp ih
      exact printable_cons.mpr ⟨by decide, printable_append.mpr ⟨hitem, printable_items hrest⟩⟩
  | @obj members _ _ ih =>
    cases members with
    | nil => exact (by simp [Printable] : Printable ['{', '}'])
    | cons member rest =>
      obtain ⟨key, value⟩ := member
      obtain ⟨hmember, hrest⟩ := List.forall_mem_cons.mp ih
      exact printable_cons.mpr ⟨by decide, printable_append.mpr ⟨printable_write_string _ _, printable_cons.mpr ⟨by decide,
        printable_append.mpr ⟨hmember, printable_members hrest⟩⟩⟩⟩

/-! What sorting the keys changes. -/

theorem sort_items_eq (items : List Json) : sort_items items = items.map sort_keys := by
  induction items with
  | nil => rfl
  | cons item items ih => rw [sort_items, ih, List.map_cons]

theorem sort_members_eq (members : List (String × Json)) :
    sort_members members = members.map fun member => (member.1, sort_keys member.2) := by
  induction members with
  | nil => rfl
  | cons member members ih => rw [sort_members, ih, List.map_cons]

theorem sorted_members_perm (members : List (String × Json)) : (sorted_members members).Perm members :=
  List.perm_insertionSort _ _

/-- Sorting the keys keeps a value plain. -/
theorem Plain.sort_keys {value : Json} (h : Plain value) : Plain (sort_keys value) := by
  induction h with
  | null => exact .null
  | bool value => exact .bool value
  | int value => exact .int value
  | str value => exact .str value
  | @arr items _ ih =>
    rw [json.sort_keys, sort_items_eq]
    apply Plain.arr
    intro item hitem
    obtain ⟨old, hold, rfl⟩ := List.mem_map.mp hitem
    exact ih old hold
  | @obj members hkeys _ ih =>
    rw [json.sort_keys, sort_members_eq]
    have hperm := sorted_members_perm (members.map fun member => (member.1, json.sort_keys member.2))
    apply Plain.obj
    · rw [(hperm.map Prod.fst).nodup_iff, List.map_map]
      exact hkeys
    · intro member hmember
      obtain ⟨old, hold, rfl⟩ := List.mem_map.mp (hperm.mem_iff.mp hmember)
      exact ih old hold

/-- Keys that are sorted stay as they are. -/
theorem sort_keys_sort_keys {value : Json} (h : Plain value) : sort_keys (sort_keys value) = sort_keys value := by
  induction h with
  | null => rfl
  | bool value => rfl
  | int value => rfl
  | str value => rfl
  | @arr items _ ih =>
    rw [json.sort_keys, sort_items_eq, json.sort_keys, sort_items_eq, List.map_map]
    exact congrArg Json.arr (List.map_congr_left ih)
  | @obj members _ _ ih =>
    rw [json.sort_keys, sort_members_eq, json.sort_keys, sort_members_eq]
    have hperm := sorted_members_perm (members.map fun member => (member.1, json.sort_keys member.2))
    have hsame : (sorted_members (members.map fun member => (member.1, json.sort_keys member.2))).map
        (fun member => (member.1, json.sort_keys member.2)) =
        sorted_members (members.map fun member => (member.1, json.sort_keys member.2)) := by
      refine (List.map_congr_left fun member hmember => ?_).trans (List.map_id _)
      obtain ⟨old, hold, rfl⟩ := List.mem_map.mp (hperm.mem_iff.mp hmember)
      rw [ih old hold]
      rfl
    rw [hsame]
    exact congrArg Json.obj (List.Pairwise.insertionSort_eq (List.pairwise_insertionSort _ _))

/-- A plain value is loaded from its dump with its keys sorted. -/
theorem loads_dumps (ensure_ascii : Bool) {value : Json} (h : Plain value) :
    loads (dumps ensure_ascii value) = .ok (sort_keys value) := by
  have hplain := h.sort_keys
  have hread := hplain.reads ensure_ascii ((write ensure_ascii (sort_keys value)).length + 1) [] (by omega) (by
    intro c hc
    cases hc)
  have hskip := skip_space_write ensure_ascii hplain []
  rw [List.append_nil] at hread hskip
  unfold loads dumps
  rw [String.length_ofList, String.toList_ofList, hskip, hread]
  rfl

/-! What a reader returns. -/

theorem nodup_of_repeated_key {seen keys : List String} (h : repeated_key seen keys = none) :
    keys.Nodup ∧ ∀ key ∈ keys, key ∉ seen := by
  induction keys generalizing seen with
  | nil => simp
  | cons key rest ih =>
    rw [repeated_key] at h
    split at h
    · cases h
    · rename_i hkey
      obtain ⟨hrest, hseen⟩ := ih h
      refine ⟨List.nodup_cons.mpr ⟨fun hmem => hseen key hmem List.mem_cons_self, hrest⟩, ?_⟩
      intro other hother
      rcases List.mem_cons.mp hother with rfl | hmem
      · exact hkey
      · exact fun hin => hseen other hmem (List.mem_cons_of_mem _ hin)

/-- An object that is made holds each of its keys once. -/
theorem nodup_of_new_object {members found : List (String × Json)} (h : new_object members = .ok (.obj found)) :
    (found.map Prod.fst).Nodup := by
  rw [new_object] at h
  split at h
  · cases h
  · rename_i hnone
    cases h
    exact (nodup_of_repeated_key hnone).1

theorem read_magnitude_ne_obj {negative : Bool} {text rest : List Char} {members : List (String × Json)} :
    read_magnitude negative text ≠ .ok (.obj members, rest) := by
  intro h
  unfold read_magnitude at h
  split at h
  · cases h
  · dsimp only at h
    repeat' split at h
    all_goals cases h

theorem read_scalar_ne_obj {text rest : List Char} {members : List (String × Json)} :
    read_scalar text ≠ .ok (.obj members, rest) := by
  intro h
  unfold read_scalar at h
  repeat' split at h
  all_goals first
    | cases h
    | exact read_magnitude_ne_obj h

/-- An object that is read holds each of its keys once. -/
theorem nodup_of_read_value {fuel : Nat} {text rest : List Char} {members : List (String × Json)}
    (h : read_value fuel text = .ok (.obj members, rest)) : (members.map Prod.fst).Nodup := by
  cases fuel with
  | zero => cases h
  | succ fuel =>
    unfold read_value at h
    split at h
    · obtain ⟨_, _, h⟩ := checked.bind_eq_ok_iff.mp h
      cases h
    · split at h
      · cases h
      · obtain ⟨_, _, h⟩ := checked.bind_eq_ok_iff.mp h
        cases h
    · split at h
      · cases h
        exact List.nodup_nil
      · obtain ⟨_, _, h⟩ := checked.bind_eq_ok_iff.mp h
        obtain ⟨value, hvalue, h⟩ := checked.bind_eq_ok_iff.mp h
        cases h
        exact nodup_of_new_object hvalue
    · exact absurd h read_scalar_ne_obj

theorem nodup_of_loads {text : String} {members : List (String × Json)} (h : loads text = .ok (.obj members)) :
    (members.map Prod.fst).Nodup := by
  obtain ⟨⟨value, rest⟩, hread, h⟩ := checked.bind_eq_ok_iff.mp h
  simp only at h
  split at h
  · cases h
    exact nodup_of_read_value hread
  · cases h

/-! What sorting the keys leaves of an object. -/

/-- An object with its keys sorted, read by key. -/
structure SortedObj (members sorted : List (String × Json)) : Prop where
  lookup : ∀ key value, (key, value) ∈ members → sorted.lookup key = some (sort_keys value)
  keys : keyed.set_eq (sorted.map Prod.fst) (members.map Prod.fst)

theorem sorted_obj (members : List (String × Json)) (hkeys : (members.map Prod.fst).Nodup) :
    ∃ sorted, sort_keys (.obj members) = .obj sorted ∧ SortedObj members sorted := by
  have hperm := sorted_members_perm (sort_members members)
  have hfst : (sort_members members).map Prod.fst = members.map Prod.fst := by
    rw [sort_members_eq, List.map_map]
    rfl
  refine ⟨sorted_members (sort_members members), rfl, ?_, ?_⟩
  · intro key value hmem
    have hnodup : ((sorted_members (sort_members members)).map Prod.fst).Nodup :=
      (hperm.map Prod.fst).nodup_iff.mpr (hfst ▸ hkeys)
    have hsorted : (key, sort_keys value) ∈ sorted_members (sort_members members) := by
      rw [hperm.mem_iff, sort_members_eq]
      exact List.mem_map.mpr ⟨_, hmem, rfl⟩
    exact (keyed.lookup_eq_some_iff_mem hnodup).mpr hsorted
  · rw [keyed.set_eq_iff, ← hfst]
    exact fun key => (hperm.map Prod.fst).mem_iff

/-! Bytes. -/

theorem utf8_decode_utf8 (text : String) : utf8_decode (utf8 text) = some text := by
  have hbytes : ByteArray.mk (utf8 text).toArray = text.toByteArray := by
    rw [utf8, Array.toArray_toList]
  rw [utf8_decode, hbytes, String.fromUTF8?, dif_pos text.isValidUTF8]
  rfl

theorem isPrefix_toList_of_utf8 {left right : String} (h : utf8 left <+: utf8 right) : left.toList <+: right.toList := by
  obtain ⟨rest, heq⟩ := h
  refine List.isPrefix_of_utf8Encode_append_eq_utf8Encode (ByteArray.mk rest.toArray) ?_
  rw [String.utf8Encode_toList, String.utf8Encode_toList]
  apply ByteArray.ext
  rw [ByteArray.data_append]
  apply Array.toList_inj.mp
  rw [Array.toList_append]
  exact heq

end json
