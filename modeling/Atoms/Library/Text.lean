import Mathlib.Data.List.Basic

namespace text

/-! Words, as `str.split()` finds them. -/

section

variable {α : Type} {p : α → Bool}

/-- The runs of what does not satisfy `p`. -/
def words (p : α → Bool) (value : List α) : List (List α) := (value.splitOnP p).filter fun word => !word.isEmpty

theorem words_append_cons {c : α} (hc : p c = true) (left right : List α) :
    words p (left ++ c :: right) = words p left ++ words p right := by
  rw [words, List.splitOnP_append_cons _ _ hc, List.filter_append]
  rfl

theorem words_of_forall {value : List α} (hne : value ≠ []) (h : ∀ c ∈ value, p c = false) : words p value = [value] := by
  rw [words, List.splitOnP_eq_singleton h]
  simp [hne]

@[simp] theorem words_nil : words p ([] : List α) = [] := by
  simp [words, List.splitOnP_nil]

theorem words_cons_of_pos {c : α} (hc : p c = true) (rest : List α) : words p (c :: rest) = words p rest := by
  have h := words_append_cons hc [] rest
  rwa [words_nil, List.nil_append, List.nil_append] at h

/-- A word is not empty, and none of its characters separates. -/
theorem of_mem_words {value word : List α} (h : word ∈ words p value) : word ≠ [] ∧ ∀ c ∈ word, p c = false := by
  obtain ⟨hmem, hne⟩ := List.mem_filter.mp h
  refine ⟨by simpa using hne, ?_⟩
  clear h hne
  induction value generalizing word with
  | nil =>
    rw [List.splitOnP_nil, List.mem_singleton] at hmem
    exact hmem ▸ fun _ hc => absurd hc List.not_mem_nil
  | cons c rest ih =>
    rw [List.splitOnP_cons_eq_if_modifyHead] at hmem
    split at hmem
    · obtain rfl | hmem := List.mem_cons.mp hmem
      · exact fun _ hc => absurd hc List.not_mem_nil
      · exact ih hmem
    · rename_i hc
      obtain ⟨head, tail, htail⟩ := List.exists_cons_of_ne_nil (List.splitOnP_ne_nil p rest)
      rw [htail, List.modifyHead_cons] at hmem
      rw [htail] at ih
      obtain rfl | hmem := List.mem_cons.mp hmem
      · intro d hd
        obtain rfl | hd := List.mem_cons.mp hd
        · exact Bool.eq_false_iff.mpr hc
        · exact ih List.mem_cons_self d hd
      · exact ih (List.mem_cons_of_mem _ hmem)

/-- The words hold what does not separate, in order. -/
theorem flatten_words (value : List α) : (words p value).flatten = value.filter fun c => !p c := by
  have hfilter : ∀ parts : List (List α), (parts.filter fun word => !word.isEmpty).flatten = parts.flatten := by
    intro parts
    induction parts with
    | nil => rfl
    | cons part rest ih =>
      rw [List.filter_cons, List.flatten_cons, ← ih]
      cases part <;> rfl
  rw [words, hfilter]
  induction value with
  | nil => simp [List.splitOnP_nil]
  | cons c rest ih =>
    rw [List.splitOnP_cons_eq_if_modifyHead, List.filter_cons]
    cases hc : p c with
    | true => simpa using ih
    | false =>
      obtain ⟨head, tail, htail⟩ := List.exists_cons_of_ne_nil (List.splitOnP_ne_nil p rest)
      rw [htail] at ih ⊢
      simpa using ih

/-- Only a text of separators has no words. -/
theorem words_eq_nil_iff {value : List α} : words p value = [] ↔ ∀ c ∈ value, p c = true := by
  constructor
  · intro h
    have hflatten := flatten_words (p := p) value
    rw [h, List.flatten_nil, eq_comm, List.filter_eq_nil_iff] at hflatten
    simpa using hflatten
  · intro h
    induction value with
    | nil => rfl
    | cons c rest ih =>
      rw [words_cons_of_pos (h c List.mem_cons_self)]
      exact ih fun d hd => h d (List.mem_cons_of_mem _ hd)

end

/-! Lines, as `str.splitlines()` finds them. -/

/-- The characters of which `str.isspace()` holds, which are those that `str.split()` splits at. -/
def is_space (c : Char) : Bool :=
  (0x9 ≤ c.toNat && c.toNat ≤ 0xd) || (0x1c ≤ c.toNat && c.toNat ≤ 0x20) || c.toNat == 0x85 || c.toNat == 0xa0 ||
    c.toNat == 0x1680 || (0x2000 ≤ c.toNat && c.toNat ≤ 0x200a) || c.toNat == 0x2028 || c.toNat == 0x2029 ||
    c.toNat == 0x202f || c.toNat == 0x205f || c.toNat == 0x3000

/-- The characters at which `str.splitlines()` breaks a line. -/
def is_line_break (c : Char) : Bool :=
  (0xa ≤ c.toNat && c.toNat ≤ 0xd) || (0x1c ≤ c.toNat && c.toNat ≤ 0x1e) || c.toNat == 0x85 || c.toNat == 0x2028 ||
    c.toNat == 0x2029

/-- `str.splitlines()`: a carriage return and the line feed after it break a line once. -/
def splitlines : List Char → List (List Char)
  | [] => []
  | '\r' :: '\n' :: rest => [] :: splitlines rest
  | c :: rest =>
    if is_line_break c then [] :: splitlines rest
    else match splitlines rest with
      | [] => [[c]]
      | line :: lines => (c :: line) :: lines

/-- `str.split()` -/
abbrev split_words (value : List Char) : List (List Char) := words is_space value

theorem is_space_of_is_line_break {c : Char} (h : is_line_break c = true) : is_space c = true := by
  simp only [is_line_break, is_space, Bool.or_eq_true, Bool.and_eq_true, decide_eq_true_eq, beq_iff_eq] at h ⊢
  omega

theorem splitlines_cons_of_neg {c : Char} (hc : is_line_break c = false) (rest : List Char) :
    splitlines (c :: rest) = (c :: (splitlines rest).headD []) :: (splitlines rest).tail := by
  rw [splitlines.eq_def]
  split
  · rename_i heq
    cases heq
  · rename_i rest' heq
    cases heq
    exact absurd hc (by decide)
  · rename_i heq
    cases heq
    rw [hc, if_neg Bool.false_ne_true]
    cases splitlines rest <;> rfl

/-- A text without line breaks is one line. -/
theorem splitlines_of_forall {value : List Char} (hne : value ≠ []) (h : ∀ c ∈ value, is_line_break c = false) :
    splitlines value = [value] := by
  induction value with
  | nil => exact absurd rfl hne
  | cons c rest ih =>
    rw [splitlines_cons_of_neg (h c List.mem_cons_self)]
    cases rest with
    | nil => rfl
    | cons d rest =>
      rw [ih (List.cons_ne_nil _ _) fun e he => h e (List.mem_cons_of_mem _ he)]
      rfl

/-- The lines that have words, of some lines. -/
def worded (lines : List (List Char)) : List (List (List Char)) :=
  (lines.map split_words).filter fun line => !line.isEmpty

/-- The words of each line that has any. -/
def lines_of_words (value : List Char) : List (List (List Char)) := worded (splitlines value)

theorem worded_cons (line : List Char) (lines : List (List Char)) : worded (line :: lines) =
    (if split_words line = [] then [] else [split_words line]) ++ worded lines := by
  unfold worded
  rw [List.map_cons, List.filter_cons]
  cases hwords : split_words line <;> simp

theorem lines_of_words_of_forall {value : List Char} (h : ∀ c ∈ value, is_line_break c = false) :
    lines_of_words value = if split_words value = [] then [] else [split_words value] := by
  by_cases hne : value = []
  · subst hne
    rfl
  · rw [lines_of_words, splitlines_of_forall hne h, worded_cons]
    exact List.append_nil _

/-- A line up to its first break, and the rest. -/
theorem splitlines_append_cons {line : List Char} (h : ∀ c ∈ line, is_line_break c = false) {c : Char}
    (hc : is_line_break c = true) (rest : List Char) :
    ∃ lines, splitlines (line ++ c :: rest) = line :: lines ∧ worded lines = lines_of_words rest := by
  induction line with
  | nil =>
    rw [List.nil_append, splitlines.eq_def]
    split
    · rename_i heq
      cases heq
    · rename_i rest' heq
      cases heq
      -- the line feed that belongs to the carriage return would make a line without words
      refine ⟨_, rfl, ?_⟩
      have hfeed : splitlines ('\n' :: rest') = [] :: splitlines rest' := by
        rw [splitlines.eq_def]
        rfl
      rw [lines_of_words, hfeed, worded_cons]
      rfl
    · rename_i heq
      cases heq
      rw [hc, if_pos rfl]
      exact ⟨_, rfl, rfl⟩
  | cons d line ih =>
    obtain ⟨lines, hlines, hworded⟩ := ih fun e he => h e (List.mem_cons_of_mem _ he)
    refine ⟨lines, ?_, hworded⟩
    rw [List.cons_append, splitlines_cons_of_neg (h d List.mem_cons_self), hlines]
    rfl

/-- A break parts the lines before it from the lines after it. -/
theorem lines_of_words_append_cons {c : Char} (hc : is_line_break c = true) (left right : List Char) :
    lines_of_words (left ++ c :: right) = lines_of_words left ++ lines_of_words right := by
  have hfirst : ∀ line : List Char, (∀ d ∈ line, is_line_break d = false) → ∀ d rest, is_line_break d = true →
      lines_of_words (line ++ d :: rest) = lines_of_words line ++ lines_of_words rest := by
    intro line hline d rest hd
    obtain ⟨lines, hlines, hworded⟩ := splitlines_append_cons hline hd rest
    rw [lines_of_words, hlines, worded_cons, hworded, lines_of_words_of_forall hline]
  -- the line that the left text has begun is carried along
  have hcarried : ∀ line : List Char, (∀ d ∈ line, is_line_break d = false) →
      lines_of_words (line ++ left ++ c :: right) = lines_of_words (line ++ left) ++ lines_of_words right := by
    induction left with
    | nil =>
      intro line hline
      rw [List.append_nil]
      exact hfirst line hline c right hc
    | cons d left ih =>
      intro line hline
      cases hd : is_line_break d with
      | true =>
        have hrest := ih [] fun _ hmem => absurd hmem List.not_mem_nil
        rw [List.append_assoc, List.cons_append, hfirst line hline d _ hd, hfirst line hline d _ hd]
        rw [List.nil_append] at hrest
        rw [hrest, List.append_assoc]
      | false =>
        have hrest := ih (line ++ [d]) fun e he => (List.mem_append.mp he).elim (hline e) fun he =>
          List.mem_singleton.mp he ▸ hd
        rw [List.append_assoc line [d] left, List.singleton_append] at hrest
        exact hrest
  exact hcarried [] fun _ hmem => absurd hmem List.not_mem_nil

/-- The words of the lines are the words of the text. -/
theorem flatten_lines_of_words (value : List Char) : (lines_of_words value).flatten = split_words value := by
  induction hlength : value.length using Nat.strongRecOn generalizing value with
  | ind length ih =>
    by_cases hbreak : ∃ c ∈ value, is_line_break c = true
    · obtain ⟨c, hmem, hc⟩ := hbreak
      obtain ⟨left, right, rfl⟩ := List.append_of_mem hmem
      rw [List.length_append, List.length_cons] at hlength
      rw [lines_of_words_append_cons hc, List.flatten_append, ih left.length (by omega) left rfl,
        ih right.length (by omega) right rfl]
      exact (words_append_cons (is_space_of_is_line_break hc) left right).symm
    · rw [lines_of_words_of_forall fun c hmem => Bool.eq_false_iff.mpr fun hc => hbreak ⟨c, hmem, hc⟩]
      split
      · rename_i hnil
        rw [hnil]
        rfl
      · exact List.append_nil _

end text
