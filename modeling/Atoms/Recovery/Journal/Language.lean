import Atoms.Recovery.Journal

namespace atoms.recovery.journal

/-- A journal vector in four stretches: applied effects, at most one in flight,
reversed effects, and effects that never started. -/
def vector (done : Nat) (in_flight : List JournalState) (undone pending : Nat) : List JournalState :=
  List.replicate done .DONE ++ (in_flight ++ (List.replicate undone .UNDONE ++ List.replicate pending .PENDING))

theorem cons_vector (done : Nat) (in_flight : List JournalState) (undone pending : Nat) :
    .DONE :: vector done in_flight undone pending = vector (done + 1) in_flight undone pending := by
  simp [vector, List.replicate_succ]

theorem vector_length (done : Nat) (in_flight : List JournalState) (undone pending : Nat) :
    (vector done in_flight undone pending).length = done + (in_flight.length + (undone + pending)) := by
  simp [vector]

/-- After its first effect that is not applied, the forward automaton accepts only effects that never started. -/
theorem forward_language_from_iff {phase : Nat} (hphase : phase ≠ 0) {states : List JournalState} :
    forward_language_from phase states = true ↔ ∃ b, states = vector 0 [] 0 b := by
  induction states generalizing phase with
  | nil => exact ⟨fun _ => ⟨0, rfl⟩, fun _ => rfl⟩
  | cons state rest ih =>
    simp only [forward_language_from, hphase, false_and, if_false]
    cases state with
    | PENDING =>
      rw [if_pos rfl, ih (by decide)]
      constructor
      · rintro ⟨b, rfl⟩
        exact ⟨b + 1, by simp [vector, List.replicate_succ]⟩
      · rintro ⟨b, hb⟩
        cases b <;> simp_all [vector, List.replicate_succ]
    | _ =>
      rw [if_neg (by decide)]
      simp only [Bool.false_eq_true, false_iff, not_exists]
      intro b hb
      cases b <;> simp [vector, List.replicate_succ] at hb

theorem forward_language_iff {states : List JournalState} : forward_language states = true ↔
    ∃ a b, states = vector a [] 0 b ∨ states = vector a [.STARTED] 0 b := by
  unfold forward_language
  induction states with
  | nil => simp [forward_language_from, vector]
  | cons state rest ih =>
    cases state with
    | DONE =>
      simp only [forward_language_from, true_and, if_true, ih]
      constructor
      · rintro ⟨a, b, rfl | rfl⟩
        · exact ⟨a + 1, b, .inl (cons_vector ..)⟩
        · exact ⟨a + 1, b, .inr (cons_vector ..)⟩
      · rintro ⟨a, b, h | h⟩
        · cases a with
          | zero => cases b <;> simp [vector, List.replicate_succ] at h
          | succ a => exact ⟨a, b, .inl (by simpa [← cons_vector] using h)⟩
        · cases a with
          | zero => simp [vector] at h
          | succ a => exact ⟨a, b, .inr (by simpa [← cons_vector] using h)⟩
    | STARTED =>
      simp only [forward_language_from, reduceCtorEq, and_false, if_false, true_and, if_true]
      rw [forward_language_from_iff (by decide)]
      constructor
      · rintro ⟨b, rfl⟩
        exact ⟨0, b, .inr (by simp [vector])⟩
      · rintro ⟨a, b, h | h⟩
        · cases a <;> cases b <;> simp [vector, List.replicate_succ] at h
        · cases a with
          | zero => exact ⟨b, by simpa [vector] using h⟩
          | succ a => simp [vector, List.replicate_succ] at h
    | PENDING =>
      simp only [forward_language_from, reduceCtorEq, and_false, if_false, if_true]
      rw [forward_language_from_iff (by decide)]
      constructor
      · rintro ⟨b, rfl⟩
        exact ⟨0, b + 1, .inl (by simp [vector, List.replicate_succ])⟩
      · rintro ⟨a, b, h | h⟩
        · cases a with
          | zero => cases b <;> simp_all [vector, List.replicate_succ]
          | succ a => simp [vector, List.replicate_succ] at h
        · cases a <;> simp [vector, List.replicate_succ] at h
    | _ =>
      simp only [forward_language_from, reduceCtorEq, and_false, if_false, Bool.false_eq_true, false_iff, not_exists]
      rintro a b (h | h) <;> cases a <;> cases b <;> simp [vector, List.replicate_succ] at h

theorem reverse_language_from_three_iff {states : List JournalState} :
    reverse_language_from 3 states = true ↔ ∃ b, states = vector 0 [] 0 b := by
  induction states with
  | nil => exact ⟨fun _ => ⟨0, rfl⟩, fun _ => rfl⟩
  | cons state rest ih =>
    cases state with
    | PENDING =>
      simp only [reverse_language_from, reduceCtorEq, and_false, if_false, false_and, true_and]
      rw [if_pos (by decide), ih]
      constructor
      · rintro ⟨b, rfl⟩
        exact ⟨b + 1, by simp [vector, List.replicate_succ]⟩
      · rintro ⟨b, hb⟩
        cases b <;> simp_all [vector, List.replicate_succ]
    | _ =>
      simp [reverse_language_from]
      intro b hb
      cases b <;> simp [vector, List.replicate_succ] at hb

theorem reverse_language_from_two_iff {states : List JournalState} :
    reverse_language_from 2 states = true ↔ ∃ c b, states = vector 0 [] c b := by
  induction states with
  | nil => simp [reverse_language_from, vector]
  | cons state rest ih =>
    cases state with
    | UNDONE =>
      simp only [reverse_language_from, reduceCtorEq, and_false, if_false, true_and]
      rw [if_pos (by decide), ih]
      constructor
      · rintro ⟨c, b, rfl⟩
        exact ⟨c + 1, b, by simp [vector, List.replicate_succ]⟩
      · rintro ⟨c, b, hcb⟩
        cases c with
        | zero => cases b <;> simp [vector, List.replicate_succ] at hcb
        | succ c => exact ⟨c, b, by simpa [vector, List.replicate_succ] using hcb⟩
    | PENDING =>
      simp only [reverse_language_from, reduceCtorEq, and_false, if_false, false_and, true_and]
      rw [if_pos (by decide), reverse_language_from_three_iff]
      constructor
      · rintro ⟨b, rfl⟩
        exact ⟨0, b + 1, by simp [vector, List.replicate_succ]⟩
      · rintro ⟨c, b, hcb⟩
        cases c with
        | zero => cases b <;> simp_all [vector, List.replicate_succ]
        | succ c => simp [vector, List.replicate_succ] at hcb
    | _ =>
      simp [reverse_language_from]
      intro c b hcb
      cases c <;> cases b <;> simp [vector, List.replicate_succ] at hcb

/-- Directly after an effect whose reversal has started, the reverse automaton
accepts no effect that never started. -/
theorem reverse_language_from_one_iff {states : List JournalState} :
    reverse_language_from 1 states = true ↔ ∃ c b, states = vector 0 [] c b ∧ (c = 0 → b = 0) := by
  cases states with
  | nil =>
    simp only [reverse_language_from, true_iff]
    exact ⟨0, 0, rfl, fun _ => rfl⟩
  | cons state rest =>
    cases state with
    | UNDONE =>
      simp only [reverse_language_from, reduceCtorEq, and_false, if_false, true_and]
      rw [if_pos (by decide), reverse_language_from_two_iff]
      constructor
      · rintro ⟨c, b, rfl⟩
        exact ⟨c + 1, b, by simp [vector, List.replicate_succ], by simp⟩
      · rintro ⟨c, b, hcb, _⟩
        cases c with
        | zero => cases b <;> simp [vector, List.replicate_succ] at hcb
        | succ c => exact ⟨c, b, by simpa [vector, List.replicate_succ] using hcb⟩
    | _ =>
      simp [reverse_language_from]
      intro c b hcb
      cases c <;> cases b <;> simp [vector, List.replicate_succ] at hcb ⊢

theorem reverse_language_iff {states : List JournalState} : reverse_language states = true ↔
    ∃ a c b, states = vector a [] c b ∨ states = vector a [.UNDO_STARTED] c b ∧ (c = 0 → b = 0) := by
  unfold reverse_language
  induction states with
  | nil =>
    simp only [reverse_language_from, true_iff]
    exact ⟨0, 0, 0, .inl rfl⟩
  | cons state rest ih =>
    cases state with
    | DONE =>
      simp only [reverse_language_from, true_and, if_true, ih]
      constructor
      · rintro ⟨a, c, b, rfl | ⟨rfl, hcb⟩⟩
        · exact ⟨a + 1, c, b, .inl (cons_vector ..)⟩
        · exact ⟨a + 1, c, b, .inr ⟨cons_vector .., hcb⟩⟩
      · rintro ⟨a, c, b, h | ⟨h, hcb⟩⟩
        · cases a with
          | zero => cases c <;> cases b <;> simp [vector, List.replicate_succ] at h
          | succ a => exact ⟨a, c, b, .inl (by simpa [← cons_vector] using h)⟩
        · cases a with
          | zero => simp [vector] at h
          | succ a => exact ⟨a, c, b, .inr ⟨by simpa [← cons_vector] using h, hcb⟩⟩
    | UNDO_STARTED =>
      simp only [reverse_language_from, reduceCtorEq, and_false, if_false, true_and, if_true]
      rw [reverse_language_from_one_iff]
      constructor
      · rintro ⟨c, b, rfl, hcb⟩
        exact ⟨0, c, b, .inr ⟨by simp [vector], hcb⟩⟩
      · rintro ⟨a, c, b, h | ⟨h, hcb⟩⟩
        · cases a <;> cases c <;> cases b <;> simp [vector, List.replicate_succ] at h
        · cases a with
          | zero => exact ⟨c, b, by simpa [vector] using h, hcb⟩
          | succ a => simp [vector, List.replicate_succ] at h
    | UNDONE =>
      simp only [reverse_language_from, reduceCtorEq, and_false, if_false, true_and]
      rw [if_pos (by decide), reverse_language_from_two_iff]
      constructor
      · rintro ⟨c, b, rfl⟩
        exact ⟨0, c + 1, b, .inl (by simp [vector, List.replicate_succ])⟩
      · rintro ⟨a, c, b, h | ⟨h, _⟩⟩
        · cases a with
          | zero =>
            cases c with
            | zero => cases b <;> simp [vector, List.replicate_succ] at h
            | succ c => exact ⟨c, b, by simpa [vector, List.replicate_succ] using h⟩
          | succ a => simp [vector, List.replicate_succ] at h
        · cases a <;> simp [vector, List.replicate_succ] at h
    | PENDING =>
      simp only [reverse_language_from, reduceCtorEq, and_false, if_false, false_and, true_and]
      rw [if_pos (by decide), reverse_language_from_three_iff]
      constructor
      · rintro ⟨b, rfl⟩
        exact ⟨0, 0, b + 1, .inl (by simp [vector, List.replicate_succ])⟩
      · rintro ⟨a, c, b, h | ⟨h, _⟩⟩
        · cases a with
          | zero =>
            cases c with
            | zero => cases b <;> simp_all [vector, List.replicate_succ]
            | succ c => simp [vector, List.replicate_succ] at h
          | succ a => simp [vector, List.replicate_succ] at h
        · cases a <;> simp [vector, List.replicate_succ] at h
    | STARTED =>
      simp [reverse_language_from]
      rintro a c b
      cases a <;> cases c <;> cases b <;> simp [vector, List.replicate_succ]

end atoms.recovery.journal
