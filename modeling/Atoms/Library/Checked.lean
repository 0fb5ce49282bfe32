import Mathlib.Data.List.Forall2

namespace checked

variable {ε α β γ : Type}

/-- Raise `error` unless `condition` holds. -/
def require (condition : Prop) [Decidable condition] (error : ε) : Except ε Unit :=
  if condition then .ok () else .error error

@[simp] theorem require_eq_ok_iff {condition : Prop} [Decidable condition] {error : ε} {u : Unit} :
    require condition error = .ok u ↔ condition := by
  unfold require
  split <;> simp_all

theorem require_of {condition : Prop} [Decidable condition] {error : ε} (h : condition) :
    require condition error = .ok () := by simp [require, h]

@[simp] theorem require_true {error : ε} : require True error = .ok () := rfl

theorem require_of_not {condition : Prop} [Decidable condition] {error : ε} (h : ¬ condition) :
    require condition error = .error error := by simp [require, h]

/-- A computation that returns a value has passed each of its two halves. -/
theorem bind_eq_ok_iff {x : Except ε α} {f : α → Except ε β} {b : β} :
    (x >>= f) = .ok b ↔ ∃ a, x = .ok a ∧ f a = .ok b := by
  cases x <;> simp [bind, Except.bind]

@[simp] theorem ok_bind {a : α} {f : α → Except ε β} : (Except.ok a >>= f) = f a := rfl

@[simp] theorem error_bind {e : ε} {f : α → Except ε β} :
    ((Except.error e : Except ε α) >>= f) = .error e := rfl

@[simp] theorem pure_eq_ok_iff {a b : α} : (pure a : Except ε α) = .ok b ↔ a = b := by
  simp [pure, Except.pure]

@[simp] theorem throw_ne_ok {e : ε} {a : α} : (throw e : Except ε α) ≠ .ok a := by
  simp [throw, throwThe, MonadExceptOf.throw]

@[simp] theorem map_eq_ok_iff {x : Except ε α} {f : α → β} {b : β} :
    (f <$> x) = .ok b ↔ ∃ a, x = .ok a ∧ f a = b := by
  cases x <;> simp [Functor.map, Except.map]

/-- A check rejects where it does not accept. -/
theorem exists_error_iff {x : Except ε Unit} : (∃ e, x = .error e) ↔ ¬ x = .ok () := by
  cases x <;> simp

/-! What a computation returns, whatever it raises. -/

theorem toOption_bind {x : Except ε α} {f : α → Except ε β} :
    (x >>= f).toOption = x.toOption.bind fun a => (f a).toOption := by
  cases x <;> rfl

theorem toOption_require {condition : Prop} [Decidable condition] {error : ε} :
    (require condition error).toOption = if condition then some () else none := by
  unfold require
  split <;> rfl

theorem toOption_pure {a : α} : (pure a : Except ε α).toOption = some a := rfl

theorem toOption_throw {e : ε} : (throw e : Except ε α).toOption = none := rfl

theorem toOption_eq_some_iff {x : Except ε α} {a : α} : x.toOption = some a ↔ x = .ok a := by
  cases x <;> simp [Except.toOption]

/-! Which errors a computation raises. -/

/-- Every error that `x` raises satisfies `P`. -/
def RaisesOnly (P : ε → Prop) (x : Except ε α) : Prop := ∀ e, x = .error e → P e

section

variable {P : ε → Prop}

theorem raises_only_pure (a : α) : RaisesOnly P (pure a : Except ε α) := by
  intro e he
  cases he

theorem raises_only_throw {e : ε} (h : P e) : RaisesOnly P (throw e : Except ε α) := by
  intro e' he
  cases he
  exact h

theorem raises_only_require {condition : Prop} [Decidable condition] {e : ε} (h : P e) :
    RaisesOnly P (require condition e) := by
  unfold require
  split
  · exact raises_only_pure ()
  · exact raises_only_throw h

theorem raises_only_bind {x : Except ε α} {f : α → Except ε β} (hx : RaisesOnly P x) (hf : ∀ a, RaisesOnly P (f a)) :
    RaisesOnly P (x >>= f) := by
  cases x with
  | error e => exact fun e' he => hx e' (by cases he; rfl)
  | ok a => exact hf a

end

/-- A loop over checks passes exactly when every check passes. -/
theorem forM_eq_ok_iff {f : α → Except ε Unit} {xs : List α} {u : Unit} :
    xs.forM f = .ok u ↔ ∀ x ∈ xs, f x = .ok () := by
  induction xs with
  | nil => simp [List.forM, pure, Except.pure]
  | cons x xs ih =>
    have hcons : List.forM (x :: xs) f = (f x >>= fun _ => List.forM xs f) := rfl
    rw [hcons, bind_eq_ok_iff]
    simp only [List.forall_mem_cons, ← ih]
    exact ⟨fun ⟨_, hx, hxs⟩ => ⟨hx, hxs⟩, fun ⟨hx, hxs⟩ => ⟨(), hx, hxs⟩⟩

/-- A loop that collects results returns exactly the pointwise results. -/
theorem mapM_eq_ok_iff {f : α → Except ε β} {xs : List α} {ys : List β} :
    xs.mapM f = .ok ys ↔ List.Forall₂ (fun x y => f x = .ok y) xs ys := by
  induction xs generalizing ys with
  | nil => simp [List.mapM_nil, List.forall₂_nil_left_iff, eq_comm, pure, Except.pure]
  | cons x xs ih =>
    rw [List.mapM_cons, bind_eq_ok_iff]
    constructor
    · rintro ⟨y, hy, h⟩
      rw [bind_eq_ok_iff] at h
      obtain ⟨rest, hrest, h⟩ := h
      cases (pure_eq_ok_iff.mp h)
      exact .cons hy (ih.mp hrest)
    · intro h
      cases h with
      | cons hy hrest =>
        refine ⟨_, hy, ?_⟩
        rw [ih.mpr hrest]
        rfl

theorem mapM_congr {f g : α → Except ε β} {xs : List α} (h : ∀ x ∈ xs, f x = g x) : xs.mapM f = xs.mapM g := by
  induction xs with
  | nil => rfl
  | cons x rest ih =>
    rw [List.mapM_cons, List.mapM_cons, h x List.mem_cons_self, ih fun y hy => h y (List.mem_cons_of_mem _ hy)]

/-- A loop returns exactly when it returns at every item. -/
theorem exists_mapM_iff {f : α → Except ε β} {xs : List α} :
    (∃ ys, xs.mapM f = .ok ys) ↔ ∀ x ∈ xs, ∃ y, f x = .ok y := by
  simp only [mapM_eq_ok_iff]
  induction xs with
  | nil => simp
  | cons x rest ih =>
    rw [List.forall_mem_cons, ← ih]
    constructor
    · rintro ⟨ys, hall⟩
      cases hall with
      | cons hhead hrest => exact ⟨⟨_, hhead⟩, _, hrest⟩
    · rintro ⟨⟨y, hhead⟩, ys, hrest⟩
      exact ⟨y :: ys, .cons hhead hrest⟩

/-- Every result of a loop comes from one of its items. -/
theorem exists_of_mapM_eq_ok {f : α → Except ε β} {xs : List α} {ys : List β} (h : xs.mapM f = .ok ys) {y : β}
    (hy : y ∈ ys) : ∃ x ∈ xs, f x = .ok y := by
  rw [mapM_eq_ok_iff] at h
  induction h with
  | nil => cases hy
  | cons hhead _ ih =>
    rcases List.mem_cons.mp hy with rfl | hy
    · exact ⟨_, List.mem_cons_self, hhead⟩
    · obtain ⟨x, hx, hfx⟩ := ih hy
      exact ⟨x, List.mem_cons_of_mem _ hx, hfx⟩

/-- Every item of a loop gives one of its results. -/
theorem mem_of_mapM_eq_ok {f : α → Except ε β} {xs : List α} {ys : List β} (h : xs.mapM f = .ok ys) {x : α} (hx : x ∈ xs) :
    ∃ y ∈ ys, f x = .ok y := by
  rw [mapM_eq_ok_iff] at h
  induction h with
  | nil => cases hx
  | cons hhead _ ih =>
    rcases List.mem_cons.mp hx with rfl | hx
    · exact ⟨_, List.mem_cons_self, hhead⟩
    · obtain ⟨y, hy, hfx⟩ := ih hx
      exact ⟨y, List.mem_cons_of_mem _ hy, hfx⟩

theorem mapM_eq_ok_of_forall {f : α → Except ε β} {g : α → β} {xs : List α}
    (h : ∀ x ∈ xs, f x = .ok (g x)) : xs.mapM f = .ok (xs.map g) := by
  rw [mapM_eq_ok_iff, List.forall₂_map_right_iff]
  exact List.forall₂_same.mpr h

/-- A loop whose body passes a check and then returns a value computed from its
item passes every check and returns exactly those values. -/
theorem mapM_eq_ok_iff_map {f : α → Except ε β} {C : α → Prop} {g : α → β}
    (hbody : ∀ x y, f x = .ok y ↔ C x ∧ g x = y) {xs : List α} {ys : List β} :
    xs.mapM f = .ok ys ↔ (∀ x ∈ xs, C x) ∧ xs.map g = ys := by
  rw [mapM_eq_ok_iff]
  simp only [hbody]
  induction xs generalizing ys with
  | nil => simp [eq_comm]
  | cons x xs ih => cases ys <;> simp [ih, and_assoc, and_left_comm]

/-- Folding over a concatenation folds over the second part from where the first one ended. -/
theorem foldlM_append_eq_ok_iff {f : β → α → Except ε β} {xs ys : List α} {b c : β} :
    (xs ++ ys).foldlM f b = .ok c ↔ ∃ d, xs.foldlM f b = .ok d ∧ ys.foldlM f d = .ok c := by
  rw [List.foldlM_append, bind_eq_ok_iff]

theorem foldlM_cons_eq_ok_iff {f : β → α → Except ε β} {x : α} {xs : List α} {b c : β} :
    (x :: xs).foldlM f b = .ok c ↔ ∃ d, f b x = .ok d ∧ xs.foldlM f d = .ok c := by
  rw [List.foldlM_cons, bind_eq_ok_iff]

/-- A fold whose body passes a check of its item and then goes on with a value that it computes passes every check
and returns what the fold of those values gives. -/
theorem foldlM_eq_ok_iff_foldl {f : β → α → Except ε β} {C : α → Prop} {g : β → α → β}
    (hbody : ∀ b x c, f b x = .ok c ↔ C x ∧ g b x = c) {xs : List α} {b c : β} :
    xs.foldlM f b = .ok c ↔ (∀ x ∈ xs, C x) ∧ xs.foldl g b = c := by
  induction xs generalizing b with
  | nil => simp
  | cons x xs ih =>
    rw [foldlM_cons_eq_ok_iff, List.foldl_cons, List.forall_mem_cons]
    constructor
    · rintro ⟨d, hd, hrest⟩
      obtain ⟨hcheck, rfl⟩ := (hbody _ _ _).mp hd
      obtain ⟨hchecks, hfold⟩ := ih.mp hrest
      exact ⟨⟨hcheck, hchecks⟩, hfold⟩
    · rintro ⟨⟨hcheck, hchecks⟩, hfold⟩
      exact ⟨g b x, (hbody _ _ _).mpr ⟨hcheck, rfl⟩, ih.mpr ⟨hchecks, hfold⟩⟩

/-- Where a fold returns, it has taken a step at each of its items. -/
theorem exists_step_of_foldlM {f : β → α → Except ε β} {xs : List α} {b c : β} {x : α} (h : xs.foldlM f b = .ok c)
    (hx : x ∈ xs) : ∃ d d', f d x = .ok d' := by
  induction xs generalizing b with
  | nil => cases hx
  | cons y ys ih =>
    rw [foldlM_cons_eq_ok_iff] at h
    obtain ⟨d, hd, hrest⟩ := h
    rcases List.mem_cons.mp hx with rfl | hx
    · exact ⟨b, d, hd⟩
    · exact ih hrest hx

/-- An invariant kept by every step that returns holds wherever a fold returns. -/
theorem foldlM_invariant {f : β → α → Except ε β} {P : β → Prop}
    (hstep : ∀ b x c, P b → f b x = .ok c → P c) :
    ∀ {xs : List α} {b c : β}, P b → xs.foldlM f b = .ok c → P c
  | [], b, c, hb, h => by
    rw [List.foldlM_nil, pure_eq_ok_iff] at h
    exact h ▸ hb
  | x :: xs, b, c, hb, h => by
    rw [foldlM_cons_eq_ok_iff] at h
    obtain ⟨d, hd, hrest⟩ := h
    exact foldlM_invariant hstep (hstep b x d hb hd) hrest

/-- Folding over the first part of a list returns whenever folding over the whole list does. -/
theorem foldlM_take {f : β → α → Except ε β} {xs : List α} {b c : β} (k : Nat)
    (h : xs.foldlM f b = .ok c) :
    ∃ d, (xs.take k).foldlM f b = .ok d ∧ (xs.drop k).foldlM f d = .ok c := by
  rw [← foldlM_append_eq_ok_iff, List.take_append_drop]
  exact h

/-- `P` holds of every step that a fold takes, between where it starts and where it ends. -/
def EveryStep (f : β → α → Except ε β) (P : β → α → β → Prop) (b : β) (xs : List α) : Prop :=
  ∀ k x c d, xs[k]? = some x → (xs.take k).foldlM f b = .ok c → f c x = .ok d → P c x d

/-- `P` holds wherever a fold is cut. -/
def EveryCut (f : β → α → Except ε β) (P : β → Prop) (b : β) (xs : List α) : Prop :=
  ∀ k c, (xs.take k).foldlM f b = .ok c → P c

section

variable {f : β → α → Except ε β} {b : β} {xs ys : List α}

theorem every_step_nil (P : β → α → β → Prop) : EveryStep f P b [] := by
  intro k x c d hx
  simp at hx

theorem every_step_singleton {P : β → α → β → Prop} {x : α} (h : ∀ c, f b x = .ok c → P b x c) :
    EveryStep f P b [x] := by
  intro k y c d hy hcut hstep
  cases k with
  | zero =>
    simp only [List.getElem?_cons_zero, Option.some.injEq] at hy
    subst hy
    rw [List.take_zero, List.foldlM_nil, pure_eq_ok_iff] at hcut
    subst hcut
    exact h d hstep
  | succ k => simp at hy

theorem every_step_append {P : β → α → β → Prop} (hleft : EveryStep f P b xs)
    (hright : ∀ c, xs.foldlM f b = .ok c → EveryStep f P c ys) : EveryStep f P b (xs ++ ys) := by
  intro k x c d hx hcut hstep
  by_cases hk : k < xs.length
  · rw [List.getElem?_append_left hk] at hx
    rw [List.take_append_of_le_length (Nat.le_of_lt hk)] at hcut
    exact hleft k x c d hx hcut hstep
  · rw [List.getElem?_append_right (by omega)] at hx
    rw [List.take_append, List.take_of_length_le (by omega), foldlM_append_eq_ok_iff] at hcut
    obtain ⟨middle, hmiddle, hcut⟩ := hcut
    exact hright middle hmiddle _ x c d hx hcut hstep

theorem every_cut_nil {P : β → Prop} (h : P b) : EveryCut f P b [] := by
  intro k c hcut
  rw [List.take_nil, List.foldlM_nil, pure_eq_ok_iff] at hcut
  exact hcut ▸ h

theorem every_cut_singleton {P : β → Prop} {x : α} (hstart : P b) (hend : ∀ c, f b x = .ok c → P c) :
    EveryCut f P b [x] := by
  intro k c hcut
  cases k with
  | zero =>
    rw [List.take_zero, List.foldlM_nil, pure_eq_ok_iff] at hcut
    exact hcut ▸ hstart
  | succ k =>
    rw [List.take_succ_cons, List.take_nil, foldlM_cons_eq_ok_iff] at hcut
    obtain ⟨d, hd, hnil⟩ := hcut
    rw [List.foldlM_nil, pure_eq_ok_iff] at hnil
    exact hnil ▸ hend d hd

theorem every_cut_append {P : β → Prop} (hleft : EveryCut f P b xs)
    (hright : ∀ c, xs.foldlM f b = .ok c → EveryCut f P c ys) : EveryCut f P b (xs ++ ys) := by
  intro k c hcut
  by_cases hk : k ≤ xs.length
  · rw [List.take_append_of_le_length hk] at hcut
    exact hleft k c hcut
  · rw [List.take_append, List.take_of_length_le (by omega), foldlM_append_eq_ok_iff] at hcut
    obtain ⟨middle, hmiddle, hcut⟩ := hcut
    exact hright middle hmiddle _ c hcut

/-- What holds at the start and survives every step unless `Q` takes it away holds at the end,
or `Q` took it away at some step. -/
theorem every_step_survives {R : β → Prop} {Q : β → α → β → Prop} {c : β}
    (hstep : ∀ b x c, f b x = .ok c → R b → Q b x c ∨ R c) (hstart : R b) (h : xs.foldlM f b = .ok c) :
    (∃ k x d d', xs[k]? = some x ∧ (xs.take k).foldlM f b = .ok d ∧ f d x = .ok d' ∧ Q d x d') ∨ R c := by
  induction xs generalizing b with
  | nil =>
    rw [List.foldlM_nil, pure_eq_ok_iff] at h
    exact .inr (h ▸ hstart)
  | cons x xs ih =>
    rw [foldlM_cons_eq_ok_iff] at h
    obtain ⟨middle, hmiddle, h⟩ := h
    rcases hstep b x middle hmiddle hstart with hlost | hkept
    · exact .inl ⟨0, x, b, middle, rfl, rfl, hmiddle, hlost⟩
    · rcases ih hkept h with ⟨k, y, d, d', hy, hcut, hd, hlost⟩ | hend
      · refine .inl ⟨k + 1, y, d, d', by simpa using hy, ?_, hd, hlost⟩
        rw [List.take_succ_cons, foldlM_cons_eq_ok_iff]
        exact ⟨middle, hmiddle, hcut⟩
      · exact .inr hend

end

end checked
