import Mathlib.Data.List.Basic

namespace crash

variable {σ τ ε α β : Type}

/-- What a program did: the states its calls led to, in order, the state it ended in, and its value or error. -/
structure Run (σ ε α : Type) where
  passed : List σ
  final : σ
  result : Except ε α

/-- A program over a state, call by call. A kill may stop it after any of them, and others may act between them. -/
inductive Prog (σ ε α : Type)
  | done (result : Except ε α)
  /-- One call: what it leaves, if it changes anything, and how the program goes on from what it found. -/
  | step (effect : σ → Option σ) (next : σ → Prog σ ε α)

/-- A part of a state that can be read and replaced. -/
structure Lens (σ τ : Type) where
  get : σ → τ
  put : σ → τ → σ
  get_put : ∀ s t, get (put s t) = t
  put_get : ∀ s, put s (get s) = s
  put_put : ∀ s t t', put (put s t) t' = put s t'

namespace Prog

def bind : Prog σ ε α → (α → Prog σ ε β) → Prog σ ε β
  | .done (.ok a), f => f a
  | .done (.error e), _ => .done (.error e)
  | .step effect next, f => .step effect fun s => (next s).bind f

def catchError : Prog σ ε α → (ε → Prog σ ε α) → Prog σ ε α
  | .done (.ok a), _ => .done (.ok a)
  | .done (.error e), handler => handler e
  | .step effect next, handler => .step effect fun s => (next s).catchError handler

instance : Monad (Prog σ ε) where
  pure a := .done (.ok a)
  bind := bind

instance : MonadExceptOf ε (Prog σ ε) where
  throw e := .done (.error e)
  tryCatch := catchError

/-- One call: it takes effect as a whole, or raises and changes nothing. -/
def call (f : σ → Except ε (α × σ)) : Prog σ ε α :=
  .step (fun s => ((f s).map Prod.snd).toOption) fun s => .done ((f s).map Prod.fst)

/-- An observation, which changes nothing. -/
def read (f : σ → Except ε α) : Prog σ ε α := .step (fun _ => none) fun s => .done (f s)

/-- A program over a part of the state. -/
def zoom (lens : Lens σ τ) : Prog τ ε α → Prog σ ε α
  | .done result => .done result
  | .step effect next => .step (fun s => (effect (lens.get s)).map (lens.put s)) fun s => zoom lens (next (lens.get s))

/-- The program runs alone from a state. -/
def run : Prog σ ε α → σ → Run σ ε α
  | .done result, s => ⟨[], s, result⟩
  | .step effect next, s => match effect s with
    | none => (next s).run s
    | some t => ⟨t :: ((next s).run t).passed, ((next s).run t).final, ((next s).run t).result⟩

instance : CoeFun (Prog σ ε α) fun _ => σ → Run σ ε α := ⟨run⟩

/-- From `s` the program returns `a` in the state `s'`. -/
def Completes (p : Prog σ ε α) (s : σ) (a : α) (s' : σ) : Prop := ∃ passed, p s = ⟨passed, s', .ok a⟩

/-- From `s` the program raises `e` in the state `s'`. -/
def Raises (p : Prog σ ε α) (s : σ) (e : ε) (s' : σ) : Prop := ∃ passed, p s = ⟨passed, s', .error e⟩

/-- A kill of the program started in `s` may leave the state `t`. -/
def Passes (p : Prog σ ε α) (s t : σ) : Prop := t ∈ (p s).passed

/-- Run from `s`, the program passes only states with `I`, and it ends with a result and in a state with `Q`. -/
def Ensures (p : Prog σ ε α) (s : σ) (I : σ → Prop) (Q : Except ε α → σ → Prop) : Prop :=
  (∀ t ∈ (p s).passed, I t) ∧ Q (p s).result (p s).final

/-- Run from any state with `I`, the program passes only such states, and ends in one. -/
def Keeps (I : σ → Prop) (p : Prog σ ε α) : Prop := ∀ s, I s → p.Ensures s I fun _ t => I t

/-- A program ends with a value and `ok`, or with an error and `failed`. -/
def ends (ok : α → σ → Prop) (failed : σ → Prop) : Except ε α → σ → Prop
  | .ok a, s => ok a s
  | .error _, s => failed s

/-- The program returns `a` without any call. -/
def Returns (p : Prog σ ε α) (s : σ) (a : α) : Prop := p s = ⟨[], s, .ok a⟩

/-- The program raises `e` without any call. -/
def Fails (p : Prog σ ε α) (s : σ) (e : ε) : Prop := p s = ⟨[], s, .error e⟩

/-- The program only looks. -/
def Reads (p : Prog σ ε α) : Prop := ∀ s, (p s).passed = [] ∧ (p s).final = s

/-- The program changes nothing in either state, and finds the same in both; what it returns has `P`. -/
def Alike (p : Prog σ ε α) (s s' : σ) (P : α → Prop) : Prop :=
  ∃ result, p s = ⟨[], s, result⟩ ∧ p s' = ⟨[], s', result⟩ ∧ ∀ a, result = .ok a → P a

/-! How a program runs alone. -/

section

variable {p : Prog σ ε α} {f : α → Prog σ ε β} {handler : ε → Prog σ ε α} {s s' t : σ} {a : α} {e : ε} {passed : List σ}

theorem run_call_ok {g : σ → Except ε (α × σ)} (h : g s = .ok (a, t)) : call g s = ⟨[t], t, .ok a⟩ := by
  simp only [call, run, h, Except.map, Except.toOption]

theorem run_call_error {g : σ → Except ε (α × σ)} (h : g s = .error e) : call g s = ⟨[], s, .error e⟩ := by
  simp only [call, run, h, Except.map, Except.toOption]

theorem run_bind_ok (h : p s = ⟨passed, s', .ok a⟩) :
    (p >>= f) s = ⟨passed ++ (f a s').passed, (f a s').final, (f a s').result⟩ := by
  induction p generalizing s passed with
  | done result =>
    cases h
    rfl
  | step effect next ih =>
    have hbind : (step effect next >>= f) = step effect fun s => next s >>= f := rfl
    rw [hbind]
    simp only [run] at h ⊢
    cases heffect : effect s with
    | none =>
      rw [heffect] at h
      exact ih s h
    | some t =>
      simp only [heffect, Run.mk.injEq] at h
      obtain ⟨rfl, hfinal, hresult⟩ := h
      have hrun : (next s) t = ⟨((next s) t).passed, s', .ok a⟩ := by rw [← hfinal, ← hresult]
      have hnext := ih s hrun
      simp only [hnext, List.cons_append]

theorem run_bind_error (h : p s = ⟨passed, s', .error e⟩) : (p >>= f) s = ⟨passed, s', .error e⟩ := by
  induction p generalizing s passed with
  | done result =>
    cases h
    rfl
  | step effect next ih =>
    have hbind : (step effect next >>= f) = step effect fun s => next s >>= f := rfl
    rw [hbind]
    simp only [run] at h ⊢
    cases heffect : effect s with
    | none =>
      rw [heffect] at h
      exact ih s h
    | some t =>
      simp only [heffect, Run.mk.injEq] at h
      obtain ⟨rfl, hfinal, hresult⟩ := h
      have hrun : (next s) t = ⟨((next s) t).passed, s', .error e⟩ := by rw [← hfinal, ← hresult]
      have hnext := ih s hrun
      simp only [hnext]

theorem run_try_ok (h : p s = ⟨passed, s', .ok a⟩) : (tryCatch p handler : Prog σ ε α) s = ⟨passed, s', .ok a⟩ := by
  induction p generalizing s passed with
  | done result =>
    cases h
    rfl
  | step effect next ih =>
    have htry : (tryCatch (step effect next) handler : Prog σ ε α) = step effect fun s => tryCatch (next s) handler := rfl
    rw [htry]
    simp only [run] at h ⊢
    cases heffect : effect s with
    | none =>
      rw [heffect] at h
      exact ih s h
    | some t =>
      simp only [heffect, Run.mk.injEq] at h
      obtain ⟨rfl, hfinal, hresult⟩ := h
      have hrun : (next s) t = ⟨((next s) t).passed, s', .ok a⟩ := by rw [← hfinal, ← hresult]
      have hnext := ih s hrun
      simp only [hnext]

theorem run_try_error (h : p s = ⟨passed, s', .error e⟩) : (tryCatch p handler : Prog σ ε α) s =
    ⟨passed ++ (handler e s').passed, (handler e s').final, (handler e s').result⟩ := by
  induction p generalizing s passed with
  | done result =>
    cases h
    rfl
  | step effect next ih =>
    have htry : (tryCatch (step effect next) handler : Prog σ ε α) = step effect fun s => tryCatch (next s) handler := rfl
    rw [htry]
    simp only [run] at h ⊢
    cases heffect : effect s with
    | none =>
      rw [heffect] at h
      exact ih s h
    | some t =>
      simp only [heffect, Run.mk.injEq] at h
      obtain ⟨rfl, hfinal, hresult⟩ := h
      have hrun : (next s) t = ⟨((next s) t).passed, s', .error e⟩ := by rw [← hfinal, ← hresult]
      have hnext := ih s hrun
      simp only [hnext, List.cons_append]

theorem run_zoom (lens : Lens σ τ) (q : Prog τ ε α) (s : σ) : zoom lens q s =
    ⟨(q (lens.get s)).passed.map (lens.put s), lens.put s (q (lens.get s)).final, (q (lens.get s)).result⟩ := by
  induction q generalizing s with
  | done result => simp only [zoom, run, List.map_nil, lens.put_get]
  | step effect next ih =>
    simp only [zoom, run]
    cases heffect : effect (lens.get s) with
    | none => exact ih _ s
    | some t =>
      have hput : lens.put (lens.put s t) = lens.put s := funext (lens.put_put s t)
      simp only [Option.map_some, ih, lens.get_put, hput, List.map_cons]

end

section

variable {p : Prog σ ε α} {f : α → Prog σ ε β} {s s' t : σ} {a a' : α} {b : β} {e : ε}

@[simp] theorem completes_pure_iff : (pure a : Prog σ ε α).Completes s a' s' ↔ a = a' ∧ s = s' := by
  constructor
  · rintro ⟨passed, h⟩
    cases h
    exact ⟨rfl, rfl⟩
  · rintro ⟨rfl, rfl⟩
    exact ⟨[], rfl⟩

/-- A run that ends with a value completes in its final state. -/
theorem completes_final (h : (p s).result = .ok a) : p.Completes s a (p s).final := by
  refine ⟨(p s).passed, ?_⟩
  rw [← h]

theorem completes_bind_iff :
    (p >>= f).Completes s b s' ↔ ∃ a middle, p.Completes s a middle ∧ (f a).Completes middle b s' := by
  simp only [Completes]
  rcases hp : p s with ⟨passed, middle, result⟩
  cases result with
  | error e => simp [run_bind_error hp]
  | ok a =>
    simp only [run_bind_ok hp, Run.mk.injEq, Except.ok.injEq]
    constructor
    · rintro ⟨_, _, hfinal, hresult⟩
      exact ⟨a, middle, ⟨passed, rfl, rfl, rfl⟩, (f a middle).passed, by rw [← hfinal, ← hresult]⟩
    · rintro ⟨_, _, ⟨_, rfl, rfl, rfl⟩, passed', h⟩
      rw [h]
      exact ⟨_, rfl, rfl, rfl⟩

@[simp] theorem not_completes_throw : ¬ (throw e : Prog σ ε α).Completes s a s' := by
  rintro ⟨passed, h⟩
  cases h

theorem completes_call_iff {g : σ → Except ε (α × σ)} : (call g).Completes s a s' ↔ g s = .ok (a, s') := by
  unfold Completes
  cases hg : g s with
  | error e => simp [run_call_error hg]
  | ok out =>
    obtain ⟨a', s''⟩ := out
    simp only [run_call_ok hg, Run.mk.injEq, Except.ok.injEq, Prod.mk.injEq]
    constructor
    · rintro ⟨_, _, rfl, rfl⟩
      exact ⟨rfl, rfl⟩
    · rintro ⟨rfl, rfl⟩
      exact ⟨_, rfl, rfl, rfl⟩

theorem completes_read_iff {g : σ → Except ε α} : (read g).Completes s a s' ↔ g s = .ok a ∧ s = s' := by
  have hrun : (read g) s = ⟨[], s, g s⟩ := rfl
  simp only [Completes, hrun, Run.mk.injEq]
  constructor
  · rintro ⟨_, _, rfl, h⟩
    exact ⟨h, rfl⟩
  · rintro ⟨h, rfl⟩
    exact ⟨_, rfl, rfl, h⟩

/-- A condition that raises unless it holds lets only a run with it pass. -/
theorem completes_guard {condition : Prop} [Decidable condition] {u : Unit}
    (h : (if condition then pure () else MonadExceptOf.throw e : Prog σ ε Unit).Completes s u s') : condition ∧ s = s' := by
  by_cases hcondition : condition
  · rw [if_pos hcondition] at h
    exact ⟨hcondition, (completes_pure_iff.mp h).2⟩
  · rw [if_neg hcondition] at h
    exact absurd h not_completes_throw

/-- A handler that completes takes over from an error. -/
theorem completes_try_iff {handler : ε → Prog σ ε α} : (tryCatch p handler).Completes s a s' ↔
    p.Completes s a s' ∨ ∃ e middle, p.Raises s e middle ∧ (handler e).Completes middle a s' := by
  simp only [Completes, Raises]
  rcases hp : p s with ⟨passed, middle, result⟩
  cases result with
  | ok a' => simp [run_try_ok hp]
  | error e =>
    simp only [run_try_error hp, Run.mk.injEq, reduceCtorEq, and_false, exists_const, false_or, Except.error.injEq]
    constructor
    · rintro ⟨_, _, hfinal, hresult⟩
      exact ⟨e, middle, ⟨passed, rfl, rfl, rfl⟩, (handler e middle).passed, by rw [← hfinal, ← hresult]⟩
    · rintro ⟨_, _, ⟨_, rfl, rfl, rfl⟩, passed', h⟩
      rw [h]
      exact ⟨_, rfl, rfl, rfl⟩

/-- A handler that always raises leaves only what completes without it. -/
theorem completes_rethrow_iff {handler : ε → Prog σ ε α} (h : ∀ e t b t', ¬ (handler e).Completes t b t') :
    (tryCatch p handler).Completes s a s' ↔ p.Completes s a s' := by
  rw [completes_try_iff]
  constructor
  · rintro (hp | ⟨e, middle, _, hhandler⟩)
    · exact hp
    · exact absurd hhandler (h e middle a s')
  · exact .inl

theorem completes_zoom_iff {lens : Lens σ τ} {q : Prog τ ε α} :
    (zoom lens q).Completes s a s' ↔ ∃ t, q.Completes (lens.get s) a t ∧ lens.put s t = s' := by
  simp only [Completes, run_zoom]
  rcases hq : q (lens.get s) with ⟨passed, t, result⟩
  simp only [Run.mk.injEq]
  constructor
  · rintro ⟨_, _, rfl, rfl⟩
    exact ⟨t, ⟨passed, rfl, rfl, rfl⟩, rfl⟩
  · rintro ⟨_, ⟨_, rfl, rfl, rfl⟩, rfl⟩
    exact ⟨_, rfl, rfl, rfl⟩

end

/-! Rules for `Passes`: where a kill may stop. -/

section

variable {p : Prog σ ε α} {f : α → Prog σ ε β} {s s' t : σ} {a : α}

end

/-! Rules for `Ensures`: what holds at every kill and what holds at the end. -/

section

variable {p : Prog σ ε α} {f : α → Prog σ ε β} {s : σ} {I I' : σ → Prop} {Q Q' : Except ε α → σ → Prop}
  {R : Except ε β → σ → Prop}

namespace Ensures

theorem pure {a : α} (h : Q (.ok a) s) : (Pure.pure a : Prog σ ε α).Ensures s I Q := ⟨fun _ ht => (nomatch ht), h⟩

theorem throw {e : ε} (h : Q (.error e) s) : (throw e : Prog σ ε α).Ensures s I Q := ⟨fun _ ht => (nomatch ht), h⟩

theorem read {g : σ → Except ε α} (h : Q (g s) s) : (read g).Ensures s I Q := ⟨fun _ ht => (nomatch ht), h⟩

theorem call {g : σ → Except ε (α × σ)} (hok : ∀ a t, g s = .ok (a, t) → I t ∧ Q (.ok a) t)
    (herror : ∀ e, g s = .error e → Q (.error e) s) : (call g).Ensures s I Q := by
  unfold Ensures
  cases hg : g s with
  | error e =>
    rw [run_call_error hg]
    exact ⟨fun _ ht => (nomatch ht), herror e hg⟩
  | ok out =>
    obtain ⟨a, t⟩ := out
    obtain ⟨hI, hQ⟩ := hok a t hg
    rw [run_call_ok hg]
    refine ⟨fun t' ht => ?_, hQ⟩
    rwa [List.mem_singleton.mp ht]

/-- A call that succeeds. -/
theorem call_ok {g : σ → Except ε (α × σ)} {a : α} {t : σ} (h : g s = .ok (a, t)) (hI : I t) (hQ : Q (.ok a) t) :
    (Prog.call g).Ensures s I Q := by
  rw [Ensures, run_call_ok h]
  refine ⟨fun t' ht => ?_, hQ⟩
  rwa [List.mem_singleton.mp ht]

theorem bind (hp : p.Ensures s I Q) (hok : ∀ a t, Q (.ok a) t → (f a).Ensures t I R)
    (herror : ∀ e t, Q (.error e) t → R (.error e) t) : (p >>= f).Ensures s I R := by
  obtain ⟨hpassed, hend⟩ := hp
  rcases hrun : p s with ⟨passed, middle, result⟩
  rw [hrun] at hpassed hend
  cases result with
  | error e =>
    rw [Ensures, run_bind_error hrun]
    exact ⟨hpassed, herror e middle hend⟩
  | ok a =>
    rw [Ensures, run_bind_ok hrun]
    obtain ⟨hpassed', hend'⟩ := hok a middle hend
    refine ⟨fun t ht => ?_, hend'⟩
    rcases List.mem_append.mp ht with h | h
    · exact hpassed t h
    · exact hpassed' t h

/-- What follows a call that succeeds. -/
theorem call_ok_bind {g : σ → Except ε (α × σ)} {a : α} {t : σ} (h : g s = .ok (a, t)) (hI : I t)
    (hf : (f a).Ensures t I R) : (Prog.call g >>= f).Ensures s I R := by
  refine bind (Q := fun r t' => r = .ok a ∧ t' = t) (call_ok h hI ⟨rfl, rfl⟩) ?_ ?_
  · rintro _ _ ⟨⟨rfl⟩, rfl⟩
    exact hf
  · rintro e _ ⟨heq, _⟩
    cases heq

theorem read_bind {g : σ → Except ε α} (hok : ∀ a, g s = .ok a → (f a).Ensures s I R)
    (herror : ∀ e, g s = .error e → R (.error e) s) : (Prog.read g >>= f).Ensures s I R := by
  refine bind (Q := fun r t => r = g s ∧ t = s) (.read ⟨rfl, rfl⟩) ?_ ?_
  · rintro a _ ⟨hg, rfl⟩
    exact hok a hg.symm
  · rintro e _ ⟨hg, rfl⟩
    exact herror e hg.symm

/-- What follows a condition that raises unless it holds. -/
theorem guard_bind {condition : Prop} [Decidable condition] {e : ε} {g : Unit → Prog σ ε β}
    (hok : condition → (g ()).Ensures s I R) (herror : ¬ condition → R (.error e) s) :
    ((if condition then Pure.pure () else MonadExceptOf.throw e : Prog σ ε Unit) >>= g).Ensures s I R := by
  by_cases h : condition
  · rw [if_pos h]
    exact hok h
  · rw [if_neg h]
    exact .throw (herror h)

theorem tryCatch {handler : ε → Prog σ ε α} (hp : p.Ensures s I Q) (hok : ∀ a t, Q (.ok a) t → Q' (.ok a) t)
    (herror : ∀ e t, Q (.error e) t → (handler e).Ensures t I Q') : (tryCatch p handler).Ensures s I Q' := by
  obtain ⟨hpassed, hend⟩ := hp
  rcases hrun : p s with ⟨passed, middle, result⟩
  rw [hrun] at hpassed hend
  cases result with
  | ok a =>
    rw [Ensures, run_try_ok hrun]
    exact ⟨hpassed, hok a middle hend⟩
  | error e =>
    rw [Ensures, run_try_error hrun]
    obtain ⟨hpassed', hend'⟩ := herror e middle hend
    refine ⟨fun t ht => ?_, hend'⟩
    rcases List.mem_append.mp ht with h | h
    · exact hpassed t h
    · exact hpassed' t h

theorem zoom {lens : Lens σ τ} {q : Prog τ ε α}
    (h : q.Ensures (lens.get s) (fun t => I (lens.put s t)) fun r t => Q r (lens.put s t)) : (zoom lens q).Ensures s I Q := by
  obtain ⟨hpassed, hend⟩ := h
  rw [Ensures, run_zoom]
  refine ⟨fun t ht => ?_, hend⟩
  obtain ⟨t', ht', rfl⟩ := List.mem_map.mp ht
  exact hpassed t' ht'

/-- A loop over items, with what it has collected. -/
theorem foldlM_state {failed : σ → Prop} {J : List β → α → σ → Prop} {g : α → β → Prog σ ε α}
    (hstep : ∀ item rest a s, J (item :: rest) a s → (g a item).Ensures s I (ends (J rest) failed))
    {items : List β} {a : α} (h : J items a s) : (items.foldlM g a).Ensures s I (ends (J []) failed) := by
  induction items generalizing a s with
  | nil => exact .pure h
  | cons item rest ih => exact .bind (hstep item rest a s h) (fun a t ht => ih ht) fun _ _ ht => ht

/-- What is left to do shrinks with every item. -/
theorem foldlM {failed : σ → Prop} {J : List β → σ → Prop} {g : α → β → Prog σ ε α}
    (hstep : ∀ item rest a s, J (item :: rest) s → (g a item).Ensures s I (ends (fun _ => J rest) failed))
    {items : List β} (a : α) (h : J items s) : (items.foldlM g a).Ensures s I (ends (fun _ => J []) failed) :=
  foldlM_state (J := fun items _ => J items) (fun item rest a s => hstep item rest a s) h

theorem forM {failed : σ → Prop} {J : List β → σ → Prop} {g : β → Prog σ ε PUnit}
    (hstep : ∀ item rest s, J (item :: rest) s → (g item).Ensures s I (ends (fun _ => J rest) failed))
    {items : List β} (h : J items s) : (items.forM g).Ensures s I (ends (fun _ => J []) failed) := by
  induction items generalizing s with
  | nil => exact .pure h
  | cons item rest ih => exact .bind (hstep item rest s h) (fun _ t ht => ih ht) fun _ _ ht => ht

/-- The two ends of a program. -/
theorem cases {ok : α → σ → Prop} {failed : σ → Prop} (h : p.Ensures s I (ends ok failed)) :
    (∃ a, p.Completes s a (p s).final ∧ ok a (p s).final) ∨ ∃ e, p.Raises s e (p s).final ∧ failed (p s).final := by
  have hend := h.2
  cases hresult : (p s).result with
  | ok a =>
    rw [hresult] at hend
    exact .inl ⟨a, completes_final hresult, hend⟩
  | error e =>
    rw [hresult] at hend
    exact .inr ⟨e, ⟨(p s).passed, by rw [← hresult]⟩, hend⟩

/-- What holds wherever a program completes. -/
theorem of_completes {ok : α → σ → Prop} (h : ∀ a t, p.Completes s a t → ok a t) :
    p.Ensures s (fun _ => True) (ends ok fun _ => True) := by
  refine ⟨fun _ _ => trivial, ?_⟩
  cases hresult : (p s).result with
  | error e => trivial
  | ok a => exact h a _ (completes_final hresult)

theorem and (h : p.Ensures s I Q) (h' : p.Ensures s I' Q') :
    p.Ensures s (fun t => I t ∧ I' t) fun r t => Q r t ∧ Q' r t :=
  ⟨fun t ht => ⟨h.1 t ht, h'.1 t ht⟩, h.2, h'.2⟩

theorem mono (h : p.Ensures s I Q) (hI : ∀ t, I t → I' t) (hQ : ∀ r t, Q r t → Q' r t) : p.Ensures s I' Q' :=
  ⟨fun t ht => hI t (h.1 t ht), hQ _ _ h.2⟩

theorem passes {t : σ} (h : p.Ensures s I Q) (ht : p.Passes s t) : I t := h.1 t ht

theorem completes {a : α} {t : σ} (h : p.Ensures s I Q) (ht : p.Completes s a t) : Q (.ok a) t := by
  obtain ⟨passed, hrun⟩ := ht
  have hend := h.2
  rwa [hrun] at hend

end Ensures

namespace Returns

variable {a : α} {b : β}

theorem pure : (Pure.pure a : Prog σ ε α).Returns s a := rfl

theorem read {g : σ → Except ε α} (h : g s = .ok a) : (read g).Returns s a := congrArg (Run.mk [] s) h

/-- What follows a program that only returns runs in the same state. -/
theorem bind_eq (hp : p.Returns s a) : (p >>= f) s = f a s := run_bind_ok hp

theorem bind (hp : p.Returns s a) (hf : (f a).Returns s b) : (p >>= f).Returns s b := hp.bind_eq.trans hf

theorem try_ok {handler : ε → Prog σ ε α} (hp : p.Returns s a) : (tryCatch p handler).Returns s a :=
  run_try_ok hp

theorem try_error {handler : ε → Prog σ ε α} {e : ε} (hp : p.Fails s e) (h : (handler e).Returns s a) :
    (tryCatch p handler).Returns s a := (run_try_error hp).trans h

theorem zoom {lens : Lens σ τ} {q : Prog τ ε α} (h : q.Returns (lens.get s) a) : (zoom lens q).Returns s a := by
  rw [Returns] at h ⊢
  rw [run_zoom, h, List.map_nil, lens.put_get]

theorem completes {a' : α} {s' : σ} (h : p.Returns s a) (h' : p.Completes s a' s') : a = a' ∧ s = s' := by
  obtain ⟨passed, h'⟩ := h'
  rw [Returns] at h
  rw [h] at h'
  cases h'
  exact ⟨rfl, rfl⟩

theorem completes_bind (hp : p.Returns s a) {s' : σ} (h : (p >>= f).Completes s b s') : (f a).Completes s b s' := by
  rwa [Completes, hp.bind_eq] at h

theorem ensures (h : p.Returns s a) (hQ : Q (.ok a) s) : p.Ensures s I Q := by
  rw [Ensures, h]
  exact ⟨fun _ ht => (nomatch ht), hQ⟩

theorem ensures_bind (hp : p.Returns s a) (hf : (f a).Ensures s I R) : (p >>= f).Ensures s I R := by
  rw [Ensures, hp.bind_eq]
  exact hf

end Returns

namespace Fails

variable {e : ε}

theorem read {g : σ → Except ε α} (h : g s = .error e) : (Prog.read g).Fails s e := congrArg (Run.mk [] s) h

theorem call {g : σ → Except ε (α × σ)} (h : g s = .error e) : (Prog.call g).Fails s e := run_call_error h

theorem bind (hp : p.Fails s e) : (p >>= f).Fails s e := run_bind_error hp

theorem throw : (throw e : Prog σ ε α).Fails s e := rfl

theorem try_error {handler : ε → Prog σ ε α} {e' : ε} (hp : p.Fails s e) (h : (handler e).Fails s e') :
    (tryCatch p handler).Fails s e' := (run_try_error hp).trans h

theorem not_completes {a : α} {s' : σ} (hp : p.Fails s e) : ¬ p.Completes s a s' := by
  rintro ⟨passed, h⟩
  rw [Fails] at hp
  rw [hp] at h
  cases h

end Fails

namespace Alike

variable {s' : σ} {P : α → Prop} {P' : β → Prop}

theorem pure {a : α} (h : P a) : (Pure.pure a : Prog σ ε α).Alike s s' P :=
  ⟨.ok a, rfl, rfl, fun _ heq => Except.ok.inj heq ▸ h⟩

theorem throw (e : ε) : (throw e : Prog σ ε α).Alike s s' P := ⟨.error e, rfl, rfl, fun _ heq => by cases heq⟩

theorem read {g : σ → Except ε α} (h : g s' = g s) (hP : ∀ a, g s = .ok a → P a) : (Prog.read g).Alike s s' P :=
  ⟨g s, rfl, congrArg (Run.mk [] s') h, hP⟩

theorem bind (hp : p.Alike s s' P) (hf : ∀ a, P a → (f a).Alike s s' P') : (p >>= f).Alike s s' P' := by
  obtain ⟨result, hs, hs', hP⟩ := hp
  cases result with
  | error e => exact ⟨.error e, run_bind_error hs, run_bind_error hs', fun _ heq => by cases heq⟩
  | ok a =>
    obtain ⟨result, hfs, hfs', hP'⟩ := hf a (hP a rfl)
    exact ⟨result, (run_bind_ok hs).trans hfs, (run_bind_ok hs').trans hfs', hP'⟩

theorem ite {c : Prop} [Decidable c] {q : Prog σ ε α} (hp : p.Alike s s' P) (hq : q.Alike s s' P) :
    (if c then p else q).Alike s s' P := by
  split
  · exact hp
  · exact hq

theorem tryCatch {handler : ε → Prog σ ε α} (hp : p.Alike s s' P) (hhandler : ∀ e, (handler e).Alike s s' P) :
    (tryCatch p handler).Alike s s' P := by
  obtain ⟨result, hs, hs', hP⟩ := hp
  cases result with
  | ok a => exact ⟨.ok a, run_try_ok hs, run_try_ok hs', hP⟩
  | error e =>
    obtain ⟨result, hhs, hhs', hP'⟩ := hhandler e
    exact ⟨result, (run_try_error hs).trans hhs, (run_try_error hs').trans hhs', hP'⟩

theorem returns_iff {a : α} (h : p.Alike s s' P) : p.Returns s' a ↔ p.Returns s a := by
  obtain ⟨result, hs, hs', _⟩ := h
  simp only [Returns, hs, hs', Run.mk.injEq, true_and]

/-- What a program that only reads ends with. -/
theorem ensures (h : p.Alike s s' P) (hok : ∀ a, p.Returns s a → P a → Q (.ok a) s')
    (herror : ∀ e, (∀ a, ¬ p.Returns s a) → Q (.error e) s') : p.Ensures s' I Q := by
  obtain ⟨result, hs, hs', hP⟩ := h
  rw [Ensures, hs']
  refine ⟨fun _ ht => (nomatch ht), ?_⟩
  cases result with
  | ok a => exact hok a hs (hP a rfl)
  | error e =>
    refine herror e fun a ha => ?_
    rw [Returns, hs] at ha
    cases ha

end Alike

namespace Reads

theorem pure (a : α) : (Pure.pure a : Prog σ ε α).Reads := fun _ => ⟨rfl, rfl⟩

theorem throw (e : ε) : (throw e : Prog σ ε α).Reads := fun _ => ⟨rfl, rfl⟩

theorem read (g : σ → Except ε α) : (Prog.read g).Reads := fun _ => ⟨rfl, rfl⟩

theorem run_eq (hp : p.Reads) (s : σ) : p s = ⟨[], s, (p s).result⟩ := by
  rw [← (hp s).1]
  exact congrArg (fun final => Run.mk _ final _) (hp s).2

theorem bind (hp : p.Reads) (hf : ∀ a, (f a).Reads) : (p >>= f).Reads := by
  intro s
  have hrun := hp.run_eq s
  cases hresult : (p s).result with
  | error e =>
    rw [hresult] at hrun
    rw [run_bind_error hrun]
    exact ⟨rfl, rfl⟩
  | ok a =>
    rw [hresult] at hrun
    rw [run_bind_ok hrun]
    exact hf a s

theorem tryCatch {handler : ε → Prog σ ε α} (hp : p.Reads) (hhandler : ∀ e, (handler e).Reads) :
    (tryCatch p handler).Reads := by
  intro s
  have hrun := hp.run_eq s
  cases hresult : (p s).result with
  | ok a =>
    rw [hresult] at hrun
    rw [run_try_ok hrun]
    exact ⟨rfl, rfl⟩
  | error e =>
    rw [hresult] at hrun
    rw [run_try_error hrun]
    exact hhandler e s

theorem ite {c : Prop} [Decidable c] {q : Prog σ ε α} (hp : p.Reads) (hq : q.Reads) : (if c then p else q).Reads := by
  split
  · exact hp
  · exact hq

theorem forM {items : List β} {g : β → Prog σ ε PUnit} (h : ∀ item, (g item).Reads) : (items.forM g).Reads := by
  induction items with
  | nil => exact .pure _
  | cons item rest ih => exact .bind (h item) fun _ => ih

theorem foldlM {items : List β} {g : α → β → Prog σ ε α} (h : ∀ a item, (g a item).Reads) (a : α) :
    (items.foldlM g a).Reads := by
  induction items generalizing a with
  | nil => exact .pure _
  | cons item rest ih => exact .bind (h a item) fun a => ih a

theorem zoom {lens : Lens σ τ} {q : Prog τ ε α} (h : q.Reads) : (Prog.zoom lens q).Reads := by
  intro s
  rw [run_zoom, (h _).1, (h _).2, lens.put_get]
  exact ⟨rfl, rfl⟩

theorem keeps (hp : p.Reads) : Keeps I p := fun s hs => by
  rw [Ensures, (hp s).1, (hp s).2]
  exact ⟨fun _ ht => (nomatch ht), hs⟩

/-- What a program that only looks completes with, it completes with in the state it looked at. -/
theorem final (hp : p.Reads) {a : α} {s' : σ} (h : p.Completes s a s') : s' = s := by
  obtain ⟨passed, h⟩ := h
  rw [← (hp s).2, h]

/-- What follows a program that only looks goes on from where it looked. -/
theorem completes_bind (hp : p.Reads) {b : β} {s' : σ} (h : (p >>= f).Completes s b s') :
    ∃ a, p.Completes s a s ∧ (f a).Completes s b s' := by
  obtain ⟨a, middle, ha, hb⟩ := completes_bind_iff.mp h
  obtain rfl := hp.final ha
  exact ⟨a, ha, hb⟩

theorem ensures (hp : p.Reads) (hok : ∀ a, p.Completes s a s → Q (.ok a) s) (herror : ∀ e, Q (.error e) s) :
    p.Ensures s I Q := by
  have hrun := hp.run_eq s
  rw [Ensures, (hp s).1, (hp s).2]
  refine ⟨fun _ ht => (nomatch ht), ?_⟩
  cases hresult : (p s).result with
  | error e => exact herror e
  | ok a =>
    rw [hresult] at hrun
    exact hok a ⟨[], hrun⟩

/-- What follows a program that only looks. -/
theorem ensures_bind (hp : p.Reads) (hok : ∀ a, p.Completes s a s → (f a).Ensures s I R) (herror : ∀ e, R (.error e) s) :
    (p >>= f).Ensures s I R := by
  refine Ensures.bind (Q := fun r t => t = s ∧ ∀ a, r = .ok a → p.Completes s a s) (hp.ensures ?_ ?_) ?_ ?_
  · exact fun a ha => ⟨rfl, fun _ heq => Except.ok.inj heq ▸ ha⟩
  · exact fun e => ⟨rfl, fun _ heq => nomatch heq⟩
  · rintro a _ ⟨rfl, ha⟩
    exact hok a (ha a rfl)
  · rintro e _ ⟨rfl, _⟩
    exact herror e

end Reads

namespace Keeps

theorem pure (a : α) : Keeps I (Pure.pure a : Prog σ ε α) := fun _ hs => .pure hs

theorem throw (e : ε) : Keeps I (throw e : Prog σ ε α) := fun _ hs => .throw hs

theorem read (g : σ → Except ε α) : Keeps I (Prog.read g) := fun _ hs => .read hs

theorem bind (hp : Keeps I p) (hf : ∀ a, Keeps I (f a)) : Keeps I (p >>= f) := fun s hs =>
  (hp s hs).bind (fun a t ht => hf a t ht) fun _ _ ht => ht

theorem tryCatch {handler : ε → Prog σ ε α} (hp : Keeps I p) (hhandler : ∀ e, Keeps I (handler e)) :
    Keeps I (tryCatch p handler) := fun s hs =>
  (hp s hs).tryCatch (fun _ _ ht => ht) fun e t ht => hhandler e t ht

theorem and (h : Keeps I p) (h' : Keeps I' p) : Keeps (fun s => I s ∧ I' s) p := fun s hs => (h s hs.1).and (h' s hs.2)

theorem call {g : σ → Except ε (α × σ)} (h : ∀ s a t, I s → g s = .ok (a, t) → I t) : Keeps I (Prog.call g) :=
  fun s hs => .call (fun a t hg => ⟨h s a t hs hg, h s a t hs hg⟩) fun _ _ => hs

theorem ite {c : Prop} [Decidable c] {q : Prog σ ε α} (hp : Keeps I p) (hq : Keeps I q) :
    Keeps I (if c then p else q) := by
  split
  · exact hp
  · exact hq

theorem forM {items : List β} {g : β → Prog σ ε PUnit} (h : ∀ item ∈ items, Keeps I (g item)) :
    Keeps I (items.forM g) := by
  induction items with
  | nil => exact .pure _
  | cons item rest ih =>
    exact .bind (h item List.mem_cons_self) fun _ => ih fun other hother => h other (List.mem_cons_of_mem _ hother)

theorem foldlM {items : List β} {g : α → β → Prog σ ε α} (h : ∀ a item, Keeps I (g a item)) (a : α) :
    Keeps I (items.foldlM g a) := by
  induction items generalizing a with
  | nil => exact .pure _
  | cons item rest ih => exact .bind (h a item) fun a => ih a

/-- What the rest of the state says, a program over a part of the state keeps. -/
theorem zoom {lens : Lens σ τ} {q : Prog τ ε α} (h : ∀ s t, I s → I (lens.put s t)) :
    Keeps I (Prog.zoom lens q) := fun s hs =>
  .zoom ⟨fun t _ => h s t hs, h s _ hs⟩

end Keeps

end

end Prog

end crash
