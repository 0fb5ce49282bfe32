import Mathlib.Data.List.Dedup
import Mathlib.Data.Set.Basic

namespace writeback

/-- A store whose writes stay pending until they are flushed. Both lists hold the oldest write first. -/
structure Cache (K V : Type) where
  flushed : List (K × V)
  pending : List (K × V)

variable {K V : Type} [DecidableEq K]

/-- What a key holds once a list of writes has been made over `start`. -/
def replay (k : K) (start : V) (writes : List (K × V)) : V :=
  writes.foldl (fun value write => if write.1 = k then write.2 else value) start

@[simp] theorem replay_nil (k : K) (start : V) : replay k start [] = start := rfl

theorem replay_append (k : K) (start : V) (xs ys : List (K × V)) :
    replay k start (xs ++ ys) = replay k (replay k start xs) ys := by
  unfold replay
  rw [List.foldl_append]

theorem replay_singleton (k : K) (start : V) (write : K × V) :
    replay k start [write] = if write.1 = k then write.2 else start := rfl

/-- Writes to other keys leave a key alone. -/
theorem replay_of_ne {k : K} {writes : List (K × V)} (h : ∀ write ∈ writes, write.1 ≠ k) (start : V) :
    replay k start writes = start := by
  induction writes generalizing start with
  | nil => rfl
  | cons write rest ih =>
    have hhead : write.1 ≠ k := h write List.mem_cons_self
    have hrest : ∀ other ∈ rest, other.1 ≠ k := fun other hother => h other (List.mem_cons_of_mem _ hother)
    have hstep : replay k start (write :: rest) = replay k (if write.1 = k then write.2 else start) rest := rfl
    rw [hstep, if_neg hhead, ih hrest]

/-- A key holds what the writes that a key-wise choice keeps give it, if the choice keeps its writes. -/
theorem replay_filter {p : K → Bool} {k : K} (hk : p k = true) (start : V) (writes : List (K × V)) :
    replay k start (writes.filter fun write => p write.1) = replay k start writes := by
  induction writes generalizing start with
  | nil => rfl
  | cons write rest ih =>
    have hstep : replay k start (write :: rest) = replay k (if write.1 = k then write.2 else start) rest := rfl
    rw [List.filter_cons, hstep]
    by_cases hp : p write.1 = true
    · rw [if_pos hp]
      exact ih _
    · have hne : write.1 ≠ k := fun heq => hp (heq ▸ hk)
      rw [if_neg hp, if_neg hne, ih]

namespace Cache

/-- The writes that the store has seen, oldest first. -/
def writes (c : Cache K V) : List (K × V) := c.flushed ++ c.pending

/-- What a key holds, whether it is flushed or not. -/
def get [Inhabited V] (c : Cache K V) (k : K) : V := replay k default c.writes

def set (c : Cache K V) (k : K) (value : V) : Cache K V := { c with pending := c.pending ++ [(k, value)] }

/-- Flush the writes to the keys that `p` picks. -/
def flush (c : Cache K V) (p : K → Bool) : Cache K V where
  flushed := c.flushed ++ c.pending.filter fun write => p write.1
  pending := c.pending.filter fun write => !p write.1

/-- No write to the key is pending. -/
def Settled (c : Cache K V) (k : K) : Prop := ∀ write ∈ c.pending, write.1 ≠ k

/-- The key has the value, and no write to it is pending. -/
def Holds [Inhabited V] (c : Cache K V) (k : K) (value : V) : Prop := c.Settled k ∧ c.get k = value

/-- Every write that the store has seen is one of these. -/
def Ever (c : Cache K V) (P : K → V → Prop) : Prop := ∀ write ∈ c.writes, P write.1 write.2

/-- A power cut keeps what is flushed and any part of what is pending. -/
def Cut (c c' : Cache K V) : Prop := ∃ kept, List.Sublist kept c.pending ∧ c' = ⟨c.flushed ++ kept, []⟩

/-- Since `c`, only writes to `touched` keys were added to what is pending. -/
def Leaves (touched : Set K) (c c' : Cache K V) : Prop :=
  ∃ kept new, List.Sublist kept c.pending ∧ c'.pending = kept ++ new ∧ ∀ write ∈ new, write.1 ∈ touched

/-- The keys that have been written. -/
def keys (c : Cache K V) : List K := (c.writes.map Prod.fst).dedup

omit [DecidableEq K] in
theorem mem_pending_set {c : Cache K V} {k : K} {value : V} {write : K × V} :
    write ∈ (c.set k value).pending ↔ write ∈ c.pending ∨ write = (k, value) := by
  rw [set, List.mem_append, List.mem_singleton]

variable [Inhabited V] (c : Cache K V)

theorem get_set (k k' : K) (value : V) : (c.set k value).get k' = if k = k' then value else c.get k' := by
  unfold get set writes
  rw [← List.append_assoc, replay_append, replay_singleton]

@[simp] theorem get_set_self (k : K) (value : V) : (c.set k value).get k = value := by simp [get_set]

theorem get_set_of_ne {k k' : K} (h : k ≠ k') (value : V) : (c.set k value).get k' = c.get k' := by
  rw [get_set, if_neg h]

/-- A key that was never written has what every key has at first. -/
theorem mem_keys_of_get_ne {c : Cache K V} {k : K} (h : c.get k ≠ default) : k ∈ c.keys := by
  rw [keys, List.mem_dedup, List.mem_map]
  by_contra hnone
  exact h (replay_of_ne (fun write hwrite heq => hnone ⟨write, hwrite, heq⟩) default)

@[simp] theorem get_flush (p : K → Bool) (k : K) : (c.flush p).get k = c.get k := by
  unfold get writes flush
  rw [List.append_assoc, replay_append k default c.flushed, replay_append k default c.flushed, replay_append]
  by_cases hk : p k = true
  · rw [replay_filter hk]
    apply replay_of_ne
    intro write hwrite heq
    have hpick := (List.mem_filter.mp hwrite).2
    simp [heq, hk] at hpick
  · have hnone : ∀ write ∈ c.pending.filter (fun write => p write.1), write.1 ≠ k := by
      intro write hwrite heq
      exact hk (heq ▸ (List.mem_filter.mp hwrite).2)
    have hkeep : (!p k) = true := by simpa using hk
    rw [replay_of_ne hnone]
    exact replay_filter (p := fun key => !p key) hkeep _ _

omit [DecidableEq K] [Inhabited V] in
/-- A settled key stays settled under writes to other keys. -/
theorem Settled.set {c : Cache K V} {k k' : K} (h : c.Settled k) (hne : k' ≠ k) (value : V) :
    (c.set k' value).Settled k := by
  intro write hwrite
  rcases List.mem_append.mp hwrite with hold | hnew
  · exact h write hold
  · rw [List.mem_singleton.mp hnew]
    exact hne

omit [DecidableEq K] [Inhabited V] in
theorem Settled.flush {c : Cache K V} {k : K} (h : c.Settled k) (p : K → Bool) : (c.flush p).Settled k :=
  fun write hwrite => h write (List.mem_filter.mp hwrite).1

omit [DecidableEq K] [Inhabited V] in
theorem settled_flush {p : K → Bool} {k : K} (hk : p k = true) : (c.flush p).Settled k := by
  intro write hwrite heq
  have hpick := (List.mem_filter.mp hwrite).2
  simp [heq, hk] at hpick

/-- A settled key holds after any power cut what it held before. -/
theorem Settled.get_cut {c c' : Cache K V} {k : K} (h : c.Settled k) (hcut : c.Cut c') : c'.get k = c.get k := by
  obtain ⟨kept, hkept, rfl⟩ := hcut
  have hnone : ∀ write ∈ kept, write.1 ≠ k := fun write hwrite => h write (hkept.mem hwrite)
  unfold get writes
  rw [List.append_nil, replay_append, replay_append, replay_of_ne hnone, replay_of_ne h]

namespace Holds

variable {c : Cache K V} {k k' : K} {value : V}

theorem set (h : c.Holds k value) (hne : k' ≠ k) (other : V) : (c.set k' other).Holds k value :=
  ⟨h.1.set hne other, (get_set_of_ne c hne other).trans h.2⟩

theorem flush (h : c.Holds k value) (p : K → Bool) : (c.flush p).Holds k value :=
  ⟨h.1.flush p, (get_flush c p k).trans h.2⟩

/-- A flush that picks the key settles what the key has. -/
theorem of_flush {p : K → Bool} (hk : p k = true) (hget : c.get k = value) : (c.flush p).Holds k value :=
  ⟨c.settled_flush hk, (get_flush c p k).trans hget⟩

omit [DecidableEq K] [Inhabited V] in
theorem settled_cut {c' : Cache K V} (hcut : c.Cut c') (k : K) : c'.Settled k := by
  obtain ⟨kept, _, rfl⟩ := hcut
  exact fun write hwrite => (nomatch hwrite)

theorem cut {c' : Cache K V} (h : c.Holds k value) (hcut : c.Cut c') : c'.Holds k value :=
  ⟨settled_cut hcut k, (h.1.get_cut hcut).trans h.2⟩

end Holds

namespace Ever

variable {c : Cache K V} {P P' : K → V → Prop}

omit [DecidableEq K] [Inhabited V] in
theorem mono (h : c.Ever P) (hP : ∀ k value, P k value → P' k value) : c.Ever P' := fun write hwrite =>
  hP _ _ (h write hwrite)

omit [DecidableEq K] [Inhabited V] in
theorem set (h : c.Ever P) {k : K} {value : V} (hnew : P k value) : (c.set k value).Ever P := by
  intro write hwrite
  rw [writes, Cache.set, ← List.append_assoc] at hwrite
  rcases List.mem_append.mp hwrite with hold | hlast
  · exact h write hold
  · obtain rfl := List.mem_singleton.mp hlast
    exact hnew

omit [DecidableEq K] [Inhabited V] in
theorem flush (h : c.Ever P) (p : K → Bool) : (c.flush p).Ever P := by
  intro write hwrite
  refine h write ?_
  rw [writes, Cache.flush, List.append_assoc] at hwrite
  rcases List.mem_append.mp hwrite with hflushed | hwrite
  · exact List.mem_append_left _ hflushed
  · refine List.mem_append_right _ ?_
    rcases List.mem_append.mp hwrite with hpicked | hleft
    · exact (List.mem_filter.mp hpicked).1
    · exact (List.mem_filter.mp hleft).1

omit [DecidableEq K] [Inhabited V] in
/-- A power cut makes no write of its own. -/
theorem cut {c' : Cache K V} (h : c.Ever P) (hcut : c.Cut c') : c'.Ever P := by
  obtain ⟨kept, hkept, rfl⟩ := hcut
  intro write hwrite
  rw [writes, List.append_nil] at hwrite
  refine h write ?_
  rcases List.mem_append.mp hwrite with hflushed | hpending
  · exact List.mem_append_left _ hflushed
  · exact List.mem_append_right _ (hkept.mem hpending)

/-- What a key has was written to it, unless it has what every key has at first. -/
theorem get (h : c.Ever P) (k : K) : c.get k = default ∨ P k (c.get k) := by
  have hreplay : ∀ (writes : List (K × V)) (start : V), (∀ write ∈ writes, P write.1 write.2) →
      replay k start writes = start ∨ P k (replay k start writes) := by
    intro writes
    induction writes with
    | nil => exact fun start _ => .inl rfl
    | cons write rest ih =>
      intro start hwrites
      have hstep : replay k start (write :: rest) = replay k (if write.1 = k then write.2 else start) rest := rfl
      have hrest := ih (if write.1 = k then write.2 else start) fun other hother =>
        hwrites other (List.mem_cons_of_mem _ hother)
      rw [hstep]
      by_cases hkey : write.1 = k
      · rw [if_pos hkey] at hrest ⊢
        refine .inr (hrest.elim (fun heq => ?_) id)
        rw [heq, ← hkey]
        exact hwrites write List.mem_cons_self
      · rw [if_neg hkey] at hrest ⊢
        exact hrest
  exact hreplay c.writes default h

end Ever

omit [DecidableEq K] [Inhabited V]

namespace Leaves

variable {touched more : Set K} {c c' c'' : Cache K V}

theorem refl (touched : Set K) (c : Cache K V) : c.Leaves touched c :=
  ⟨c.pending, [], List.Sublist.refl _, (List.append_nil _).symm, by simp⟩

theorem mono (h : c.Leaves touched c') (hsub : touched ⊆ more) : c.Leaves more c' := by
  obtain ⟨kept, new, hkept, hpending, hnew⟩ := h
  exact ⟨kept, new, hkept, hpending, fun write hwrite => hsub (hnew write hwrite)⟩

theorem trans (h : c.Leaves touched c') (h' : c'.Leaves touched c'') : c.Leaves touched c'' := by
  obtain ⟨kept, new, hkept, hpending, hnew⟩ := h
  obtain ⟨kept', new', hkept', hpending', hnew'⟩ := h'
  rw [hpending, List.sublist_append_iff] at hkept'
  obtain ⟨first, second, rfl, hfirst, hsecond⟩ := hkept'
  refine ⟨first, second ++ new', hfirst.trans hkept, by rw [hpending', List.append_assoc], ?_⟩
  intro write hwrite
  rcases List.mem_append.mp hwrite with hold | hlast
  · exact hnew write (hsecond.mem hold)
  · exact hnew' write hlast

theorem set (h : c.Leaves touched c') {k : K} (hk : k ∈ touched) (value : V) : c.Leaves touched (c'.set k value) := by
  apply h.trans
  refine ⟨c'.pending, [(k, value)], List.Sublist.refl _, rfl, ?_⟩
  intro write hwrite
  rw [List.mem_singleton.mp hwrite]
  exact hk

/-- A flush leaves nothing pending on the keys that it picks. -/
theorem flush {p : K → Bool} (h : c.Leaves touched c') (hrest : ∀ k ∈ touched, p k = false → k ∈ more) :
    c.Leaves more (c'.flush p) := by
  obtain ⟨kept, new, hkept, hpending, hnew⟩ := h
  refine ⟨kept.filter fun write => !p write.1, new.filter fun write => !p write.1,
    List.filter_sublist.trans hkept, ?_, ?_⟩
  · simp only [Cache.flush, hpending, List.filter_append]
  · intro write hwrite
    obtain ⟨hmem, hpick⟩ := List.mem_filter.mp hwrite
    exact hrest _ (hnew write hmem) (by simpa using hpick)

/-- Where no key was touched, what is pending was pending before. -/
theorem sublist (h : c.Leaves ∅ c') : c'.pending.Sublist c.pending := by
  obtain ⟨kept, new, hkept, hpending, hnew⟩ := h
  have hnone : new = [] := List.eq_nil_iff_forall_not_mem.mpr fun write hwrite => hnew write hwrite
  rw [hpending, hnone, List.append_nil]
  exact hkept

theorem settled (h : c.Leaves touched c') {k : K} (hk : k ∉ touched) (hsettled : c.Settled k) : c'.Settled k := by
  obtain ⟨kept, new, hkept, hpending, hnew⟩ := h
  intro write hwrite heq
  rw [hpending, List.mem_append] at hwrite
  rcases hwrite with hold | hlast
  · exact hsettled write (hkept.mem hold) heq
  · exact hk (heq ▸ hnew write hlast)

end Leaves

end Cache

end writeback
