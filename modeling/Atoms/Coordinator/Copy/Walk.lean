import Atoms.Coordinator.Lifecycle.Walk
import Atoms.Core.Paths.Components
import Atoms.Fs.Tree

open atoms.errors atoms.fingerprint atoms.paths atoms.spec atoms.fs atoms.store atoms.chain checked

namespace atoms.coordinator

/-! What a walk of a tree lists. -/

/-- Each name is one component of a path. -/
def Spelled (names : List String) : Prop := ∀ name ∈ names, name ≠ "" ∧ '/' ∉ name.toList

theorem Spelled.plain {names : List String} (h : Spelled names) : Plain names := fun name hname => (h name hname).2

theorem Spelled.concat {names : List String} (h : Spelled names) {name : String} (hname : name ≠ "" ∧ '/' ∉ name.toList) :
    Spelled (names ++ [name]) := by
  intro other hother
  rcases List.mem_append.mp hother with hold | hlast
  · exact h other hold
  · exact List.mem_singleton.mp hlast ▸ hname

theorem Spelled.append {names others : List String} (h : Spelled names) (hothers : Spelled others) : Spelled (names ++ others) :=
  fun name hname => (List.mem_append.mp hname).elim (h name) (hothers name)

theorem joined_ne_empty {names : List String} (h : Spelled names) (hne : names ≠ []) : joined names ≠ "" := by
  intro heq
  have hparts := components_joined h.plain hne
  have hempty : components "" = [""] := rfl
  rw [heq, hempty] at hparts
  exact (h "" (hparts ▸ List.mem_singleton_self _)).1 rfl

theorem join_path_joined {above : List String} (h : Spelled above) (name : String) :
    join_path (joined above) name = joined (above ++ [name]) := by
  unfold join_path
  by_cases hne : above = []
  · subst hne
    have hnil : joined [] = "" := rfl
    rw [hnil, if_pos rfl]
    rfl
  · rw [if_neg (joined_ne_empty h hne), joined, joined,
      String.intercalate_append_of_ne_nil hne (List.cons_ne_nil name [])]
    rfl

theorem components_spelled {names : List String} (h : Spelled names) (hne : names ≠ []) : components (joined names) = names :=
  components_joined h.plain hne

section

variable [Sha256] {d : Disk} {parent_fd : Inode}

/-- The state of what a name leads to. -/
def entry_state (d : Disk) (entry : fs.Entry) : PathState :=
  match entry.kind with
  | .directory => .DirectoryState { mode := d.modes.get entry.inode }
  | .symlink target => .SymlinkState { target, mode := 0o777 }
  | .file => .FileState (file_state d entry.inode)

/-- The state of what names lead to. -/
def state_at (d : Disk) (root : Inode) (names : List String) : Option PathState :=
  (d.entry_at root names).map (entry_state d)

theorem state_of_entry_eq_ok_iff {name : String} {found : PathState × Option Inode} :
    state_of_entry d parent_fd name = .ok found ↔
      ∃ entry, d.lookup parent_fd name = some entry ∧ found = (entry_state d entry, d.child parent_fd name) := by
  unfold state_of_entry Disk.child
  split
  · rename_i hnone
    rw [hnone]
    simp
  · rename_i inode hentry
    rw [hentry]
    simp only [pure_eq_ok_iff, Option.some.injEq, exists_eq_left']
    exact eq_comm
  · rename_i target inode hentry
    rw [hentry]
    simp only [pure_eq_ok_iff, Option.some.injEq, exists_eq_left']
    exact eq_comm
  · rename_i inode hentry
    rw [hentry]
    simp only [pure_eq_ok_iff, Option.some.injEq, exists_eq_left']
    exact eq_comm

/-- A name is walked to its own state, and to what is found below it. -/
theorem walk_name_eq_ok {walk : Inode → String → Except Raised (List (String × PathState))} {lead name : String}
    {found : List (String × PathState)} (h : walk_name walk d parent_fd lead name = .ok found) :
    ∃ entry below, d.lookup parent_fd name = some entry ∧ found = (join_path lead name, entry_state d entry) :: below ∧
      (d.child parent_fd name = none → below = []) ∧
      ∀ child_fd, d.child parent_fd name = some child_fd → walk child_fd (join_path lead name) = .ok below := by
  obtain ⟨⟨state, directory⟩, hstate, h⟩ := bind_eq_ok_iff.mp h
  obtain ⟨entry, hentry, heq⟩ := state_of_entry_eq_ok_iff.mp hstate
  cases heq
  obtain ⟨below, hbelow, h⟩ := bind_eq_ok_iff.mp h
  refine ⟨entry, below, hentry, (pure_eq_ok_iff.mp h).symm, fun hnone => ?_, fun child_fd hchild => ?_⟩
  · rw [hnone] at hbelow
    exact (pure_eq_ok_iff.mp hbelow).symm
  · rw [hchild] at hbelow
    exact hbelow

theorem state_at_singleton (d : Disk) (root : Inode) (name : String) :
    state_at d root [name] = (d.lookup root name).map (entry_state d) := rfl

theorem state_at_cons (d : Disk) (root : Inode) (name : String) {names : List String} (hne : names ≠ []) :
    state_at d root (name :: names) = (d.child root name).bind fun inode => state_at d inode names := by
  rw [state_at, Disk.entry_at_cons _ _ _ hne]
  cases d.child root name <;> rfl

theorem lookup_of_state_at {name : String} {rest : List String} {state : PathState}
    (h : state_at d parent_fd (name :: rest) = some state) : ∃ entry, d.lookup parent_fd name = some entry := by
  cases rest with
  | nil =>
    rw [state_at_singleton, Option.map_eq_some_iff] at h
    exact ⟨_, h.choose_spec.1⟩
  | cons next rest =>
    rw [state_at_cons _ _ _ (List.cons_ne_nil _ _), Option.bind_eq_some_iff] at h
    exact ⟨_, Disk.child_eq_some_iff.mp h.choose_spec.1⟩

/-- Names that lead somewhere are components of a path. -/
theorem spelled_of_state_at
    (hspelled : ∀ parent name entry, d.lookup parent name = some entry → name ≠ "" ∧ '/' ∉ name.toList)
    {names : List String} {state : PathState} (h : state_at d parent_fd names = some state) : Spelled names := by
  induction names generalizing parent_fd with
  | nil => exact fun name hname => absurd hname List.not_mem_nil
  | cons name rest ih =>
    obtain ⟨entry, hentry⟩ := lookup_of_state_at h
    refine List.forall_mem_cons.mpr ⟨hspelled _ _ _ hentry, ?_⟩
    cases rest with
    | nil => exact fun other hother => absurd hother List.not_mem_nil
    | cons next rest =>
      rw [state_at_cons _ _ _ (List.cons_ne_nil _ _), Option.bind_eq_some_iff] at h
      obtain ⟨child_fd, _, h⟩ := h
      exact ih h

/-- A walk lists the names of the directory that it starts in and all that is below them, each under its path and with
its state. -/
theorem mem_walk_tree {depth : Nat} {above skipped : List String} {found : List (String × PathState)}
    (hspelled : ∀ parent name entry, d.lookup parent name = some entry → name ≠ "" ∧ '/' ∉ name.toList)
    (habove : Spelled above) (h : walk_tree d depth parent_fd (joined above) skipped = .ok found) (path : String)
    (state : PathState) : (path, state) ∈ found ↔
      ∃ name rest, name ∉ skipped ∧ path = joined (above ++ name :: rest) ∧ state_at d parent_fd (name :: rest) = some state := by
  induction depth generalizing parent_fd above skipped found path state with
  | zero => cases h
  | succ depth ih =>
    rw [walk_tree] at h
    obtain ⟨parts, hparts, h⟩ := bind_eq_ok_iff.mp h
    obtain rfl := pure_eq_ok_iff.mp h
    have hnames : ∀ name, name ∈ (sorted_by id (d.listdir parent_fd)).filter (fun name => name ∉ skipped) ↔
        name ∉ skipped ∧ (d.lookup parent_fd name).isSome = true := by
      intro name
      rw [List.mem_filter, (sorted_by_perm id _).mem_iff, Disk.mem_listdir, decide_eq_true_eq]
      exact and_comm
    have hmem : (path, state) ∈ parts.flatten ↔ ∃ name part, name ∉ skipped ∧ (d.lookup parent_fd name).isSome = true ∧
        walk_name (fun child_fd path => walk_tree d depth child_fd path []) d parent_fd (joined above) name = .ok part ∧
        (path, state) ∈ part := by
      rw [List.mem_flatten]
      constructor
      · rintro ⟨part, hpart, hitem⟩
        obtain ⟨name, hname, hwalk⟩ := exists_of_mapM_eq_ok hparts hpart
        obtain ⟨hnot, hsome⟩ := (hnames name).mp hname
        exact ⟨name, part, hnot, hsome, hwalk, hitem⟩
      · rintro ⟨name, part, hnot, hsome, hwalk, hitem⟩
        obtain ⟨part', hpart', hwalk'⟩ := mem_of_mapM_eq_ok hparts ((hnames name).mpr ⟨hnot, hsome⟩)
        rw [hwalk] at hwalk'
        exact ⟨part, Except.ok.inj hwalk' ▸ hpart', hitem⟩
    rw [hmem]
    constructor
    · rintro ⟨name, part, hnot, _, hwalk, hitem⟩
      obtain ⟨entry, below, hentry, rfl, hnone, hbelow⟩ := walk_name_eq_ok hwalk
      rw [join_path_joined habove] at hitem hbelow
      rcases List.mem_cons.mp hitem with heq | hitem
      · obtain ⟨rfl, rfl⟩ := Prod.mk.inj heq
        refine ⟨name, [], hnot, rfl, ?_⟩
        rw [state_at_singleton, hentry, Option.map_some]
      · cases hchild : d.child parent_fd name with
        | none =>
          rw [hnone hchild] at hitem
          cases hitem
        | some child_fd =>
          have hname := habove.concat (hspelled _ _ _ hentry)
          obtain ⟨next, rest, _, rfl, hstate⟩ := (ih hname (hbelow _ hchild) _ _).mp hitem
          refine ⟨name, next :: rest, hnot, by rw [List.append_assoc, List.singleton_append], ?_⟩
          rw [state_at_cons _ _ _ (List.cons_ne_nil _ _), hchild]
          exact hstate
    · rintro ⟨name, rest, hnot, rfl, hstate⟩
      obtain ⟨entry, hentry⟩ := lookup_of_state_at hstate
      have hsome : (d.lookup parent_fd name).isSome = true := hentry ▸ rfl
      obtain ⟨part, hpart, hwalk⟩ := mem_of_mapM_eq_ok hparts ((hnames name).mpr ⟨hnot, hsome⟩)
      refine ⟨name, part, hnot, hsome, hwalk, ?_⟩
      obtain ⟨entry', below, hentry', rfl, _, hbelow⟩ := walk_name_eq_ok hwalk
      rw [join_path_joined habove] at hbelow ⊢
      cases rest with
      | nil =>
        rw [state_at_singleton, hentry', Option.map_some, Option.some.injEq] at hstate
        rw [hstate]
        exact List.mem_cons_self
      | cons next rest =>
        rw [state_at_cons _ _ _ (List.cons_ne_nil _ _), Option.bind_eq_some_iff] at hstate
        obtain ⟨child_fd, hchild, hstate⟩ := hstate
        have hname := habove.concat (hspelled _ _ _ hentry)
        refine List.mem_cons_of_mem _ ((ih hname (hbelow _ hchild) _ _).mpr ⟨next, rest, List.not_mem_nil, ?_, hstate⟩)
        rw [List.append_assoc, List.singleton_append]

omit [Sha256] in
/-- A loop that collects lists, each of them of items of its own, collects no item twice. -/
theorem flatten_nodup {α β : Type} {f : α → Except Raised (List β)} {xs : List α} {parts : List (List β)} (key : β → α)
    (h : xs.mapM f = .ok parts) (hxs : xs.Nodup)
    (hparts : ∀ x part, f x = .ok part → part.Nodup ∧ ∀ y ∈ part, key y = x) : parts.flatten.Nodup := by
  rw [mapM_eq_ok_iff] at h
  induction h with
  | nil => exact List.nodup_nil
  | @cons x part xs parts hhead hrest ih =>
    obtain ⟨hnot, hxs⟩ := List.nodup_cons.mp hxs
    obtain ⟨hpart, hkey⟩ := hparts x part hhead
    rw [List.flatten_cons, List.nodup_append]
    refine ⟨hpart, ih hxs, fun y hy y' hy' heq => hnot ?_⟩
    obtain ⟨part', hpart', hmem⟩ := List.mem_flatten.mp hy'
    obtain ⟨x', hx', hfx'⟩ := exists_of_mapM_eq_ok (mapM_eq_ok_iff.mpr hrest) hpart'
    have hkeys : x = x' := by rw [← hkey y hy, heq, (hparts x' part' hfx').2 y' hmem]
    exact hkeys ▸ hx'

/-- A walk lists no path twice. -/
theorem walk_tree_nodup {depth : Nat} {above skipped : List String} {found : List (String × PathState)}
    (hspelled : ∀ parent name entry, d.lookup parent name = some entry → name ≠ "" ∧ '/' ∉ name.toList)
    (habove : Spelled above) (h : walk_tree d depth parent_fd (joined above) skipped = .ok found) :
    (found.map Prod.fst).Nodup := by
  suffices hnodup : found.Nodup by
    refine List.Nodup.map_on (fun item hitem item' hitem' heq => ?_) hnodup
    obtain ⟨name, rest, _, hpath, hstate⟩ := (mem_walk_tree hspelled habove h item.1 item.2).mp hitem
    obtain ⟨name', rest', _, hpath', hstate'⟩ := (mem_walk_tree hspelled habove h item'.1 item'.2).mp hitem'
    have hnames : above ++ name :: rest = above ++ name' :: rest' := by
      rw [← components_spelled (habove.append (spelled_of_state_at hspelled hstate)) (by simp), ← hpath, heq, hpath',
        components_spelled (habove.append (spelled_of_state_at hspelled hstate')) (by simp)]
    rw [List.append_cancel_left hnames, hstate', Option.some.injEq] at hstate
    exact Prod.ext heq hstate.symm
  induction depth generalizing parent_fd above skipped found with
  | zero => cases h
  | succ depth ih =>
    rw [walk_tree] at h
    obtain ⟨parts, hparts, h⟩ := bind_eq_ok_iff.mp h
    obtain rfl := pure_eq_ok_iff.mp h
    have hnames : ((sorted_by id (d.listdir parent_fd)).filter fun name => name ∉ skipped).Nodup :=
      ((sorted_by_perm id _).nodup_iff.mpr (d.listdir_nodup _)).filter _
    refine flatten_nodup (fun item => (components item.1).getD above.length "") hparts hnames fun name part hwalk => ?_
    obtain ⟨entry, below, hentry, rfl, hnone, hbelow⟩ := walk_name_eq_ok hwalk
    have hname := habove.concat (hspelled _ _ _ hentry)
    rw [join_path_joined habove] at hbelow ⊢
    have hpaths : ∀ item ∈ below, ∃ next rest, components item.1 = above ++ name :: next :: rest := by
      intro item hitem
      cases hchild : d.child parent_fd name with
      | none =>
        rw [hnone hchild] at hitem
        cases hitem
      | some child_fd =>
        obtain ⟨next, rest, _, hpath, hstate⟩ := (mem_walk_tree hspelled hname (hbelow _ hchild) item.1 item.2).mp hitem
        refine ⟨next, rest, ?_⟩
        rw [hpath, components_spelled (hname.append (spelled_of_state_at hspelled hstate)) (by simp), List.append_assoc,
          List.singleton_append]
    have hself : components (joined (above ++ [name])) = above ++ [name] := components_spelled hname (by simp)
    refine ⟨List.nodup_cons.mpr ⟨fun hmem => ?_, ?_⟩, fun item hitem => ?_⟩
    · obtain ⟨next, rest, hpath⟩ := hpaths _ hmem
      rw [hself] at hpath
      cases List.append_cancel_left hpath
    · cases hchild : d.child parent_fd name with
      | none =>
        rw [hnone hchild]
        exact List.nodup_nil
      | some child_fd => exact ih hname (hbelow _ hchild)
    · rcases List.mem_cons.mp hitem with rfl | hitem
      · rw [hself]
        simp
      · obtain ⟨next, rest, hpath⟩ := hpaths _ hitem
        rw [hpath]
        simp

end

end atoms.coordinator
