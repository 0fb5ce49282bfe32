import Atoms.Core.Compiler.Sequential
import Atoms.Core.Compiler.Surfaces
import Mathlib.Data.Finset.Dedup
import Mathlib.Data.Finset.Max

open atoms.errors atoms.fingerprint atoms.effects atoms.paths atoms.spec checked

namespace atoms.compiler

/-! Surfaces: the nearest declared path above another. -/

/-- Among the declared paths that lie above a path, this one is the nearest. -/
def NearestAbove (surface : List SurfaceEntry) (path : RelPath) (above : SurfaceEntry) : Prop :=
  above ∈ surface ∧ Beneath path above.path ∧
    ∀ other ∈ surface, Beneath path other.path → other.path = above.path ∨ Beneath above.path other.path

/-- The entry is declared to hold no others. -/
def HoldsNone (above : SurfaceEntry) : Prop := ∀ directory, above.state ≠ .DirectoryState directory

section

variable {surface : List SurfaceEntry} {path : RelPath}

/-- What has a declared path above it has a nearest one. -/
theorem exists_nearest_above {entry : SurfaceEntry} (hentry : entry ∈ surface) (habove : Beneath path entry.path) :
    ∃ nearest, NearestAbove surface path nearest := by
  classical
  obtain ⟨nearest, hnearest, hmax⟩ := (surface.toFinset.filter fun entry => Beneath path entry.path).exists_max_image
    (fun entry => (components entry.path).length) ⟨entry, by simp [hentry, habove]⟩
  rw [Finset.mem_filter, List.mem_toFinset] at hnearest
  refine ⟨nearest, hnearest.1, hnearest.2, fun other hother hbeneath => ?_⟩
  exact hnearest.2.comparable hbeneath (hmax other (by simp [hother, hbeneath]))

/-- A declared path beneath one that holds none, at whatever distance, gives one whose nearest declared path above holds
none: it is found on the way up. -/
theorem exists_nearest_holds_none (hnodup : (surface.map SurfaceEntry.path).Nodup) {entry above : SurfaceEntry}
    (hentry : entry ∈ surface) (hpresent : entry.state ≠ ABSENT) (habove : above ∈ surface)
    (hbeneath : Beneath entry.path above.path) (hnone : HoldsNone above) :
    ∃ entry ∈ surface, entry.state ≠ ABSENT ∧ ∃ above, NearestAbove surface entry.path above ∧ HoldsNone above := by
  induction hlength : (components entry.path).length using Nat.strong_induction_on generalizing entry with
  | h length ih =>
    obtain ⟨nearest, hnearest⟩ := exists_nearest_above habove hbeneath
    obtain ⟨hmem, hbelow, hothers⟩ := hnearest
    by_cases hholds : HoldsNone nearest
    · exact ⟨entry, hentry, hpresent, nearest, ⟨hmem, hbelow, hothers⟩, hholds⟩
    · -- the nearest is a directory, which is declared to be there, and the other lies above it in turn
      simp only [HoldsNone, not_forall, not_not] at hholds
      obtain ⟨directory, hdirectory⟩ := hholds
      have hpresent' : nearest.state ≠ ABSENT := by
        rw [hdirectory]
        exact PathState.noConfusion
      obtain heq | hbeneath' := hothers above habove hbeneath
      · have hsame := List.inj_on_of_nodup_map hnodup habove hmem heq
        exact absurd (hsame ▸ hdirectory) (hnone directory)
      · exact ih _ (hlength ▸ hbelow.length_lt) hmem hpresent' hbeneath' rfl

end

/-! Effects: the creators on the way to a path. -/

namespace PathTrieNode

/-- The creator of the path that ends at `parts`. -/
def creator_at : PathTrieNode → List String → Option (RelPath × Nat)
  | .node _ _ creator, [] => creator
  | .node children _ _, component :: rest => (children.lookup component).bind fun child => child.creator_at rest

theorem creator_at_empty (parts : List String) : empty.creator_at parts = none := by
  cases parts <;> rfl

theorem creator_at_nil (self : PathTrieNode) : self.creator_at [] = self.creator := by
  cases self
  rfl

theorem creator_at_cons (self : PathTrieNode) (component : String) (rest : List String) :
    self.creator_at (component :: rest) = (self.child component).bind fun child => child.creator_at rest := by
  cases self
  rfl

theorem creator_at_insert_path (root : PathTrieNode) (entry : RelPath × Nat) (parts other : List String) :
    (root.insert_path (.with_creator entry) parts).creator_at other =
      if other = parts then some entry else root.creator_at other := by
  induction parts generalizing root other with
  | nil =>
    obtain ⟨children, surface, creator⟩ := root
    cases other <;> rfl
  | cons component rest ih =>
    obtain ⟨children, surface, creator⟩ := root
    cases other with
    | nil => simp [PathTrieNode.insert_path, creator_at]
    | cons name others =>
      rw [PathTrieNode.insert_path, creator_at, lookup_put_child, creator_at]
      by_cases hname : name = component
      · subst hname
        rw [if_pos rfl, Option.bind_some, ih]
        cases children.lookup name with
        | none => simp [creator_at_empty]
        | some child => simp
      · simp [hname]

end PathTrieNode

section

variable [UnicodeData]

open PathTrieNode

/-- The walk along a path accepts the creators on its way that come before the effect. -/
theorem require_created_before_eq_ok_iff {effect : Effect} {index : Nat} {path : RelPath} {root : PathTrieNode}
    {parts : List String} : require_created_before effect index path root parts = .ok () ↔
      ∀ n < parts.length, ∀ entry, root.creator_at (parts.take (n + 1)) = some entry → entry.2 < index := by
  induction parts generalizing root with
  | nil => simp [require_created_before]
  | cons component rest ih =>
    rw [require_created_before]
    cases hchild : root.child component with
    | none => simp [creator_at_cons, hchild]
    | some child =>
      have hbelow : ∀ n, root.creator_at ((component :: rest).take (n + 1)) = child.creator_at (rest.take n) := by
        intro n
        rw [List.take_succ_cons, creator_at_cons, hchild, Option.bind_some]
      simp only [hbelow]
      have hall : (∀ n < (component :: rest).length, ∀ entry, child.creator_at (rest.take n) = some entry →
          entry.2 < index) ↔ (∀ entry, child.creator = some entry → entry.2 < index) ∧
            ∀ n < rest.length, ∀ entry, child.creator_at (rest.take (n + 1)) = some entry → entry.2 < index := by
        constructor
        · intro h
          refine ⟨fun entry hentry => h 0 (Nat.zero_lt_succ _) entry ?_, fun n hn => h (n + 1) (Nat.succ_lt_succ hn)⟩
          rw [List.take_zero, creator_at_nil, hentry]
        · rintro ⟨hown, hrest⟩ n hn
          cases n with
          | zero =>
            intro entry hentry
            rw [List.take_zero, creator_at_nil] at hentry
            exact hown entry hentry
          | succ n => exact hrest n (Nat.lt_of_succ_lt_succ hn)
      rw [hall, ← ih]
      cases child.creator with
      | none => simp
      | some entry =>
        obtain ⟨creator_path, creator_index⟩ := entry
        simp only [bind_eq_ok_iff, require_eq_ok_iff, Option.some.injEq, forall_eq']
        rw [exists_const]

omit [UnicodeData]

/-- What an effect adds to the trie of creators. -/
def add_creator (root : PathTrieNode) : Effect × Nat → PathTrieNode
  | (.CreateDirectory e, index) => root.insert_path (.with_creator (e.path, index)) (components e.path)
  | _ => root

/-- The trie of the directories that the effects create. -/
def creator_trie (effects : List Effect) : PathTrieNode := effects.zipIdx.foldl add_creator .empty

theorem creator_trie_append (effects : List Effect) (effect : Effect) :
    creator_trie (effects ++ [effect]) = add_creator (creator_trie effects) (effect, effects.length) := by
  simp [creator_trie, List.zipIdx_append]

theorem creator_at_add_creator (root : PathTrieNode) (effect : Effect) (index : Nat) (parts : List String) :
    ((∃ e, effect = .CreateDirectory e ∧ components e.path = parts) →
        ∃ path, (add_creator root (effect, index)).creator_at parts = some (path, index)) ∧
      (¬ (∃ e, effect = .CreateDirectory e ∧ components e.path = parts) →
        (add_creator root (effect, index)).creator_at parts = root.creator_at parts) := by
  constructor
  · rintro ⟨e, rfl, rfl⟩
    exact ⟨e.path, by rw [add_creator, creator_at_insert_path, if_pos rfl]⟩
  · intro hnot
    cases effect with
    | CreateDirectory e =>
      rw [add_creator, creator_at_insert_path, if_neg]
      exact fun heq => hnot ⟨e, rfl, heq.symm⟩
    | ReplaceFile e => rfl
    | CreateFileNoClobber e => rfl
    | DeletePath e => rfl
    | MoveNoClobber e => rfl

/-- Effect number `index` creates the directory at `parts`. -/
def CreatesAt (effects : List Effect) (index : Nat) (parts : List String) : Prop :=
  ∃ e, effects[index]? = some (.CreateDirectory e) ∧ components e.path = parts

theorem CreatesAt.append {effects : List Effect} {effect : Effect} {index : Nat} {parts : List String} :
    CreatesAt (effects ++ [effect]) index parts ↔ CreatesAt effects index parts ∨
      index = effects.length ∧ ∃ e, effect = .CreateDirectory e ∧ components e.path = parts := by
  unfold CreatesAt
  rw [List.getElem?_append]
  split
  · rename_i hlt
    have hne : index ≠ effects.length := by omega
    simp [hne]
  · rename_i hge
    rw [List.getElem?_eq_none (Nat.le_of_not_lt hge), List.getElem?_singleton]
    by_cases heq : index = effects.length
    · simp [heq]
    · have hne : index - effects.length ≠ 0 := by omega
      simp [heq, hne]

/-- The trie holds the last creator of each directory. -/
theorem creator_at_creator_trie (effects : List Effect) (parts : List String) :
    (∀ entry, (creator_trie effects).creator_at parts = some entry → CreatesAt effects entry.2 parts) ∧
      ∀ index, CreatesAt effects index parts →
        ∃ entry, (creator_trie effects).creator_at parts = some entry ∧ index ≤ entry.2 := by
  induction effects using List.reverseRecOn with
  | nil => simp [creator_trie, creator_at_empty, CreatesAt]
  | append_singleton effects effect ih =>
    obtain ⟨hfound, hlast⟩ := ih
    obtain ⟨hadded, hkept⟩ := creator_at_add_creator (creator_trie effects) effect effects.length parts
    rw [creator_trie_append]
    simp only [CreatesAt.append]
    by_cases hcreates : ∃ e, effect = .CreateDirectory e ∧ components e.path = parts
    · obtain ⟨path, hpath⟩ := hadded hcreates
      rw [hpath]
      refine ⟨fun entry hentry => ?_, fun index hindex => ⟨_, rfl, ?_⟩⟩
      · cases hentry
        exact .inr ⟨rfl, hcreates⟩
      · obtain ⟨e, he, _⟩ | ⟨rfl, _⟩ := hindex
        · exact (List.getElem?_eq_some_iff.mp he).1.le
        · exact Nat.le_refl _
    · rw [hkept hcreates]
      refine ⟨fun entry hentry => .inl (hfound entry hentry), fun index hindex => ?_⟩
      exact hlast index (hindex.resolve_right fun h => hcreates h.2)

end

/-- An effect touches a path beneath a directory that an effect of the same or a later index creates. -/
def TouchesTooEarly (effects : List Effect) : Prop :=
  ∃ (index : Nat) (effect : Effect), effects[index]? = some effect ∧ ∃ occurrence ∈ occurrences effect,
    ∃ (later : Nat) (e : CreateDirectory), index ≤ later ∧ effects[later]? = some (Effect.CreateDirectory e) ∧ Beneath occurrence.path e.path

section

variable [UnicodeData]

theorem phase13_ancestor_ordering_eq_ok_iff {effects : List Effect} :
    phase13_ancestor_ordering effects = .ok () ↔ ¬ TouchesTooEarly effects := by
  have hphase : phase13_ancestor_ordering effects = effects.zipIdx.forM fun item =>
      (occurrences item.1).forM fun occurrence => require_created_before item.1 item.2 occurrence.path
        (creator_trie effects) (components occurrence.path).dropLast := by
    unfold phase13_ancestor_ordering creator_trie
    refine congrArg (fun add => effects.zipIdx.forM fun item => (occurrences item.1).forM fun occurrence =>
      require_created_before item.1 item.2 occurrence.path (effects.zipIdx.foldl add PathTrieNode.empty)
        (components occurrence.path).dropLast) ?_
    funext root item
    obtain ⟨effect, index⟩ := item
    cases effect <;> rfl
  rw [hphase, forM_eq_ok_iff]
  simp only [forM_eq_ok_iff, require_created_before_eq_ok_iff]
  constructor
  · rintro h ⟨index, effect, heffect, occurrence, hoccurrence, later, e, hle, hcreator, n, hn, habove⟩
    have hne : components e.path ≠ [] := components_ne_nil e.path
    have hpos : n ≠ 0 := by
      rintro rfl
      exact hne (by rw [habove, List.take_zero])
    obtain ⟨entry, hentry, hlast⟩ := (creator_at_creator_trie effects (components e.path)).2 later ⟨e, hcreator, rfl⟩
    have hmem : (effect, index) ∈ effects.zipIdx := List.mem_zipIdx_iff_getElem?.mpr heffect
    have hbefore := h _ hmem occurrence hoccurrence (n - 1) (by rw [List.length_dropLast]; omega) entry (by
      rw [List.dropLast_eq_take, List.take_take, ← hentry, habove]
      congr 2
      omega)
    simp only at hbefore
    omega
  · rintro h ⟨effect, index⟩ hmem occurrence hoccurrence n hn entry hentry
    rw [List.length_dropLast] at hn
    obtain ⟨e, hcreator, hcomponents⟩ := (creator_at_creator_trie effects _).1 entry hentry
    rw [List.dropLast_eq_take, List.take_take, min_eq_left (by omega)] at hcomponents
    by_contra hnot
    refine h ⟨index, effect, List.mem_zipIdx_iff_getElem?.mp hmem, occurrence, hoccurrence, entry.2, e,
      Nat.le_of_not_lt hnot, hcreator, n + 1, by omega, hcomponents⟩

/-- The passes over the trie of the declared paths find what comparing every two paths would find: a path that is
declared to be there, whose nearest declared path above, or any, is not a directory; and an effect that touches a path
beneath a directory which the same or a later effect creates. -/
theorem trie_passes_pairwise {surface : List SurfaceEntry} (hnodup : (surface.map SurfaceEntry.path).Nodup)
    (label : String) (effects : List Effect) :
    ((∃ error, phase12_surface_tree surface label = .error error) ↔ ∃ entry ∈ surface, entry.state ≠ ABSENT ∧
        ∃ above, NearestAbove surface entry.path above ∧ HoldsNone above) ∧
      ((∃ entry ∈ surface, entry.state ≠ ABSENT ∧ ∃ above, NearestAbove surface entry.path above ∧ HoldsNone above) ↔
        ∃ entry ∈ surface, entry.state ≠ ABSENT ∧ ∃ above ∈ surface, Beneath entry.path above.path ∧ HoldsNone above) ∧
      ((∃ error, phase13_ancestor_ordering effects = .error error) ↔ TouchesTooEarly effects) := by
  have hnearest : (∃ entry ∈ surface, entry.state ≠ ABSENT ∧ ∃ above, NearestAbove surface entry.path above ∧
        HoldsNone above) ↔
      ∃ entry ∈ surface, entry.state ≠ ABSENT ∧ ∃ above ∈ surface, Beneath entry.path above.path ∧ HoldsNone above := by
    constructor
    · rintro ⟨entry, hentry, hpresent, above, ⟨habove, hbeneath, _⟩, hnone⟩
      exact ⟨entry, hentry, hpresent, above, habove, hbeneath, hnone⟩
    · rintro ⟨entry, hentry, hpresent, above, habove, hbeneath, hnone⟩
      exact exists_nearest_holds_none hnodup hentry hpresent habove hbeneath hnone
  refine ⟨?_, hnearest, ?_⟩
  · rw [hnearest, exists_error_iff, phase12_surface_tree_eq_ok_iff hnodup]
    simp only [SurfaceTree, HoldsNone]
    grind
  · rw [exists_error_iff, phase13_ancestor_ordering_eq_ok_iff, not_not]

end

section

attribute [local instance] ascii_names

/-- A file two levels below another, with a directory declared in between. -/
theorem trie_passes_nested :
    let surface : List SurfaceEntry := [⟨"a/b/c", .FileState empty_file⟩, ⟨"a", .FileState empty_file⟩,
      ⟨"a/b", .DirectoryState ⟨0o755⟩⟩]
    (surface.map SurfaceEntry.path).Nodup ∧ ((∃ error, phase12_surface_tree surface "initial_surface" = .error error) ↔
      ∃ entry ∈ surface, entry.state ≠ ABSENT ∧ ∃ above, NearestAbove surface entry.path above ∧ HoldsNone above) :=
  ⟨by decide, (trie_passes_pairwise (by decide) "initial_surface" []).1⟩

end

end atoms.compiler
