import Atoms.Core.Compiler.Facts
import Atoms.Core.Paths.Components
import Mathlib.Data.List.Induction

open atoms.errors atoms.fingerprint atoms.effects atoms.paths atoms.spec checked keyed

namespace atoms.compiler

namespace PathTrieNode

/-- The surface entry of the path that ends at `parts`. -/
def surface_at : PathTrieNode → List String → Option (RelPath × PathState)
  | .node _ surface _, [] => surface
  | .node children _ _, component :: rest => (children.lookup component).bind fun child => child.surface_at rest

/-- Every component names one child. -/
inductive Distinct : PathTrieNode → Prop
  | node {children : List (String × PathTrieNode)} {surface : Option (RelPath × PathState)}
      {creator : Option (RelPath × Nat)} (hnodup : (children.map Prod.fst).Nodup)
      (h : ∀ item ∈ children, Distinct item.2) : Distinct (.node children surface creator)

theorem lookup_put_child (component name : String) (child : PathTrieNode) (children : List (String × PathTrieNode)) :
    (put_child component child children).lookup name = if name = component then some child else children.lookup name := by
  induction children with
  | nil =>
    rw [put_child, List.lookup_cons]
    by_cases h : name = component
    · simp [h]
    · simp [h, beq_eq_false_iff_ne.mpr h]
  | cons head rest ih =>
    obtain ⟨first, other⟩ := head
    rw [put_child]
    by_cases hfirst : first = component
    · subst hfirst
      rw [if_pos rfl, List.lookup_cons, List.lookup_cons]
      by_cases h : name = first
      · simp [h]
      · simp [h, beq_eq_false_iff_ne.mpr h]
    · rw [if_neg hfirst, List.lookup_cons, List.lookup_cons, ih]
      by_cases h : name = first
      · subst h
        simp [hfirst]
      · simp [beq_eq_false_iff_ne.mpr h]

theorem mem_put_child {component : String} {child : PathTrieNode} {children : List (String × PathTrieNode)}
    {item : String × PathTrieNode} (h : item ∈ put_child component child children) :
    item = (component, child) ∨ item ∈ children := by
  induction children with
  | nil => exact .inl (List.mem_singleton.mp h)
  | cons head rest ih =>
    obtain ⟨first, other⟩ := head
    rw [put_child] at h
    split at h
    · rename_i hfirst
      subst hfirst
      exact (List.mem_cons.mp h).imp_right (List.mem_cons_of_mem _)
    · obtain rfl | h := List.mem_cons.mp h
      · exact .inr List.mem_cons_self
      · exact (ih h).imp_right (List.mem_cons_of_mem _)

theorem nodup_put_child (component : String) (child : PathTrieNode) {children : List (String × PathTrieNode)}
    (h : (children.map Prod.fst).Nodup) : ((put_child component child children).map Prod.fst).Nodup := by
  induction children with
  | nil => simp [put_child]
  | cons head rest ih =>
    obtain ⟨first, other⟩ := head
    obtain ⟨hnot, hrest⟩ := List.nodup_cons.mp h
    rw [put_child]
    split
    · exact h
    · rename_i hfirst
      refine List.nodup_cons.mpr ⟨fun hmem => ?_, ih hrest⟩
      obtain ⟨item, hitem, hname⟩ := List.mem_map.mp hmem
      obtain rfl | hitem := mem_put_child hitem
      · exact hfirst hname.symm
      · exact hnot (hname ▸ List.mem_map_of_mem hitem)

theorem distinct_empty : Distinct empty := .node List.nodup_nil fun _ hitem => absurd hitem List.not_mem_nil

theorem surface_at_empty (parts : List String) : empty.surface_at parts = none := by
  cases parts <;> rfl

theorem Distinct.child {children : List (String × PathTrieNode)} (h : ∀ item ∈ children, Distinct item.2)
    (component : String) : Distinct ((children.lookup component).getD empty) := by
  cases hchild : children.lookup component with
  | none => exact distinct_empty
  | some child =>
    obtain ⟨before, after, rfl, _⟩ := List.lookup_eq_some_iff.mp hchild
    exact h (component, child) (by simp)

theorem Distinct.insert_path {root : PathTrieNode} (h : Distinct root) (entry : RelPath × PathState)
    (parts : List String) : Distinct (root.insert_path (.with_surface entry) parts) := by
  induction parts generalizing root with
  | nil =>
    obtain ⟨hnodup, hchildren⟩ := h
    exact .node hnodup hchildren
  | cons component rest ih =>
    obtain ⟨hnodup, hchildren⟩ := h
    refine .node (nodup_put_child _ _ hnodup) fun item hitem => ?_
    obtain rfl | hitem := mem_put_child hitem
    · exact ih (Distinct.child hchildren component)
    · exact hchildren item hitem

theorem surface_at_insert_path (root : PathTrieNode) (entry : RelPath × PathState) (parts other : List String) :
    (root.insert_path (.with_surface entry) parts).surface_at other =
      if other = parts then some entry else root.surface_at other := by
  induction parts generalizing root other with
  | nil =>
    obtain ⟨children, surface, creator⟩ := root
    cases other <;> rfl
  | cons component rest ih =>
    obtain ⟨children, surface, creator⟩ := root
    cases other with
    | nil => simp [PathTrieNode.insert_path, surface_at]
    | cons name others =>
      rw [PathTrieNode.insert_path, surface_at, lookup_put_child, surface_at]
      by_cases hname : name = component
      · subst hname
        rw [if_pos rfl, Option.bind_some, ih]
        cases children.lookup name with
        | none => simp [surface_at_empty]
        | some child => simp
      · simp [hname]

/-- Nothing at or below the node is declared to be there. -/
def Bare (root : PathTrieNode) : Prop := ∀ parts entry, root.surface_at parts = some entry → entry.2 = ABSENT

/-- Nothing is declared to be below what is not a directory. -/
def TreeShaped (root : PathTrieNode) : Prop :=
  ∀ above entry, root.surface_at above = some entry → (∀ directory, entry.2 ≠ .DirectoryState directory) →
    ∀ rest other, rest ≠ [] → root.surface_at (above ++ rest) = some other → other.2 = ABSENT

end PathTrieNode

section

variable [UnicodeData]

open PathTrieNode

theorem require_surface_children_eq_ok_iff {label : String} {constraint : Option (RelPath × PathState)}
    {children : List (String × PathTrieNode)} : require_surface_children label constraint children = .ok () ↔
      ∀ item ∈ children, require_surface_tree label constraint item.2 = .ok () := by
  induction children with
  | nil => simp [require_surface_children]
  | cons head rest ih =>
    rw [require_surface_children, bind_eq_ok_iff, List.forall_mem_cons, ← ih]
    exact ⟨fun ⟨_, hrest, hhead⟩ => ⟨hhead, hrest⟩, fun ⟨hhead, hrest⟩ => ⟨(), hrest, hhead⟩⟩

/-- What the entries below a node have above them: the node's own entry, unless it is a directory or there is none. -/
def next_constraint (surface constraint : Option (RelPath × PathState)) : Option (RelPath × PathState) :=
  match surface with
  | none => constraint
  | some (path, state) => match state with
    | .DirectoryState _ => none
    | _ => some (path, state)

theorem require_surface_node_eq_ok_iff {label : String} {constraint surface : Option (RelPath × PathState)}
    {children : List (String × PathTrieNode)} {creator : Option (RelPath × Nat)} :
    require_surface_tree label constraint (.node children surface creator) = .ok () ↔
      (constraint.isSome = true → ∀ entry, surface = some entry → entry.2 = ABSENT) ∧
        ∀ item ∈ children, require_surface_tree label (next_constraint surface constraint) item.2 = .ok () := by
  rw [← require_surface_children_eq_ok_iff, require_surface_tree.eq_def]
  cases surface with
  | none => simp [next_constraint]
  | some entry =>
    obtain ⟨path, state⟩ := entry
    cases constraint with
    | none => cases state <;> simp [next_constraint]
    | some above => cases state <;> simp [next_constraint, bind_eq_ok_iff]

omit [UnicodeData] in
theorem isSome_next_constraint {surface constraint : Option (RelPath × PathState)} :
    (next_constraint surface constraint).isSome = true ↔ (surface = none ∧ constraint.isSome = true) ∨
      ∃ entry, surface = some entry ∧ ∀ directory, entry.2 ≠ .DirectoryState directory := by
  cases surface with
  | none => simp [next_constraint]
  | some entry =>
    obtain ⟨path, state⟩ := entry
    cases state <;> simp [next_constraint]

theorem require_surface_tree_eq_ok_iff {label : String} {root : PathTrieNode} (h : Distinct root)
    {constraint : Option (RelPath × PathState)} : require_surface_tree label constraint root = .ok () ↔
      (constraint.isSome = true → Bare root) ∧ TreeShaped root := by
  induction h generalizing constraint with
  | @node children surface creator hnodup _ ih =>
    have hlookup : ∀ component child, children.lookup component = some child ↔ (component, child) ∈ children :=
      fun _ _ => lookup_eq_some_iff_mem hnodup
    have hbelow : ∀ component rest entry, (PathTrieNode.node children surface creator).surface_at (component :: rest) =
        some entry ↔ ∃ child, (component, child) ∈ children ∧ child.surface_at rest = some entry := by
      intro component rest entry
      rw [surface_at, Option.bind_eq_some_iff]
      simp only [hlookup]
    rw [require_surface_node_eq_ok_iff]
    constructor
    · rintro ⟨hown, hchildren⟩
      have hbare : (next_constraint surface constraint).isSome = true → ∀ component rest entry,
          (PathTrieNode.node children surface creator).surface_at (component :: rest) = some entry → entry.2 = ABSENT := by
        intro hnext component rest entry hentry
        obtain ⟨child, hchild, hat⟩ := (hbelow component rest entry).mp hentry
        exact ((ih _ hchild).mp (hchildren _ hchild)).1 hnext rest entry hat
      refine ⟨fun hconstraint parts entry hentry => ?_, ?_⟩
      · cases parts with
        | nil => exact hown hconstraint entry hentry
        | cons component rest =>
          refine hbare (isSome_next_constraint.mpr ?_) component rest entry hentry
          cases hsurface : surface with
          | none => exact .inl ⟨rfl, hconstraint⟩
          | some declared =>
            refine .inr ⟨declared, rfl, fun directory heq => ?_⟩
            rw [hown hconstraint declared hsurface] at heq
            cases heq
      · intro above entry hentry hnot rest other hrest hother
        cases above with
        | nil =>
          obtain ⟨component, rest, rfl⟩ := List.exists_cons_of_ne_nil hrest
          exact hbare (isSome_next_constraint.mpr (.inr ⟨entry, hentry, hnot⟩)) component rest other hother
        | cons component above =>
          obtain ⟨child, hchild, hat⟩ := (hbelow component above entry).mp hentry
          obtain ⟨child', hchild', hat'⟩ := (hbelow component (above ++ rest) other).mp hother
          cases ((hlookup _ _).mpr hchild).symm.trans ((hlookup _ _).mpr hchild')
          exact ((ih _ hchild).mp (hchildren _ hchild)).2 above entry hat hnot rest other hrest hat'
    · rintro ⟨hbare, htree⟩
      refine ⟨fun hconstraint entry hentry => hbare hconstraint [] entry hentry, fun item hitem => ?_⟩
      refine (ih item hitem).mpr ⟨fun hnext rest entry hentry => ?_, ?_⟩
      · have hat := (hbelow item.1 rest entry).mpr ⟨item.2, hitem, hentry⟩
        obtain ⟨_, hconstraint⟩ | ⟨declared, hdeclared, hnot⟩ := isSome_next_constraint.mp hnext
        · exact hbare hconstraint _ entry hat
        · exact htree [] declared hdeclared hnot (item.1 :: rest) entry (List.cons_ne_nil _ _) hat
      · intro above entry hentry hnot rest other hrest hother
        exact htree (item.1 :: above) entry ((hbelow _ _ _).mpr ⟨item.2, hitem, hentry⟩) hnot rest other hrest
          ((hbelow _ _ _).mpr ⟨item.2, hitem, hother⟩)

/-- The trie of a surface. -/
def surface_trie (surface : List SurfaceEntry) : PathTrieNode :=
  surface.foldl (fun root entry => root.insert_path (.with_surface (entry.path, entry.state)) (components entry.path)) .empty

omit [UnicodeData] in
theorem surface_trie_append (surface : List SurfaceEntry) (entry : SurfaceEntry) : surface_trie (surface ++ [entry]) =
    (surface_trie surface).insert_path (.with_surface (entry.path, entry.state)) (components entry.path) := by
  simp [surface_trie]

omit [UnicodeData] in
theorem distinct_surface_trie (surface : List SurfaceEntry) : Distinct (surface_trie surface) := by
  induction surface using List.reverseRecOn with
  | nil => exact distinct_empty
  | append_singleton surface entry ih =>
    rw [surface_trie_append]
    exact ih.insert_path _ _

omit [UnicodeData] in
/-- The trie holds the entries of the surface, each at its components. -/
theorem surface_at_surface_trie {surface : List SurfaceEntry} (hnodup : (surface.map SurfaceEntry.path).Nodup)
    {parts : List String} {path : RelPath} {state : PathState} :
    (surface_trie surface).surface_at parts = some (path, state) ↔ ⟨path, state⟩ ∈ surface ∧ components path = parts := by
  induction surface using List.reverseRecOn with
  | nil => simp [surface_trie, surface_at_empty]
  | append_singleton surface entry ih =>
    rw [List.map_append, List.nodup_append] at hnodup
    obtain ⟨hnodup, _, hfresh⟩ := hnodup
    rw [surface_trie_append, surface_at_insert_path, List.mem_append, List.mem_singleton]
    split
    · rename_i hparts
      subst hparts
      constructor
      · intro h
        cases h
        exact ⟨.inr rfl, rfl⟩
      · rintro ⟨hmem | rfl, hcomponents⟩
        · exact absurd (components_injective hcomponents) (hfresh _ (List.mem_map_of_mem hmem) _ (by simp))
        · rfl
    · rename_i hparts
      rw [ih hnodup]
      constructor
      · exact fun ⟨hmem, hcomponents⟩ => ⟨.inl hmem, hcomponents⟩
      · rintro ⟨hmem | rfl, hcomponents⟩
        · exact ⟨hmem, hcomponents⟩
        · exact absurd hcomponents.symm hparts

/-- Nothing is declared to be below what is not a directory. -/
def SurfaceTree (surface : List SurfaceEntry) : Prop :=
  ∀ entry ∈ surface, ∀ above ∈ surface, Beneath entry.path above.path →
    (∀ directory, above.state ≠ .DirectoryState directory) → entry.state = ABSENT

/-- Phase 12 accepts the surfaces in which nothing is declared to be below what is not a directory. -/
theorem phase12_surface_tree_eq_ok_iff {surface : List SurfaceEntry} (hnodup : (surface.map SurfaceEntry.path).Nodup)
    {label : String} : phase12_surface_tree surface label = .ok () ↔ SurfaceTree surface := by
  have htrie : phase12_surface_tree surface label = require_surface_tree label none (surface_trie surface) := rfl
  rw [htrie, require_surface_tree_eq_ok_iff (distinct_surface_trie surface)]
  constructor
  · rintro ⟨_, htree⟩ entry hentry above habove ⟨n, hn, hcomponents⟩ hnot
    have hrest : (components entry.path).drop n ≠ [] := by
      rw [Ne, List.drop_eq_nil_iff]
      omega
    have hat := (surface_at_surface_trie hnodup).mpr ⟨habove, hcomponents⟩
    refine htree _ _ hat hnot _ (entry.path, entry.state) hrest ((surface_at_surface_trie hnodup).mpr ⟨hentry, ?_⟩)
    rw [List.take_append_drop]
  · refine fun htree => ⟨fun h => (by simp at h), ?_⟩
    rintro parts ⟨above, state⟩ habove hnot rest ⟨path, other⟩ hrest hother
    obtain ⟨hmem, rfl⟩ := (surface_at_surface_trie hnodup).mp habove
    obtain ⟨hmem', hcomponents⟩ := (surface_at_surface_trie hnodup).mp hother
    refine htree ⟨path, other⟩ hmem' ⟨above, state⟩ hmem ⟨(components above).length, ?_, ?_⟩ hnot
    · rw [hcomponents, List.length_append]
      have := List.length_pos_iff.mpr hrest
      omega
    · rw [hcomponents, List.take_left]

end

end atoms.compiler
