import Atoms.Fs.Topology.Keys

open atoms.errors atoms.effects atoms.paths atoms.spec atoms.recovery atoms.compiler checked dict

namespace atoms.fs

variable [UnicodeData] {declared : List RelPath} {keys : Dict Prefix DirectoryKey}

/-- The nodes that a prefix can have, with ids below `next`. -/
inductive NodeFor (declared : List RelPath) (next : Nat) : Prefix → TopologyNode → Prop
  | root : NodeFor declared next ROOT_PREFIX .ProjectRoot
  | declared {lead : Prefix} (hne : lead ≠ ROOT_PREFIX) (h : joined lead ∈ declared) :
    NodeFor declared next lead (.PersistentNode (joined lead))
  | undeclared {lead : Prefix} {id : Nat} (hne : lead ≠ ROOT_PREFIX) (h : joined lead ∉ declared) (hid : id < next) :
    NodeFor declared next lead (.TopologyDirectory id)

omit [UnicodeData] in
theorem NodeFor.mono {next next' : Nat} {lead : Prefix} {node : TopologyNode} (h : NodeFor declared next lead node)
    (hle : next ≤ next') : NodeFor declared next' lead node := by
  cases h with
  | root => exact .root
  | declared hne h => exact .declared hne h
  | undeclared hne h hid => exact .undeclared hne h (Nat.lt_of_lt_of_le hid hle)

omit [UnicodeData] in
theorem node_at_eq_ok_iff {nodes : Dict DirectoryKey TopologyNode} {lead : Prefix} {node : TopologyNode} :
    node_at keys nodes lead = .ok node ↔ ∃ key, keys.get lead = some key ∧ nodes.get key = some node := by
  unfold node_at
  rw [bind_eq_ok_iff]
  simp only [subscript_eq_ok_iff]

/-- The prefix of a key that has no node yet gets one. -/
theorem assign_node_eq_ok {state state' : Dict DirectoryKey TopologyNode × Nat} {lead : Prefix}
    (h : assign_node declared keys state lead = .ok state')
    (hfresh : ∀ key, keys.get lead = some key → state.1.get key = none) :
    ∃ key node, keys.get lead = some key ∧ state'.1 = state.1.put key node ∧ state.2 ≤ state'.2 ∧
      NodeFor declared state'.2 lead node ∧ ∀ id : Nat, node = .TopologyDirectory id → id = state.2 := by
  unfold assign_node at h
  obtain ⟨key, hkey, h⟩ := bind_eq_ok_iff.mp h
  rw [subscript_eq_ok_iff] at hkey
  have hnone := hfresh key hkey
  split at h
  · rename_i hroot
    rw [pure_eq_ok_iff] at h
    subst h
    subst hroot
    exact ⟨key, _, hkey, rfl, Nat.le_refl _, .root, fun id hid => by cases hid⟩
  · rename_i hne
    split at h
    · rename_i hdeclared
      rw [hnone] at h
      rw [pure_eq_ok_iff] at h
      subst h
      exact ⟨key, _, hkey, rfl, Nat.le_refl _, .declared hne hdeclared, fun id hid => by cases hid⟩
    · rename_i hundeclared
      rw [hnone] at h
      simp only [Option.isSome_none, Bool.false_eq_true, if_false] at h
      rw [pure_eq_ok_iff] at h
      subst h
      refine ⟨key, _, hkey, rfl, Nat.le_succ _, .undeclared hne hundeclared (Nat.lt_succ_self _), fun id hid => ?_⟩
      have hid := TopologyNode.TopologyDirectory.inj hid
      omega

/-- Each prefix of `leads` has a node, the numbered ones have numbers of their own, and no other key has a node. -/
structure Assigned (declared : List RelPath) (keys : Dict Prefix DirectoryKey) (leads : List Prefix)
    (state : Dict DirectoryKey TopologyNode × Nat) : Prop where
  node : ∀ lead ∈ leads, ∃ node, node_at keys state.1 lead = .ok node ∧ NodeFor declared state.2 lead node
  numbered : ∀ left ∈ leads, ∀ right ∈ leads, ∀ id : Nat, node_at keys state.1 left = .ok (.TopologyDirectory id) →
    node_at keys state.1 right = .ok (.TopologyDirectory id) → left = right
  source : ∀ key node, state.1.get key = some node → ∃ lead ∈ leads, keys.get lead = some key

theorem Assigned.step {leads : List Prefix} {state state' : Dict DirectoryKey TopologyNode × Nat} {lead : Prefix}
    (hassigned : Assigned declared keys leads state)
    (hinjective : ∀ left right key, keys.get left = some key → keys.get right = some key → left = right)
    (hnew : lead ∉ leads) (h : assign_node declared keys state lead = .ok state') :
    Assigned declared keys (leads ++ [lead]) state' := by
  have hfresh : ∀ key, keys.get lead = some key → state.1.get key = none := by
    intro key hkey
    by_contra hsome
    obtain ⟨node, hnode⟩ := Option.ne_none_iff_exists'.mp hsome
    obtain ⟨other, hother, hkey'⟩ := hassigned.source key node hnode
    exact hnew (hinjective lead other key hkey hkey' ▸ hother)
  obtain ⟨key, node, hkey, hput, hle, hfor, hnumber⟩ := assign_node_eq_ok h hfresh
  have hsame : ∀ other ∈ leads, ∀ found,
      node_at keys state'.1 other = .ok found ↔ node_at keys state.1 other = .ok found := by
    intro other hother found
    have hne : ∀ key', keys.get other = some key' → key' ≠ key := by
      rintro key' hkey' rfl
      exact hnew (hinjective lead other key' hkey hkey' ▸ hother)
    rw [node_at_eq_ok_iff, node_at_eq_ok_iff, hput]
    refine exists_congr fun key' => and_congr_right fun hkey' => ?_
    rw [Dict.get_put, if_neg (hne key' hkey')]
  have hat : node_at keys state'.1 lead = .ok node :=
    node_at_eq_ok_iff.mpr ⟨key, hkey, by rw [hput, Dict.get_put, if_pos rfl]⟩
  -- an old number is below the next one, and the new number is the next one
  have hold : ∀ other ∈ leads, ∀ id : Nat, node_at keys state.1 other = .ok (.TopologyDirectory id) → id < state.2 := by
    intro other hother id hid
    obtain ⟨found, hfound, hfor'⟩ := hassigned.node other hother
    cases hfound.symm.trans hid
    cases hfor' with
    | undeclared _ _ hlt => exact hlt
  refine ⟨fun other hother => ?_, fun left hleft right hright id hl hr => ?_, fun key' found hfound => ?_⟩
  · obtain hother | hother := List.mem_append.mp hother
    · obtain ⟨found, hfound, hfor'⟩ := hassigned.node other hother
      exact ⟨found, (hsame other hother found).mpr hfound, hfor'.mono hle⟩
    · obtain rfl := List.mem_singleton.mp hother
      exact ⟨node, hat, hfor⟩
  · rw [List.mem_append, List.mem_singleton] at hleft hright
    obtain hleft | rfl := hleft <;> obtain hright | rfl := hright
    · exact hassigned.numbered left hleft right hright id ((hsame _ hleft _).mp hl) ((hsame _ hright _).mp hr)
    · have hlt := hold left hleft id ((hsame _ hleft _).mp hl)
      have heq := hnumber id (Except.ok.inj (hat.symm.trans hr))
      omega
    · have hlt := hold right hright id ((hsame _ hright _).mp hr)
      have heq := hnumber id (Except.ok.inj (hat.symm.trans hl))
      omega
    · rfl
  · rw [hput, Dict.get_put] at hfound
    split at hfound
    · rename_i heq
      exact ⟨lead, by simp, heq ▸ hkey⟩
    · obtain ⟨other, hother, hkey'⟩ := hassigned.source key' found hfound
      exact ⟨other, List.mem_append_left _ hother, hkey'⟩

theorem Assigned.run {leads order : List Prefix} {state state' : Dict DirectoryKey TopologyNode × Nat}
    (hassigned : Assigned declared keys leads state)
    (hinjective : ∀ left right key, keys.get left = some key → keys.get right = some key → left = right)
    (hnodup : (leads ++ order).Nodup) (h : order.foldlM (assign_node declared keys) state = .ok state') :
    Assigned declared keys (leads ++ order) state' := by
  induction order generalizing leads state with
  | nil =>
    rw [List.foldlM_nil, pure_eq_ok_iff] at h
    rw [List.append_nil]
    exact h ▸ hassigned
  | cons lead rest ih =>
    obtain ⟨middle, hmiddle, hrest⟩ := foldlM_cons_eq_ok_iff.mp h
    have hnew : lead ∉ leads := fun hmem =>
      (List.nodup_append.mp hnodup).2.2 lead hmem lead List.mem_cons_self rfl
    rw [List.append_cons] at hnodup ⊢
    exact ih (hassigned.step hinjective hnew hmiddle) hnodup hrest

/-- The nodes of the directories at `leads`: each directory has one of its own. -/
structure Naming (declared : List RelPath) (leads : List Prefix) (node : Prefix → TopologyNode) : Prop where
  root : ROOT_PREFIX ∈ leads → node ROOT_PREFIX = .ProjectRoot
  declared_node : ∀ lead ∈ leads, lead ≠ ROOT_PREFIX → joined lead ∈ declared → node lead = .PersistentNode (joined lead)
  undeclared_node : ∀ lead ∈ leads, lead ≠ ROOT_PREFIX → joined lead ∉ declared →
    ∃ id : Nat, node lead = .TopologyDirectory id
  injective : ∀ left ∈ leads, ∀ right ∈ leads, node left = node right → left = right

/-- What `_nodes_by_key` returns, where keys tell the prefixes apart. -/
theorem nodes_by_key_eq_ok {nodes : Dict DirectoryKey TopologyNode}
    (hinjective : ∀ left right key, keys.get left = some key → keys.get right = some key → left = right)
    (hnodup : keys.keys.Nodup) (hplain : ∀ lead ∈ keys.keys, Plain lead) (h : nodes_by_key declared keys = .ok nodes) :
    ∃ node : Prefix → TopologyNode, Naming declared keys.keys node ∧
      ∀ lead found, node_at keys nodes lead = .ok found ↔ lead ∈ keys.keys ∧ node lead = found := by
  unfold nodes_by_key at h
  obtain ⟨⟨nodes, next⟩, hrun, h⟩ := bind_eq_ok_iff.mp h
  rw [pure_eq_ok_iff] at h
  subst h
  have hstart : Assigned declared keys [] (([], 0) : Dict DirectoryKey TopologyNode × Nat) :=
    ⟨fun _ hlead => absurd hlead (by simp), fun _ hleft => absurd hleft (by simp), fun _ _ hget => by cases hget⟩
  have hassigned := hstart.run hinjective (by simpa using nodup_in_depth_order hnodup) hrun
  rw [List.nil_append] at hassigned
  have hnode : ∀ lead ∈ keys.keys, ∃ node, node_at keys nodes lead = .ok node ∧ NodeFor declared next lead node :=
    fun lead hlead => hassigned.node lead (mem_in_depth_order.mpr hlead)
  have hat : ∀ lead found, node_at keys nodes lead = .ok found ↔
      lead ∈ keys.keys ∧ (node_at keys nodes lead).toOption.getD .WorkRoot = found := by
    intro lead found
    constructor
    · intro hfound
      obtain ⟨key, hkey, _⟩ := node_at_eq_ok_iff.mp hfound
      refine ⟨(Dict.get_isSome_iff _ _).mp (by rw [hkey]; rfl), ?_⟩
      rw [hfound]
      rfl
    · rintro ⟨hlead, rfl⟩
      obtain ⟨node, hnode, _⟩ := hnode lead hlead
      rw [hnode]
      rfl
  refine ⟨fun lead => (node_at keys nodes lead).toOption.getD .WorkRoot, ?_, hat⟩
  have hfor : ∀ lead ∈ keys.keys, NodeFor declared next lead ((node_at keys nodes lead).toOption.getD .WorkRoot) := by
    intro lead hlead
    obtain ⟨node, hfound, hfor⟩ := hnode lead hlead
    rw [hfound]
    exact hfor
  refine ⟨fun hroot => ?_, fun lead hlead hne hdeclared => ?_, fun lead hlead hne hundeclared => ?_,
    fun left hleft right hright heq => ?_⟩
  · generalize hfound : (node_at keys nodes ROOT_PREFIX).toOption.getD .WorkRoot = found
    have hroot := hfound ▸ hfor _ hroot
    cases hroot with
    | root => rfl
    | declared hne _ => exact absurd rfl hne
    | undeclared hne _ _ => exact absurd rfl hne
  · generalize hfound : (node_at keys nodes lead).toOption.getD .WorkRoot = found
    have hfor := hfound ▸ hfor _ hlead
    cases hfor with
    | root => exact absurd rfl hne
    | declared _ _ => rfl
    | undeclared _ h _ => exact absurd hdeclared h
  · generalize hfound : (node_at keys nodes lead).toOption.getD .WorkRoot = found
    have hfor := hfound ▸ hfor _ hlead
    cases hfor with
    | root => exact absurd rfl hne
    | declared _ h => exact absurd h hundeclared
    | undeclared _ _ _ => exact ⟨_, rfl⟩
  · have hl := hfor left hleft
    have hr := hfor right hright
    have hl' := (hat left _).mpr ⟨hleft, rfl⟩
    have hr' := (hat right _).mpr ⟨hright, rfl⟩
    rw [← heq] at hr hr'
    generalize hfound : (node_at keys nodes left).toOption.getD .WorkRoot = found at *
    cases hl with
    | root =>
      cases hr with
      | root => rfl
    | declared hne _ =>
      generalize hpersistent : TopologyNode.PersistentNode (joined left) = node at hr
      cases hr with
      | root => cases hpersistent
      | undeclared _ _ _ => cases hpersistent
      | declared hne' _ =>
        have htext := TopologyNode.PersistentNode.inj hpersistent
        rw [← components_joined (hplain left hleft) hne, htext, components_joined (hplain right hright) hne']
    | undeclared _ _ _ =>
      exact hassigned.numbered left (mem_in_depth_order.mpr hleft) right (mem_in_depth_order.mpr hright) _ hl' hr'

end atoms.fs
