import Atoms.Fs.Topology

open atoms.errors atoms.effects atoms.paths atoms.spec atoms.recovery atoms.compiler checked dict

namespace atoms.fs

theorem mem_in_depth_order {leads : List Prefix} {lead : Prefix} : lead ∈ in_depth_order leads ↔ lead ∈ leads :=
  List.mem_insertionSort _

theorem nodup_in_depth_order {leads : List Prefix} (h : leads.Nodup) : (in_depth_order leads).Nodup :=
  (List.perm_insertionSort _ _).nodup_iff.mpr h

theorem subscript_eq_ok_iff {κ α : Type} [DecidableEq κ] {d : Dict κ α} {key : κ} {value : α} :
    subscript d key = .ok value ↔ d.get key = some value := by
  unfold subscript
  cases d.get key <;> simp

/-- The identity that was observed of the directory at `lead`. -/
def identity_at (facts : Dict Prefix DirectoryFact) (lead : Prefix) : Option FilesystemIdentity :=
  (facts.get lead).bind Prod.fst

theorem mem_take_range {parts lead : List String} (n : Nat) (hn : n ≤ parts.length) :
    lead ∈ ((List.range n).map fun index => parts.take (index + 1)) ↔
      lead ≠ [] ∧ lead <+: parts ∧ lead.length ≤ n := by
  rw [List.mem_map]
  constructor
  · rintro ⟨index, hindex, rfl⟩
    rw [List.mem_range] at hindex
    refine ⟨fun hnil => ?_, List.take_prefix _ _, ?_⟩
    · have hlength := congrArg List.length hnil
      rw [List.length_take, List.length_nil] at hlength
      omega
    · rw [List.length_take]
      omega
  · rintro ⟨hne, hprefix, hlength⟩
    have hpos := List.length_pos_iff.mpr hne
    refine ⟨lead.length - 1, List.mem_range.mpr (by omega), ?_⟩
    rw [Nat.sub_add_cancel hpos]
    exact (List.prefix_iff_eq_take.mp hprefix).symm

/-- The candidates are the proper prefixes of the declared paths, and the created directories with their prefixes. -/
theorem mem_candidates_iff {declared created : List RelPath} {lead : Prefix} :
    lead ∈ candidates declared created ↔ lead ≠ [] ∧
      ((∃ path ∈ declared, lead <+: components path ∧ lead.length < (components path).length) ∨
        ∃ path ∈ created, lead <+: components path) := by
  unfold candidates
  rw [List.mem_dedup, List.mem_append, List.mem_flatMap, List.mem_flatMap]
  constructor
  · rintro (⟨path, hpath, hlead⟩ | ⟨path, hpath, hlead⟩)
    · obtain ⟨hne, hprefix, hlength⟩ := (mem_take_range _ (by omega)).mp hlead
      have hpos := List.length_pos_iff.mpr hne
      exact ⟨hne, .inl ⟨path, hpath, hprefix, by omega⟩⟩
    · obtain ⟨hne, hprefix, hlength⟩ := (mem_take_range _ (Nat.le_refl _)).mp hlead
      exact ⟨hne, .inr ⟨path, hpath, hprefix⟩⟩
  · rintro ⟨hne, ⟨path, hpath, hprefix, hlength⟩ | ⟨path, hpath, hprefix⟩⟩
    · exact .inl ⟨path, hpath, (mem_take_range _ (by omega)).mpr ⟨hne, hprefix, by omega⟩⟩
    · exact .inr ⟨path, hpath, (mem_take_range _ (Nat.le_refl _)).mpr ⟨hne, hprefix, hprefix.length_le⟩⟩

section

variable [UnicodeData] {created : List RelPath} {filesystem_type : String}

/-- A step of the second loop adds its candidate, whose parent is there, and keeps every identity. -/
theorem derive_fact_eq_ok {facts facts' : Dict Prefix DirectoryFact} {candidate : Prefix}
    (h : derive_fact created filesystem_type facts candidate = .ok facts') :
    candidate.dropLast ∈ facts.keys ∧ (∀ lead, lead ∈ facts'.keys ↔ lead = candidate ∨ lead ∈ facts.keys) ∧
      (facts.keys.Nodup → facts'.keys.Nodup) ∧ ∀ lead, identity_at facts' lead = identity_at facts lead := by
  unfold derive_fact at h
  obtain ⟨parent, hparent, h⟩ := bind_eq_ok_iff.mp h
  obtain ⟨inherited, _, h⟩ := bind_eq_ok_iff.mp h
  have hmem : candidate.dropLast ∈ facts.keys := by
    rw [← Dict.get_isSome_iff, subscript_eq_ok_iff.mp hparent]
    rfl
  refine ⟨hmem, ?_⟩
  split at h
  · rw [pure_eq_ok_iff] at h
    subst h
    refine ⟨Dict.keys_put facts _ _, Dict.nodup_put facts _ _, fun lead => ?_⟩
    unfold identity_at
    rw [Dict.get_put]
    split
    · rename_i heq
      rw [heq, Option.bind_some]
    · rfl
  · rw [pure_eq_ok_iff] at h
    subst h
    refine ⟨Dict.keys_setdefault facts _ _, Dict.nodup_setdefault facts _ _, fun lead => ?_⟩
    unfold identity_at
    rw [Dict.get_setdefault]
    split
    · rename_i heq
      rw [heq]
      cases facts.get candidate <;> rfl
    · rfl

theorem derive_facts_eq_ok {order : List Prefix} {facts facts' : Dict Prefix DirectoryFact}
    (h : order.foldlM (derive_fact created filesystem_type) facts = .ok facts') :
    (∀ lead, lead ∈ facts'.keys ↔ lead ∈ facts.keys ∨ lead ∈ order) ∧ (∀ lead ∈ order, lead.dropLast ∈ facts'.keys) ∧
      (facts.keys.Nodup → facts'.keys.Nodup) ∧ ∀ lead, identity_at facts' lead = identity_at facts lead := by
  induction order generalizing facts with
  | nil =>
    rw [List.foldlM_nil, pure_eq_ok_iff] at h
    subst h
    exact ⟨fun lead => by simp, fun lead hlead => absurd hlead (by simp), id, fun _ => rfl⟩
  | cons candidate rest ih =>
    obtain ⟨middle, hmiddle, hrest⟩ := foldlM_cons_eq_ok_iff.mp h
    obtain ⟨hparent, hkeys, hnodup, hidentity⟩ := derive_fact_eq_ok hmiddle
    obtain ⟨hkeys', hparents, hnodup', hidentity'⟩ := ih hrest
    refine ⟨fun lead => ?_, fun lead hlead => ?_, fun hstart => hnodup' (hnodup hstart),
      fun lead => (hidentity' lead).trans (hidentity lead)⟩
    · rw [hkeys', hkeys, List.mem_cons]
      tauto
    · obtain rfl | hlead := List.mem_cons.mp hlead
      · exact (hkeys' _).mpr (.inl ((hkeys _).mpr (.inr hparent)))
      · exact hparents lead hlead

end

section

variable {prefixes : Dict RelPath ResolvedPrefix} {lead : Prefix}

theorem mem_observed_facts_keys_iff : lead ∈ (observed_facts prefixes).keys ↔
    ∃ item ∈ prefixes, ∃ hop ∈ hops_of item.1 item.2, hop.1 = lead := by
  unfold observed_facts
  rw [Dict.keys_foldl_setdefault (fun hop : Prefix × DirectoryFacts => hop.1)
    fun hop => (some hop.2.identity, hop.2.constraints)]
  constructor
  · rintro (hnil | ⟨hop, hhop, rfl⟩)
    · cases hnil
    · obtain ⟨item, hitem, hhop⟩ := List.mem_flatMap.mp hhop
      exact ⟨item, (mem_sorted_by _ _ _).mp hitem, hop, hhop, rfl⟩
  · rintro ⟨item, hitem, hop, hhop, rfl⟩
    exact .inr ⟨hop, List.mem_flatMap.mpr ⟨item, (mem_sorted_by _ _ _).mpr hitem, hhop⟩, rfl⟩

theorem observed_facts_get {fact : DirectoryFact} (h : (observed_facts prefixes).get lead = some fact) :
    ∃ item ∈ prefixes, ∃ hop ∈ hops_of item.1 item.2, hop.1 = lead ∧ fact = (some hop.2.identity, hop.2.constraints) := by
  unfold observed_facts at h
  obtain hnil | ⟨hop, hhop, rfl, rfl⟩ := Dict.of_get_foldl_setdefault (fun hop : Prefix × DirectoryFacts => hop.1)
    (fun hop => (some hop.2.identity, hop.2.constraints)) h
  · cases hnil
  · obtain ⟨item, hitem, hhop⟩ := List.mem_flatMap.mp hhop
    exact ⟨item, (mem_sorted_by _ _ _).mp hitem, hop, hhop, rfl, rfl⟩

/-- An observed identity is that of a directory which some path resolved through. -/
theorem identity_at_observed {identity : FilesystemIdentity}
    (h : identity_at (observed_facts prefixes) lead = some identity) :
    ∃ item ∈ prefixes, ∃ hop ∈ hops_of item.1 item.2, hop.1 = lead ∧ hop.2.identity = identity := by
  obtain ⟨fact, hfact, hidentity⟩ := Option.bind_eq_some_iff.mp h
  obtain ⟨item, hitem, hop, hhop, hlead, rfl⟩ := observed_facts_get hfact
  exact ⟨item, hitem, hop, hhop, hlead, Option.some_inj.mp hidentity⟩

theorem identity_at_hop {item : RelPath × ResolvedPrefix} {hop : Prefix × DirectoryFacts} (hitem : item ∈ prefixes)
    (hhop : hop ∈ hops_of item.1 item.2) : (identity_at (observed_facts prefixes) hop.1).isSome = true := by
  have hkey := mem_observed_facts_keys_iff.mpr ⟨item, hitem, hop, hhop, rfl⟩
  obtain ⟨fact, hfact⟩ := Option.isSome_iff_exists.mp ((Dict.get_isSome_iff _ _).mpr hkey)
  obtain ⟨_, _, other, _, _, rfl⟩ := observed_facts_get hfact
  unfold identity_at
  rw [hfact]
  rfl

end

/-- What `_facts_by_prefix` returns. -/
structure FactsOf (prefixes : Dict RelPath ResolvedPrefix) (created : List RelPath) (facts : Dict Prefix DirectoryFact) :
    Prop where
  nodup : facts.keys.Nodup
  mem_keys : ∀ lead, lead ∈ facts.keys ↔
    lead ∈ (observed_facts prefixes).keys ∨ lead ∈ candidates prefixes.keys created
  parent_mem : ∀ lead ∈ candidates prefixes.keys created, lead.dropLast ∈ facts.keys
  identity : ∀ lead, identity_at facts lead = identity_at (observed_facts prefixes) lead

theorem facts_by_prefix_eq_ok [UnicodeData] {prefixes : Dict RelPath ResolvedPrefix} {created : List RelPath}
    {filesystem_type : String} {facts : Dict Prefix DirectoryFact}
    (h : facts_by_prefix prefixes created filesystem_type = .ok facts) : FactsOf prefixes created facts := by
  unfold facts_by_prefix at h
  obtain ⟨_, _, h⟩ := bind_eq_ok_iff.mp h
  obtain ⟨hkeys, hparents, hnodup, hidentity⟩ := derive_facts_eq_ok h
  refine ⟨hnodup (Dict.nodup_foldl_setdefault _ _ _ List.nodup_nil), fun lead => ?_, fun lead hlead => ?_, hidentity⟩
  · rw [hkeys, mem_in_depth_order]
  · exact hparents lead (mem_in_depth_order.mpr hlead)

/-- The resolutions of one moment: each walk stops at a directory above its leaf, and a directory has one name. -/
structure Consistent (prefixes : Dict RelPath ResolvedPrefix) : Prop where
  hops_lt : ∀ item ∈ prefixes, item.2.hops.length < (components item.1).length
  one_name : ∀ left right identity, identity_at (observed_facts prefixes) left = some identity →
    identity_at (observed_facts prefixes) right = some identity → left = right

section

variable {prefixes : Dict RelPath ResolvedPrefix} {created : List RelPath} {facts : Dict Prefix DirectoryFact}

theorem mem_hops_of {path : RelPath} {resolved : ResolvedPrefix} {hop : Prefix × DirectoryFacts}
    (h : hop ∈ hops_of path resolved) : hop = (ROOT_PREFIX, resolved.root) ∨
      ∃ index found, resolved.hops[index]? = some found ∧ hop = ((components path).take (index + 1), found.facts) := by
  obtain h | h := List.mem_cons.mp h
  · exact .inl h
  · obtain ⟨⟨found, index⟩, hmem, rfl⟩ := List.mem_map.mp h
    exact .inr ⟨index, found, List.mk_mem_zipIdx_iff_getElem?.mp hmem, rfl⟩

/-- Every directory but the root is a candidate. -/
theorem FactsOf.mem_candidates (hfacts : FactsOf prefixes created facts) (hconsistent : Consistent prefixes)
    {lead : Prefix} (hlead : lead ∈ facts.keys) (hne : lead ≠ ROOT_PREFIX) :
    lead ∈ candidates prefixes.keys created := by
  obtain hobserved | hcandidate := (hfacts.mem_keys lead).mp hlead
  · obtain ⟨item, hitem, hop, hhop, rfl⟩ := mem_observed_facts_keys_iff.mp hobserved
    obtain rfl | ⟨index, found, hfound, rfl⟩ := mem_hops_of hhop
    · exact absurd rfl hne
    · have hlt := hconsistent.hops_lt item hitem
      have hindex := (List.getElem?_eq_some_iff.mp hfound).1
      refine mem_candidates_iff.mpr ⟨hne, .inl ⟨item.1, List.mem_map_of_mem hitem, List.take_prefix _ _, ?_⟩⟩
      rw [List.length_take]
      omega
  · exact hcandidate

theorem FactsOf.parent (hfacts : FactsOf prefixes created facts) (hconsistent : Consistent prefixes) {lead : Prefix}
    (hlead : lead ∈ facts.keys) (hne : lead ≠ ROOT_PREFIX) : lead.dropLast ∈ facts.keys :=
  hfacts.parent_mem lead (hfacts.mem_candidates hconsistent hlead hne)

theorem FactsOf.plain (hfacts : FactsOf prefixes created facts) (hconsistent : Consistent prefixes) {lead : Prefix}
    (hlead : lead ∈ facts.keys) : Plain lead := by
  by_cases hne : lead = ROOT_PREFIX
  · subst hne
    exact fun part hpart => absurd hpart (by simp [ROOT_PREFIX])
  · obtain ⟨_, ⟨path, _, hprefix, _⟩ | ⟨path, _, hprefix⟩⟩ :=
      mem_candidates_iff.mp (hfacts.mem_candidates hconsistent hlead hne)
    · exact (plain_components path).sublist hprefix.sublist
    · exact (plain_components path).sublist hprefix.sublist

/-- The project root has been observed, if any directory has. -/
theorem FactsOf.not_root (hfacts : FactsOf prefixes created facts) {lead : Prefix} (hlead : lead ∈ facts.keys)
    (hnone : identity_at facts lead = none) : lead ≠ ROOT_PREFIX := by
  rintro rfl
  obtain hobserved | hcandidate := (hfacts.mem_keys _).mp hlead
  · obtain ⟨item, hitem, hop, hhop, heq⟩ := mem_observed_facts_keys_iff.mp hobserved
    have hsome := identity_at_hop hitem hhop
    rw [heq, ← hfacts.identity, hnone] at hsome
    cases hsome
  · exact (mem_candidates_iff.mp hcandidate).1 rfl

end

/-! Keys. -/

/-- The key that `lead` has: its identity, or its name in the directory with its parent's key. -/
inductive KeyAt (facts : Dict Prefix DirectoryFact) (keys : Dict Prefix DirectoryKey) (lead : Prefix) :
    DirectoryKey → Prop
  | identity {identity : FilesystemIdentity} (h : identity_at facts lead = some identity) :
    KeyAt facts keys lead (.identity identity)
  | child {parent : DirectoryKey} (h : identity_at facts lead = none) (hparent : keys.get lead.dropLast = some parent) :
    KeyAt facts keys lead (.child parent (lead.getLast?.getD ""))

section

variable [UnicodeData] {facts : Dict Prefix DirectoryFact} {keys : Dict Prefix DirectoryKey}

theorem key_of_eq_ok {lead : Prefix} {key : DirectoryKey} (h : key_of facts keys lead = .ok key) :
    KeyAt facts keys lead key := by
  unfold key_of at h
  obtain ⟨fact, hfact, h⟩ := bind_eq_ok_iff.mp h
  rw [subscript_eq_ok_iff] at hfact
  split at h
  · rename_i identity hidentity
    rw [pure_eq_ok_iff] at h
    subst h
    exact .identity (by rw [identity_at, hfact, Option.bind_some, hidentity])
  · rename_i hidentity
    obtain ⟨parent, _, h⟩ := bind_eq_ok_iff.mp h
    obtain ⟨parent_key, hparent, h⟩ := bind_eq_ok_iff.mp h
    obtain ⟨name, hname, h⟩ := bind_eq_ok_iff.mp h
    rw [pure_eq_ok_iff] at h
    subst h
    unfold lookup_equivalence_key at hname
    split at hname
    · rw [pure_eq_ok_iff] at hname
      subst hname
      exact .child (by rw [identity_at, hfact, Option.bind_some, hidentity]) (subscript_eq_ok_iff.mp hparent)
    · exact absurd hname throw_ne_ok

/-- What `_keys_by_prefix` returns: each prefix has the key that its facts give it. -/
theorem keys_by_prefix_eq_ok (hnodup : facts.keys.Nodup) (h : keys_by_prefix facts = .ok keys) :
    (∀ lead, lead ∈ keys.keys ↔ lead ∈ facts.keys) ∧
      ∀ lead ∈ facts.keys, ∃ key, keys.get lead = some key ∧ KeyAt facts keys lead key := by
  unfold keys_by_prefix at h
  obtain ⟨_, hkeys, hall⟩ := Dict.foldlM_put h (nodup_in_depth_order hnodup) fun _ _ => rfl
  refine ⟨fun lead => ?_, fun lead hlead => ?_⟩
  · rw [hkeys, mem_in_depth_order]
    simp [Dict.keys]
  · obtain ⟨before, key, hextends, hkey, hget⟩ := hall lead (mem_in_depth_order.mpr hlead)
    refine ⟨key, hget, ?_⟩
    cases key_of_eq_ok hkey with
    | identity hidentity => exact .identity hidentity
    | child hnone hparent => exact .child hnone (hextends _ _ hparent)

omit [UnicodeData] in
/-- Where identities tell directories apart, so do keys. -/
theorem keys_injective
    (hidentity : ∀ left right identity, identity_at facts left = some identity → identity_at facts right = some identity →
      left = right)
    (hroot : ∀ lead key, keys.get lead = some key → identity_at facts lead = none → lead ≠ ROOT_PREFIX)
    (hkeys : ∀ lead key, keys.get lead = some key → KeyAt facts keys lead key) {left right : Prefix} {key : DirectoryKey}
    (hleft : keys.get left = some key) (hright : keys.get right = some key) : left = right := by
  induction key generalizing left right with
  | identity identity =>
    have hat := hkeys left _ hleft
    have hat' := hkeys right _ hright
    cases hat with
    | identity hl =>
      cases hat' with
      | identity hr => exact hidentity left right identity hl hr
  | child parent name ih =>
    have hat := hkeys left _ hleft
    have hat' := hkeys right _ hright
    generalize hkey : DirectoryKey.child parent name = key at hat
    generalize hkey' : DirectoryKey.child parent name = key' at hat'
    cases hat with
    | identity _ => cases hkey
    | child hl hparent =>
      cases hat' with
      | identity _ => cases hkey'
      | child hr hparent' =>
        obtain ⟨rfl, rfl⟩ := DirectoryKey.child.inj hkey
        obtain ⟨rfl, hlast⟩ := DirectoryKey.child.inj hkey'
        have hnel := hroot left _ hleft hl
        have hner := hroot right _ hright hr
        have hdrop := ih hparent hparent'
        rw [← List.dropLast_append_getLast hnel, ← List.dropLast_append_getLast hner, hdrop]
        rw [List.getLast?_eq_some_getLast hnel, List.getLast?_eq_some_getLast hner] at hlast
        exact congrArg (fun last => right.dropLast ++ [last]) hlast

end

end atoms.fs
