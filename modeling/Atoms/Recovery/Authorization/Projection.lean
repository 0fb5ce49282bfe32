import Atoms.Library.Matching
import Atoms.Recovery.Authorization
import Atoms.Recovery.Classifier.Halted

open atoms.errors atoms.fingerprint atoms.spec checked keyed matching

namespace atoms.recovery

instance : Infinite EntryIdentity := Infinite.of_injective EntryIdentity.mk fun _ _ => EntryIdentity.mk.inj

/-- The entry with another identity, where it has one. -/
def ObservedEntry.rename (rename : EntryIdentity → EntryIdentity) : ObservedEntry → ObservedEntry
  | .ObservedFile state identity => .ObservedFile state (rename identity)
  | .ObservedDirectory state identity has_unmodeled_child => .ObservedDirectory state (rename identity) has_unmodeled_child
  | entry => entry

namespace JointObservation

/-- The observation with every identity renamed. -/
def rename (rename : EntryIdentity → EntryIdentity) (observation : JointObservation) : JointObservation where
  persistent := observation.persistent.map fun item => { item with entry := item.entry.rename rename }
  scratch := observation.scratch.map fun item => { item with entry := item.entry.rename rename }
  parent_occupancy := observation.parent_occupancy

/-- Two observations list the same slots with the same entries, in whatever order. -/
structure Same (left right : JointObservation) : Prop where
  persistent : left.persistent.Perm right.persistent
  scratch : left.scratch.Perm right.scratch
  parent_occupancy : left.parent_occupancy = right.parent_occupancy

/-- An observation is another one up to which tokens its identities come from. -/
def Renames (expected observed : JointObservation) : Prop :=
  ∃ rename : EntryIdentity → EntryIdentity, Function.Injective rename ∧ (expected.rename rename).Same observed

end JointObservation

namespace diagnostics

open snapshot

variable {ρ : EntryIdentity → EntryIdentity} {observation : JointObservation}

theorem entry_fields_rename (entry : ObservedEntry) : entry_fields (entry.rename ρ) =
    ((entry_fields entry).1, (entry_fields entry).2.1, (entry_fields entry).2.2.map ρ) := by
  cases entry <;> rfl

theorem entry_fields_injective {left right : ObservedEntry} (h : entry_fields left = entry_fields right) : left = right := by
  cases left <;> cases right <;> simp_all [entry_fields, ABSENT]

/-- Which entries have an identity shows in their states. -/
theorem identified_of_state {left right : ObservedEntry} (h : (entry_fields left).1 = (entry_fields right).1) :
    (entry_fields left).2.2.isSome = (entry_fields right).2.2.isSome := by
  cases left <;> cases right <;> simp_all [entry_fields, ABSENT]

def NamedEntry.rename (ρ : EntryIdentity → EntryIdentity) (item : NamedEntry) : NamedEntry :=
  { item with entry := item.entry.rename ρ }

/-- The slot of an entry, and what a projection shows of it beside its identity. -/
def NamedEntry.project (item : NamedEntry) : DiagnosticEntry where
  slot := item.slot
  state := (entry_fields item.entry).1
  has_unmodeled_child := (entry_fields item.entry).2.1
  file_build_relation := item.file_build_relation

theorem NamedEntry.project_rename (item : NamedEntry) : (item.rename ρ).project = item.project := by
  simp only [project, rename, entry_fields_rename]

/-- Two entries that project alike differ by a renaming of the one's identity to the other's. -/
theorem NamedEntry.eq_rename_of_project {left right : NamedEntry} (h : left.project = right.project)
    (hidentity : (entry_fields right.entry).2.2 = (entry_fields left.entry).2.2.map ρ) : right = left.rename ρ := by
  simp only [project, DiagnosticEntry.mk.injEq] at h
  have hentry : right.entry = left.entry.rename ρ := by
    apply entry_fields_injective
    rw [entry_fields_rename, h.2.1, h.2.2.1, ← hidentity]
  cases left
  cases right
  simp_all [rename]

/-- The entries of an observation under their slots, before they are sorted. -/
def named (observation : JointObservation) : List NamedEntry :=
  observation.persistent.map (fun item => ⟨persistent_slot item.path, item.entry, none⟩) ++
    observation.scratch.map fun item => ⟨scratch_slot item.effect_id item.role, item.entry, item.file_build_relation⟩

theorem named_slots (observation : JointObservation) : (named observation).map NamedEntry.slot = slots observation := by
  simp [named, slots, Function.comp_def]

theorem named_rename (ρ : EntryIdentity → EntryIdentity) (observation : JointObservation) :
    named (observation.rename ρ) = (named observation).map (NamedEntry.rename ρ) := by
  simp [named, JointObservation.rename, NamedEntry.rename, Function.comp_def, ObservedEntry.rename]

/-- The entries in the order of their slots. -/
def sorted_entries (observation : JointObservation) : List NamedEntry := sorted_by NamedEntry.slot (named observation)

theorem named_entries_eq (h : Reportable observation) : named_entries (some observation) = .ok (sorted_entries observation) := by
  have hnodup : ((sorted_entries observation).map NamedEntry.slot).Nodup := by
    rw [sorted_entries, ((sorted_by_perm _ _).map NamedEntry.slot).nodup_iff, named_slots]
    exact slots_nodup h
  unfold named_entries
  simp only [require_protocol]
  exact congrArg (· >>= _) (require_of hnodup)

theorem sorted_entries_nodup (h : Reportable observation) : ((sorted_entries observation).map NamedEntry.slot).Nodup := by
  rw [sorted_entries, ((sorted_by_perm _ _).map NamedEntry.slot).nodup_iff, named_slots]
  exact slots_nodup h

theorem sorted_entries_rename (ρ : EntryIdentity → EntryIdentity) (observation : JointObservation) :
    sorted_entries (observation.rename ρ) = (sorted_entries observation).map (NamedEntry.rename ρ) := by
  unfold sorted_entries sorted_by
  rw [named_rename, eq_comm]
  exact List.map_insertionSort _ _ _ _ fun _ _ _ _ => Iff.rfl

/-- The identified slots of some entries. -/
def identified («namespace» : String) (entries : List NamedEntry) : List (String × EntryIdentity) :=
  entries.filterMap fun item => (entry_fields item.entry).2.2.map fun identity => («namespace» ++ ":" ++ item.slot, identity)

theorem identified_rename («namespace» : String) (entries : List NamedEntry) :
    identified «namespace» (entries.map (NamedEntry.rename ρ)) =
      (identified «namespace» entries).map fun item => (item.1, ρ item.2) := by
  unfold identified
  rw [List.filterMap_map, List.map_filterMap]
  apply List.filterMap_congr
  intro item _
  simp only [Function.comp_apply, NamedEntry.rename, entry_fields_rename, Option.map_map]
  rfl

/-- An injective renaming leaves every relation of identities. -/
theorem identity_pairs_rename (hρ : Function.Injective ρ) (items : List (String × EntryIdentity)) :
    identity_pairs (items.map fun item => (item.1, ρ item.2)) = identity_pairs items := by
  induction items with
  | nil => rfl
  | cons head rest ih =>
    rw [List.map_cons, identity_pairs, identity_pairs, ih, List.map_map]
    simp only [Function.comp_def, hρ.eq_iff]

/-- Lists of the same slots whose relations agree have matching identities. -/
theorem matching_of_identity_pairs {left right : List (String × EntryIdentity)}
    (hslots : left.map Prod.fst = right.map Prod.fst) (h : identity_pairs left = identity_pairs right) :
    Matching ((left.map Prod.snd).zip (right.map Prod.snd)) := by
  induction left generalizing right with
  | nil => exact matching_nil
  | cons head rest ih =>
    cases right with
    | nil => cases hslots
    | cons head' rest' =>
      rw [List.map_cons, List.map_cons, List.cons.injEq] at hslots
      have hlength : rest.length = rest'.length := by simpa using congrArg List.length hslots.2
      rw [identity_pairs, identity_pairs] at h
      obtain ⟨hhead, hrest⟩ := List.append_inj h (by simpa using hlength)
      rw [List.map_cons, List.map_cons, List.zip_cons_cons]
      refine (ih hslots.2 hrest).cons fun q hq => ?_
      obtain ⟨i, hi, rfl⟩ := List.mem_iff_getElem.mp hq
      simp only [List.length_zip, List.length_map] at hi
      have hrelation := congrArg (fun relations => relations[i]?.map DiagnosticIdentityRelation.relation) hhead
      have hi' : i < rest.length := by omega
      have hi'' : i < rest'.length := by omega
      simp only [List.getElem?_map, List.getElem?_eq_getElem hi', List.getElem?_eq_getElem hi'', Option.map_some,
        Option.some.injEq] at hrelation
      rw [List.getElem_zip, List.getElem_map, List.getElem_map]
      by_cases hleft : head.2 = rest[i].2 <;> by_cases hright : head'.2 = rest'[i].2 <;> simp_all

/-- Entries that project alike have the same identified slots. -/
theorem identified_slots_of_project {left right : List NamedEntry} (h : left.map NamedEntry.project = right.map NamedEntry.project)
    («namespace» : String) : (identified «namespace» left).map Prod.fst = (identified «namespace» right).map Prod.fst := by
  induction left generalizing right with
  | nil =>
    cases right with
    | nil => rfl
    | cons _ _ => cases h
  | cons head rest ih =>
    cases right with
    | nil => cases h
    | cons head' rest' =>
      rw [List.map_cons, List.map_cons, List.cons.injEq] at h
      have hrest := ih h.2
      have hproject := h.1
      simp only [NamedEntry.project, DiagnosticEntry.mk.injEq] at hproject
      have hsome := identified_of_state hproject.2.1
      unfold identified at hrest ⊢
      rw [List.filterMap_cons, List.filterMap_cons]
      cases hleft : (entry_fields head.entry).2.2 <;> cases hright : (entry_fields head'.entry).2.2
      · exact hrest
      · simp [hleft, hright] at hsome
      · simp [hleft, hright] at hsome
      · simp only [Option.map_some, List.map_cons, hrest, hproject.1]

/-- A renaming of the paired identities carries entries to the ones that project alike. -/
theorem eq_map_rename {left right : List NamedEntry} (h : left.map NamedEntry.project = right.map NamedEntry.project)
    {«namespace» : String} (hρ : ∀ p ∈ ((identified «namespace» left).map Prod.snd).zip ((identified «namespace» right).map Prod.snd),
      ρ p.1 = p.2) : right = left.map (NamedEntry.rename ρ) := by
  induction left generalizing right with
  | nil =>
    cases right with
    | nil => rfl
    | cons _ _ => cases h
  | cons head rest ih =>
    cases right with
    | nil => cases h
    | cons head' rest' =>
      rw [List.map_cons, List.map_cons, List.cons.injEq] at h
      have hproject := h.1
      simp only [NamedEntry.project, DiagnosticEntry.mk.injEq] at hproject
      have hsome := identified_of_state hproject.2.1
      rw [List.map_cons, List.cons.injEq]
      unfold identified at hρ ih
      rw [List.filterMap_cons, List.filterMap_cons] at hρ
      cases hleft : (entry_fields head.entry).2.2 <;> cases hright : (entry_fields head'.entry).2.2
      · simp only [hleft, hright, Option.map_none] at hρ
        exact ⟨NamedEntry.eq_rename_of_project h.1 (by rw [hleft, hright]; rfl), ih h.2 hρ⟩
      · simp [hleft, hright] at hsome
      · simp [hleft, hright] at hsome
      · simp only [hleft, hright, Option.map_some, List.map_cons, List.zip_cons_cons, List.forall_mem_cons] at hρ
        exact ⟨NamedEntry.eq_rename_of_project h.1 (by rw [hleft, hright, Option.map_some, hρ.1]), ih h.2 hρ.2⟩

theorem identified_nodup {entries : List NamedEntry} (h : (entries.map NamedEntry.slot).Nodup) («namespace» : String) :
    ((identified «namespace» entries).map Prod.fst).Nodup := by
  have hinjective : Function.Injective fun slot : String => «namespace» ++ ":" ++ slot := by
    intro left right heq
    have heq := congrArg String.toList heq
    simp only [String.toList_append, List.append_cancel_left_eq] at heq
    exact String.toList_inj.mp heq
  rw [List.Nodup, List.pairwise_map, identified, List.pairwise_filterMap]
  refine (List.pairwise_map.mp h).imp fun {left right} hne => ?_
  intro first hfirst second hsecond heq
  obtain ⟨_, _, rfl⟩ := Option.map_eq_some_iff.mp hfirst
  obtain ⟨_, _, rfl⟩ := Option.map_eq_some_iff.mp hsecond
  exact hne (hinjective heq)

/-- The slots of the pairs are those of the items, whatever their identities. -/
theorem identity_pairs_slots {left right : List (String × EntryIdentity)} (h : left.map Prod.fst = right.map Prod.fst) :
    (identity_pairs left).map DiagnosticIdentityRelation.pair = (identity_pairs right).map DiagnosticIdentityRelation.pair := by
  induction left generalizing right with
  | nil =>
    cases right with
    | nil => rfl
    | cons _ _ => cases h
  | cons head rest ih =>
    cases right with
    | nil => cases h
    | cons head' rest' =>
      rw [List.map_cons, List.map_cons, List.cons.injEq] at h
      have hhead : ∀ (slot : String) (items : List (String × EntryIdentity)) (identity : EntryIdentity),
          (items.map fun item => DiagnosticIdentityRelation.pair
            ⟨slot, item.1, if identity = item.2 then .SAME else .DIFFERENT⟩) = (items.map Prod.fst).map (Prod.mk slot) := by
        intro slot items identity
        rw [List.map_map]
        rfl
      simp only [identity_pairs, List.map_append, List.map_map, ih h.2]
      exact congrArg (· ++ _) ((hhead _ _ _).trans (h.1 ▸ h.2 ▸ (hhead _ _ _).symm))

/-- Sorting does not hide which slots have which relation. -/
theorem identity_pairs_of_sorted {left right : List (String × EntryIdentity)} (hslots : left.map Prod.fst = right.map Prod.fst)
    (hnodup : (left.map Prod.fst).Nodup) (h : (identity_pairs left).Perm (identity_pairs right)) :
    identity_pairs left = identity_pairs right :=
  eq_of_perm_of_keys h (identity_pairs_slots hslots) (identity_pairs_nodup hnodup)

theorem sorted_entries_perm {left right : JointObservation} (hleft : Reportable left) (h : left.Same right) :
    sorted_entries left = sorted_entries right := by
  refine sorted_by_congr ?_ (by rw [named_slots]; exact slots_nodup hleft)
  exact (h.persistent.map _).append (h.scratch.map _)

/-- The entries under their slots tell which observation they are from. -/
theorem same_of_named {left right : JointObservation} (hleft : left.scratch.length ≤ 1) (hright : right.scratch.length ≤ 1)
    (hkeys : set_eq (left.scratch.map ScratchObservation.key) (right.scratch.map ScratchObservation.key))
    (hoccupancy : left.parent_occupancy = right.parent_occupancy) (h : (named left).Perm (named right)) : left.Same right := by
  -- a slot of a path and one of a scratch name begin with different letters
  have hparts : ∀ observation : JointObservation,
      ((named observation).filter fun item => item.slot.toList.head? = some 'p') =
        (observation.persistent.map fun item => ⟨persistent_slot item.path, item.entry, none⟩) ∧
      ((named observation).filter fun item => item.slot.toList.head? ≠ some 'p') =
        observation.scratch.map fun item => ⟨scratch_slot item.effect_id item.role, item.entry, item.file_build_relation⟩ := by
    intro observation
    have hpersistent : ∀ path, (persistent_slot path).toList.head? = some 'p' := fun path => by
      simp [persistent_slot]
    have hscratch : ∀ effect_id role, (scratch_slot effect_id role).toList.head? = some 's' := fun effect_id role => by
      simp [scratch_slot]
    constructor <;>
      simp [named, List.filter_append, List.filter_map, Function.comp_def, hpersistent, hscratch]
  obtain ⟨hpersistent, hscratch⟩ := hparts left
  obtain ⟨hpersistent', hscratch'⟩ := hparts right
  refine ⟨?_, ?_, hoccupancy⟩
  · have hperm := h.filter fun item => item.slot.toList.head? = some 'p'
    rw [hpersistent, hpersistent'] at hperm
    refine (List.map_perm_map_iff ?_).mp hperm
    intro first second heq
    rw [NamedEntry.mk.injEq] at heq
    cases first
    cases second
    simp_all [persistent_slot_injective.eq_iff]
  · have hperm := h.filter fun item => item.slot.toList.head? ≠ some 'p'
    rw [hscratch, hscratch'] at hperm
    clear hscratch hscratch'
    generalize left.scratch = firsts at *
    generalize right.scratch = seconds at *
    rcases firsts with _ | ⟨first, _ | ⟨_, _⟩⟩
    · rw [List.map_nil, List.nil_perm, List.map_eq_nil_iff] at hperm
      rw [hperm]
    · rcases seconds with _ | ⟨second, _ | ⟨_, _⟩⟩
      · simp at hperm
      · simp only [List.map_cons, List.map_nil, List.perm_singleton, List.cons.injEq, NamedEntry.mk.injEq, and_true] at hperm
        have hkey : first.key = second.key := List.mem_singleton.mp (hkeys.1 _ List.mem_cons_self)
        rw [ScratchObservation.key, ScratchObservation.key, Prod.mk.injEq] at hkey
        cases first
        cases second
        simp_all
      · simp at hright
    · simp at hleft

end diagnostics

namespace authorization

open diagnostics

variable {expected observed observation : JointObservation}

theorem authorization_projection_eq (h : Reportable observation) : authorization_projection observation = .ok
    { entries := (sorted_entries observation).map NamedEntry.project
      parent_occupancy := observation.parent_occupancy
      relations := (identity_pairs (identified "authorization" (sorted_entries observation))).insertionSort
        fun left right => snapshot.pair_le (snapshot.DiagnosticIdentityRelation.pair left)
          (snapshot.DiagnosticIdentityRelation.pair right) } := by
  unfold authorization_projection project_entries project_identity_relations
  rw [named_entries_eq h]
  rfl

theorem reportable_rename (h : Reportable observation) (ρ : EntryIdentity → EntryIdentity) : Reportable (observation.rename ρ) := by
  refine ⟨?_, by simpa [JointObservation.rename] using h.scratch⟩
  simpa [JointObservation.rename, Function.comp_def] using h.paths

/-- Two observations of the same slots project alike exactly where one renames the other. -/
theorem projections_eq_iff (hexpected : Reportable expected) (hobserved : Reportable observed)
    (hkeys : set_eq (expected.scratch.map ScratchObservation.key) (observed.scratch.map ScratchObservation.key)) :
    authorization_projection observed = authorization_projection expected ↔ expected.Renames observed := by
  rw [authorization_projection_eq hexpected, authorization_projection_eq hobserved, Except.ok.injEq, Projection.mk.injEq]
  constructor
  · rintro ⟨hentries, hoccupancy, hrelations⟩
    have hslots := identified_slots_of_project hentries.symm "authorization"
    have hnodup := identified_nodup (sorted_entries_nodup hexpected) "authorization"
    have hperm := ((List.perm_insertionSort _ _).symm.trans (List.Perm.of_eq hrelations)).trans (List.perm_insertionSort _ _)
    have hpairs := identity_pairs_of_sorted hslots hnodup hperm.symm
    obtain ⟨ρ, hρ, hrename⟩ := (matching_of_identity_pairs hslots hpairs).exists_renaming
    have hmap := eq_map_rename hentries.symm hrename
    refine ⟨ρ, hρ, same_of_named ?_ hobserved.scratch ?_ hoccupancy.symm ?_⟩
    · exact (reportable_rename hexpected ρ).scratch
    · rw [JointObservation.rename, List.map_map]
      exact hkeys
    · rw [← sorted_entries_rename] at hmap
      exact (sorted_by_perm _ _).symm.trans ((List.Perm.of_eq hmap.symm).trans (sorted_by_perm _ _))
  · rintro ⟨ρ, hρ, hsame⟩
    have hsorted : sorted_entries observed = (sorted_entries expected).map (NamedEntry.rename ρ) := by
      rw [← sorted_entries_rename, sorted_entries_perm (reportable_rename hexpected ρ) hsame]
    refine ⟨?_, hsame.parent_occupancy.symm, ?_⟩
    · rw [hsorted, List.map_map]
      exact List.map_congr_left fun item _ => item.project_rename
    · rw [hsorted, identified_rename, identity_pairs_rename hρ]

end authorization

end atoms.recovery
