import Atoms.Coordinator.Register.Stages

open atoms.errors atoms.fingerprint atoms.paths atoms.spec atoms.recovery atoms.fs atoms.chain checked crash

namespace atoms.coordinator

variable {root : Inode} {base d : Disk}

/-- A path whose components name neither the claim nor the chain. -/
def Passable (path : String) : Prop := ∀ component ∈ components path, component ≠ ROOT_CLAIM_LEAF ∧ component ≠ CHAIN_LEAF

theorem Beside.lookup {parent : Inode} {name : String} (h : Beside root base d) (hold : parent < base.next)
    (hname : name ≠ ROOT_CLAIM_LEAF ∧ name ≠ CHAIN_LEAF) : d.lookup parent name = base.lookup parent name := by
  refine h.apart.lookup parent name ?_
  rintro (hnew | ⟨_, hclaim | hchain⟩)
  · exact absurd hold (Nat.not_lt.mpr hnew)
  · exact hname.1 hclaim
  · exact hname.2 hchain

section

variable [UnicodeData]

/-- A registered surface names neither the claim nor the chain. -/
theorem passable_of_surface {paths : List String} (h : validate_registered_surface paths = .ok ()) :
    ∀ path ∈ paths, Passable path := by
  obtain ⟨_, _, h⟩ := bind_eq_ok_iff.mp h
  obtain ⟨_, _, h⟩ := bind_eq_ok_iff.mp h
  intro path hpath component hcomponent
  have hrel := forM_eq_ok_iff.mp h path hpath
  have hchecked : require_rel_path "registered surface path" path = .ok () := by
    split at hrel
    · cases hrel
    · assumption
  simp only [require_rel_path, bind_eq_ok_iff, require_eq_ok_iff, forM_eq_ok_iff] at hchecked
  obtain ⟨_, _, _, _, _, _, _, _, hcomponents⟩ := hchecked
  obtain ⟨_, _, _, _, hsigil⟩ := hcomponents component hcomponent
  have hreserved : ∀ leaf, starts_with SCRATCH_SIGIL leaf = true → component ≠ leaf := by
    rintro leaf hleaf rfl
    refine hsigil ?_
    rw [aliases_scratch_sigil, List.any_cons, hleaf, Bool.true_or]
  exact ⟨hreserved _ (by decide), hreserved _ (by decide)⟩

end

/-- Directories are opened alike on a path that a registration cannot change. -/
theorem open_parents_alike (h : Beside root base d) (hbase : base.Numbered) {path : List String}
    (hpath : ∀ component ∈ path, component ≠ ROOT_CLAIM_LEAF ∧ component ≠ CHAIN_LEAF) {parent_fd : Inode}
    (hold : parent_fd < base.next) :
    (open_parents parent_fd path).Alike base d fun opened => ∀ fd ∈ opened, fd < base.next := by
  induction path generalizing parent_fd with
  | nil =>
    refine .pure ?_
    rintro fd ⟨rfl⟩
    exact hold
  | cons component rest ih =>
    have hlookup := h.lookup hold (hpath component List.mem_cons_self)
    have hopen : (open_child_directory parent_fd component).Alike base d fun fd => fd < base.next := by
      refine .read (by rw [hlookup]) fun fd hfd => ?_
      split at hfd
      · cases hfd
      · rename_i inode hentry
        cases hfd
        exact hbase _ _ _ hentry
      · cases hfd
      · cases hfd
    refine .bind (P := fun opened => ∀ fd ∈ opened, fd < base.next) (.tryCatch (hopen.bind fun fd hfd => .pure ?_)
      fun caught => ?_) fun opened hopened => ?_
    · rintro fd' ⟨rfl⟩
      exact hfd
    · split
      · refine .ite ?_ ?_
        · exact .pure fun fd hfd => absurd hfd (Option.not_mem_none fd)
        · exact .throw _
      · exact .throw _
    · cases opened with
      | none => exact .pure fun fd hfd => absurd hfd (Option.not_mem_none fd)
      | some fd => exact ih (fun other hother => hpath other (List.mem_cons_of_mem _ hother)) (hopened fd rfl)

variable [UnicodeData] [Sha256]

omit [UnicodeData] in
/-- A name that a registration cannot change is observed alike. -/
theorem observe_entry_congr (h : Beside root base d) (hbase : base.Numbered) (hroot : base.Unreached root) {parent_fd : Inode}
    {leaf : String} (hold : parent_fd < base.next) (hleaf : leaf ≠ ROOT_CLAIM_LEAF ∧ leaf ≠ CHAIN_LEAF)
    (modeled : List String) : observe_entry d parent_fd leaf modeled = observe_entry base parent_fd leaf modeled := by
  unfold observe_entry file_state
  rw [h.lookup hold hleaf]
  cases hentry : base.lookup parent_fd leaf with
  | none => rfl
  | some entry =>
    obtain ⟨kind, inode⟩ := entry
    have hinode : inode < base.next := hbase _ _ _ hentry
    have hlisted : ∀ name, name ∈ d.listdir inode ↔ name ∈ base.listdir inode := by
      intro name
      rw [Disk.mem_listdir, Disk.mem_listdir, h.apart.lookup inode name]
      rintro (hnew | ⟨heq, _⟩)
      · exact absurd hinode (Nat.not_lt.mpr hnew)
      · exact hroot _ _ _ hentry heq
    have hany : (d.listdir inode).any (fun name => name ∉ modeled) = (base.listdir inode).any fun name => name ∉ modeled := by
      rw [Bool.eq_iff_iff, List.any_eq_true, List.any_eq_true]
      simp only [hlisted]
    cases kind <;> simp only [h.apart.contents inode hinode, h.apart.modes inode hinode, hany]

theorem capture_path_alike (h : Beside root base d) (hbase : base.Numbered) (hroot : base.Unreached root)
    (hold : root < base.next) {path : String} (hpath : Passable path) :
    (capture_path root path).Alike base d fun _ => True := by
  refine .bind (open_parents_alike h hbase (fun component hcomponent =>
    hpath component ((List.dropLast_sublist _).subset hcomponent)) hold) fun opened hopened => ?_
  cases opened with
  | none => exact .pure trivial
  | some parent_fd =>
    have hleaf : (components path).getLast?.getD "" ≠ ROOT_CLAIM_LEAF ∧ (components path).getLast?.getD "" ≠ CHAIN_LEAF := by
      cases hlast : (components path).getLast? with
      | none => exact ⟨by decide, by decide⟩
      | some leaf => exact hpath leaf (List.mem_of_getLast? hlast)
    refine .bind (P := fun _ => True) (.read ?_ fun _ _ => trivial) fun observed _ => .read rfl fun _ _ => trivial
    rw [observe_entry_congr h hbase hroot (hopened parent_fd rfl) hleaf]

/-- The baseline is captured alike after any attempt. -/
theorem capture_baseline_alike (h : Beside root base d) (hbase : base.Numbered) (hroot : base.Unreached root)
    (hold : root < base.next) {paths : List String} (hpaths : ∀ path ∈ paths, Passable path) :
    (capture_baseline root paths).Alike base d fun baseline => baseline.map Prod.fst = paths := by
  induction paths with
  | nil => exact .pure rfl
  | cons path rest ih =>
    refine .bind (capture_path_alike h hbase hroot hold (hpaths path List.mem_cons_self)) fun state _ =>
      .bind (P := fun _ => True) (.read rfl fun _ _ => trivial) fun facts _ =>
        .bind (ih fun other hother => hpaths other (List.mem_cons_of_mem _ hother)) fun baseline hbaseline => .pure ?_
    rw [List.map_cons, hbaseline]

end atoms.coordinator
