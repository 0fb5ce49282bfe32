import Atoms.Core.Canonical
import Atoms.Core.Compiler.Phases
import Atoms.Library.Json.RoundTrip

open atoms.errors atoms.fingerprint atoms.effects atoms.spec atoms.compiler checked json keyed

namespace atoms.canonical

theorem ensure_of {condition : Prop} [Decidable condition] {message : String} (h : condition) :
    ensure condition message = .ok () := require_of h

theorem field_of {members sorted : List (String × Json)} (h : SortedObj members sorted) (name : String) (value : Json)
    (hmem : (name, value) ∈ members) : field sorted name = sort_keys value := by
  rw [field, h.lookup name value hmem]
  rfl

/-! What is written is plain. -/

theorem plain_state (state : PathState) : Plain (state_obj state) := by
  cases state <;> refine .obj (by simp) ?_ <;>
    simp only [List.forall_mem_cons, List.not_mem_nil, false_implies, implies_true, and_true]
  · exact .str _
  · exact ⟨.str _, .str _, .int _, .int _⟩
  · exact ⟨.str _, .int _⟩
  · exact ⟨.str _, .str _, .int _⟩

theorem plain_effect (effect : Effect) : Plain (effect_obj effect) := by
  cases effect <;> refine .obj (by simp) ?_ <;>
    simp only [List.forall_mem_cons, List.not_mem_nil, false_implies, implies_true, and_true]
  · exact ⟨.str _, .str _, .str _, plain_state _, plain_state _⟩
  · exact ⟨.str _, .str _, .str _, plain_state _⟩
  · exact ⟨.str _, .str _, .str _, plain_state _⟩
  · exact ⟨.str _, .str _, .str _, .str _, plain_state _⟩
  · exact ⟨.str _, .str _, .str _, plain_state _⟩

theorem plain_surface_entry (entry : SurfaceEntry) : Plain (surface_obj entry) := by
  refine .obj (by simp) ?_
  simp only [List.forall_mem_cons, List.not_mem_nil, false_implies, implies_true, and_true]
  exact ⟨.str _, plain_state _⟩

theorem plain_dependency (dep : Dependency) : Plain (dependency_obj dep) :=
  .of_texts (by simp) (by simp)

theorem plain_optional (value : Option String) : Plain (optional_obj value) := by
  cases value with
  | none => exact .null
  | some text => exact .str text

theorem plain_items {α : Type} {encode : α → Json} (h : ∀ value, Plain (encode value)) (values : List α) :
    Plain (.arr (values.map encode)) := by
  refine .arr fun item hitem => ?_
  obtain ⟨value, _, rfl⟩ := List.mem_map.mp hitem
  exact h value

theorem plain_canonical (spec : TransactionSpec) : Plain (canonical_obj spec) := by
  refine .obj (by simp) ?_
  simp only [List.forall_mem_cons, List.not_mem_nil, false_implies, implies_true, and_true]
  exact ⟨.int _, .str _, .str _, plain_items plain_surface_entry _, plain_items plain_surface_entry _,
    plain_items plain_effect _, plain_items plain_dependency _, plain_optional _, plain_items .str _⟩

/-! Reading back what was written. -/

variable [UnicodeData]

theorem require_only_of {members sorted : List (String × Json)} (h : SortedObj members sorted) (what : String)
    (allowed : List String) (hfields : members.map Prod.fst = allowed) : require_only what sorted allowed = .ok () := by
  have hkeys := set_eq_iff.mp h.keys
  subst hfields
  have hpresent : ((members.map Prod.fst).forM fun name =>
      ensure (name ∈ sorted.map Prod.fst) (what ++ " is missing field " ++ py_repr name)) = .ok () :=
    forM_eq_ok_iff.mpr fun name hname => ensure_of ((hkeys name).mpr hname)
  have hextra : (sorted.map Prod.fst).filter (fun name => name ∉ members.map Prod.fst) = [] := by
    rw [List.filter_eq_nil_iff]
    intro name hname
    simpa using (hkeys name).mp hname
  rw [require_only, hpresent, ok_bind, hextra]
  exact ensure_of rfl

theorem decode_discriminator_of {members sorted : List (String × Json)} (h : SortedObj members sorted)
    (ctx kind tag : String) (variants : List String) (htype : ("type", .str tag) ∈ members) (hknown : tag ∈ variants) :
    decode_discriminator sorted ctx kind variants = .ok tag := by
  have hkey : "type" ∈ sorted.map Prod.fst := (set_eq_iff.mp h.keys "type").mpr (List.mem_map_of_mem htype)
  simp only [decode_discriminator, ensure_of hkey, field_of h "type" _ htype, sort_keys, as_str, ok_bind, pure_bind,
    ensure_of hknown]
  rfl

theorem decode_state_of {members sorted : List (String × Json)} (h : SortedObj members sorted) (ctx tag : String)
    (htype : ("type", .str tag) ∈ members) (hknown : tag ∈ state_tags) :
    decode_state (.obj sorted) ctx = decode_state_fields sorted ctx tag := by
  simp only [decode_state, as_dict, pure_bind, decode_discriminator_of h ctx "path-state" tag state_tags htype hknown,
    ok_bind]

theorem decode_state_written (state : PathState) (ctx : String) :
    decode_state (sort_keys (state_obj state)) ctx = .ok state := by
  cases state with
  | AbsentState =>
    obtain ⟨sorted, hobj, hsorted⟩ := sorted_obj [("type", .str "absent")] (by simp)
    rw [state_obj, hobj, decode_state_of hsorted ctx "absent" (by simp) (by decide), decode_state_fields, if_pos rfl,
      require_only_of hsorted _ ["type"] rfl]
    rfl
  | FileState s =>
    obtain ⟨sorted, hobj, hsorted⟩ := sorted_obj [("type", .str "file"), ("content_hash", .str s.content_hash),
      ("mode", .int s.mode), ("byte_len", .int s.byte_len)] (by simp)
    rw [state_obj, hobj, decode_state_of hsorted ctx "file" (by simp) (by decide), decode_state_fields,
      if_neg (by decide), if_pos rfl, require_only_of hsorted _ ["type", "content_hash", "mode", "byte_len"] rfl,
      field_of hsorted "content_hash" (.str s.content_hash) (by simp), field_of hsorted "mode" (.int s.mode) (by simp),
      field_of hsorted "byte_len" (.int s.byte_len) (by simp)]
    rfl
  | DirectoryState s =>
    obtain ⟨sorted, hobj, hsorted⟩ := sorted_obj [("type", .str "directory"), ("mode", .int s.mode)] (by simp)
    rw [state_obj, hobj, decode_state_of hsorted ctx "directory" (by simp) (by decide), decode_state_fields,
      if_neg (by decide), if_neg (by decide), if_pos rfl, require_only_of hsorted _ ["type", "mode"] rfl,
      field_of hsorted "mode" (.int s.mode) (by simp)]
    rfl
  | SymlinkState s =>
    obtain ⟨sorted, hobj, hsorted⟩ := sorted_obj [("type", .str "symlink"), ("target", .str s.target),
      ("mode", .int s.mode)] (by simp)
    rw [state_obj, hobj, decode_state_of hsorted ctx "symlink" (by simp) (by decide), decode_state_fields,
      if_neg (by decide), if_neg (by decide), if_neg (by decide),
      require_only_of hsorted _ ["type", "target", "mode"] rfl,
      field_of hsorted "target" (.str s.target) (by simp), field_of hsorted "mode" (.int s.mode) (by simp)]
    rfl

theorem decode_state_field_of {α : Type} {hold : PathState → Option α} {members sorted : List (String × Json)}
    (h : SortedObj members sorted) (ctx tag name : String) {state : PathState} {held : α}
    (hmem : (name, state_obj state) ∈ members) (hheld : hold state = some held) :
    decode_state_field hold sorted ctx tag name = .ok held := by
  rw [decode_state_field, field_of h name _ hmem, decode_state_written, ok_bind, hheld]
  rfl

theorem decode_file_field_of {members sorted : List (String × Json)} (h : SortedObj members sorted)
    (ctx tag name : String) (file : FileState) (hmem : (name, state_obj file) ∈ members) :
    decode_state_field as_file sorted ctx tag name = .ok file := decode_state_field_of h ctx tag name hmem rfl

theorem decode_effect_of {members sorted : List (String × Json)} (h : SortedObj members sorted) (ctx tag : String)
    (htype : ("type", .str tag) ∈ members) (hknown : tag ∈ effect_tags) :
    decode_effect (.obj sorted) ctx = decode_effect_fields sorted ctx tag := by
  simp only [decode_effect, as_dict, pure_bind, decode_discriminator_of h ctx "effect" tag effect_tags htype hknown,
    ok_bind]

theorem decode_effect_written (effect : Effect) (ctx : String) :
    decode_effect (sort_keys (effect_obj effect)) ctx = .ok effect := by
  cases effect with
  | ReplaceFile e =>
    obtain ⟨sorted, hobj, hsorted⟩ := sorted_obj [("type", .str "ReplaceFile"), ("effect_id", .str e.effect_id),
      ("path", .str e.path), ("pre", state_obj e.pre), ("post", state_obj e.post)] (by simp)
    rw [effect_obj, hobj, decode_effect_of hsorted ctx "ReplaceFile" (by simp) (by decide), decode_effect_fields,
      if_pos rfl, require_only_of hsorted _ ["type", "effect_id", "path", "pre", "post"] rfl,
      field_of hsorted "effect_id" (.str e.effect_id) (by simp), field_of hsorted "path" (.str e.path) (by simp),
      decode_file_field_of hsorted ctx _ "pre" e.pre (by simp),
      decode_file_field_of hsorted ctx _ "post" e.post (by simp)]
    rfl
  | CreateFileNoClobber e =>
    obtain ⟨sorted, hobj, hsorted⟩ := sorted_obj [("type", .str "CreateFileNoClobber"), ("effect_id", .str e.effect_id),
      ("path", .str e.path), ("post", state_obj e.post)] (by simp)
    rw [effect_obj, hobj, decode_effect_of hsorted ctx "CreateFileNoClobber" (by simp) (by decide),
      decode_effect_fields, if_neg (by decide), if_pos rfl,
      require_only_of hsorted _ ["type", "effect_id", "path", "post"] rfl,
      field_of hsorted "effect_id" (.str e.effect_id) (by simp), field_of hsorted "path" (.str e.path) (by simp),
      decode_file_field_of hsorted ctx _ "post" e.post (by simp)]
    rfl
  | DeletePath e =>
    obtain ⟨sorted, hobj, hsorted⟩ := sorted_obj [("type", .str "DeletePath"), ("effect_id", .str e.effect_id),
      ("path", .str e.path), ("pre", state_obj e.pre.state)] (by simp)
    have hheld : as_deletable e.pre.state = some e.pre := by cases e.pre <;> rfl
    rw [effect_obj, hobj, decode_effect_of hsorted ctx "DeletePath" (by simp) (by decide), decode_effect_fields,
      if_neg (by decide), if_neg (by decide), if_pos rfl,
      require_only_of hsorted _ ["type", "effect_id", "path", "pre"] rfl,
      field_of hsorted "effect_id" (.str e.effect_id) (by simp), field_of hsorted "path" (.str e.path) (by simp),
      decode_state_field_of hsorted ctx _ "pre" (by simp) hheld]
    rfl
  | MoveNoClobber e =>
    obtain ⟨sorted, hobj, hsorted⟩ := sorted_obj [("type", .str "MoveNoClobber"), ("effect_id", .str e.effect_id),
      ("source", .str e.source), ("destination", .str e.destination), ("source_pre", state_obj e.source_pre)] (by simp)
    rw [effect_obj, hobj, decode_effect_of hsorted ctx "MoveNoClobber" (by simp) (by decide), decode_effect_fields,
      if_neg (by decide), if_neg (by decide), if_neg (by decide), if_pos rfl,
      require_only_of hsorted _ ["type", "effect_id", "source", "destination", "source_pre"] rfl,
      field_of hsorted "effect_id" (.str e.effect_id) (by simp), field_of hsorted "source" (.str e.source) (by simp),
      field_of hsorted "destination" (.str e.destination) (by simp),
      decode_file_field_of hsorted ctx _ "source_pre" e.source_pre (by simp)]
    rfl
  | CreateDirectory e =>
    obtain ⟨sorted, hobj, hsorted⟩ := sorted_obj [("type", .str "CreateDirectory"), ("effect_id", .str e.effect_id),
      ("path", .str e.path), ("post", state_obj e.post)] (by simp)
    have hheld : as_directory e.post = some e.post := rfl
    rw [effect_obj, hobj, decode_effect_of hsorted ctx "CreateDirectory" (by simp) (by decide), decode_effect_fields,
      if_neg (by decide), if_neg (by decide), if_neg (by decide), if_neg (by decide),
      require_only_of hsorted _ ["type", "effect_id", "path", "post"] rfl,
      field_of hsorted "effect_id" (.str e.effect_id) (by simp), field_of hsorted "path" (.str e.path) (by simp),
      decode_state_field_of hsorted ctx _ "post" (by simp) hheld]
    rfl

theorem decode_surface_entry_written (entry : SurfaceEntry) (ctx : String) :
    decode_surface_entry (sort_keys (surface_obj entry)) ctx = .ok entry := by
  obtain ⟨sorted, hobj, hsorted⟩ := sorted_obj [("path", .str entry.path), ("state", state_obj entry.state)] (by simp)
  rw [surface_obj, hobj, decode_surface_entry, as_dict, pure_bind, require_only_of hsorted _ ["path", "state"] rfl,
    field_of hsorted "path" (.str entry.path) (by simp), field_of hsorted "state" (state_obj entry.state) (by simp),
    decode_state_written]
  rfl

theorem decode_dependency_written (dep : Dependency) (ctx : String) :
    decode_dependency (sort_keys (dependency_obj dep)) ctx = .ok dep := by
  obtain ⟨sorted, hobj, hsorted⟩ := sorted_obj [("before", .str dep.before), ("after", .str dep.after)] (by simp)
  rw [dependency_obj, hobj, decode_dependency, as_dict, pure_bind, require_only_of hsorted _ ["before", "after"] rfl,
    field_of hsorted "before" (.str dep.before) (by simp), field_of hsorted "after" (.str dep.after) (by simp)]
  rfl

omit [UnicodeData] in
/-- An array reads back where each of its items does. -/
theorem decode_items_written {α : Type} {encode : α → Json} {decode : Json → String → Except AtomsError α}
    (h : ∀ value ctx, decode (sort_keys (encode value)) ctx = .ok value) (values : List α) (key : String) :
    decode_items decode (sort_keys (.arr (values.map encode))) key = .ok values := by
  rw [sort_keys, sort_items_eq, List.map_map, decode_items, as_list, pure_bind, mapM_eq_ok_iff, List.zipIdx_map,
    List.forall₂_map_left_iff]
  generalize 0 = start
  induction values generalizing start with
  | nil => exact .nil
  | cons value rest ih => exact .cons (h value _) (ih _)

omit [UnicodeData] in
theorem decode_optional_written (value : Option String) (ctx : String) :
    decode_optional (sort_keys (optional_obj value)) ctx = .ok value := by
  cases value <;> rfl

/-- What is decoded of the canonical bytes of a spec is the spec, its set-like fields sorted. -/
theorem from_canonical_bytes_written {spec : TransactionSpec} (hversion : spec.schema_version = SCHEMA_VERSION)
    (hvalid : validate_v2_members (canonicalize spec) = .ok ()) :
    from_canonical_bytes (canonical_bytes spec) = .ok (canonicalize spec) := by
  obtain ⟨sorted, hobj, hsorted⟩ := sorted_obj [("schema_version", .int spec.schema_version),
    ("consumer_tag", .str spec.consumer_tag), ("intent_digest", .str spec.intent_digest),
    ("initial_surface", .arr ((sorted_by SurfaceEntry.path spec.initial_surface).map surface_obj)),
    ("final_surface", .arr ((sorted_by SurfaceEntry.path spec.final_surface).map surface_obj)),
    ("effects", .arr (spec.effects.map effect_obj)),
    ("dependencies", .arr ((spec.dependencies.insertionSort Dependency.le).map dependency_obj)),
    ("fulfills", optional_obj spec.fulfills), ("registered_paths", .arr (spec.registered_paths.map .str))] (by simp)
  have hload : loads (canonical_json spec) = .ok (.obj sorted) := by
    rw [canonical_json, loads_dumps false (plain_canonical spec), canonical_obj, hobj]
  have hkeys := require_only_of hsorted "spec" ["schema_version", "consumer_tag", "intent_digest", "initial_surface",
    "final_surface", "effects", "dependencies", "fulfills", "registered_paths"] rfl
  have hversion_field := field_of hsorted "schema_version" (.int spec.schema_version) (by simp)
  have htag := field_of hsorted "consumer_tag" (.str spec.consumer_tag) (by simp)
  have hdigest := field_of hsorted "intent_digest" (.str spec.intent_digest) (by simp)
  have hinitial := field_of hsorted "initial_surface"
    (.arr ((sorted_by SurfaceEntry.path spec.initial_surface).map surface_obj)) (by simp)
  have hfinal := field_of hsorted "final_surface"
    (.arr ((sorted_by SurfaceEntry.path spec.final_surface).map surface_obj)) (by simp)
  have heffects := field_of hsorted "effects" (.arr (spec.effects.map effect_obj)) (by simp)
  have hdependencies := field_of hsorted "dependencies"
    (.arr ((spec.dependencies.insertionSort Dependency.le).map dependency_obj)) (by simp)
  have hfulfills := field_of hsorted "fulfills" (optional_obj spec.fulfills) (by simp)
  have hregistered := field_of hsorted "registered_paths" (.arr (spec.registered_paths.map .str)) (by simp)
  have hversion_int : as_int (sort_keys (.int spec.schema_version)) "schema_version" = .ok spec.schema_version := rfl
  have htext : ∀ (value ctx : String), as_str (sort_keys (.str value)) ctx = .ok value := fun _ _ => rfl
  unfold canonicalize at hvalid
  rw [from_canonical_bytes, canonical_bytes, utf8_decode_utf8]
  simp only [from_canonical_json, hload]
  simp only [from_canonical_obj, as_dict, pure_bind, hkeys, ok_bind, hversion_field, htag, hdigest, hinitial, hfinal,
    heffects, hdependencies, hfulfills, hregistered, hversion_int, ensure_of hversion, htext,
    decode_items_written decode_surface_entry_written, decode_items_written decode_dependency_written,
    decode_items_written decode_effect_written, decode_items_written htext, decode_optional_written, hvalid]
  rfl

end atoms.canonical
