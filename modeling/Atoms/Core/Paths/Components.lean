import Atoms.Core.Paths

open atoms.effects

namespace atoms.paths

theorem split_eq_splitOn (separator : Char) (value : List Char) : split separator value = value.splitOn separator := by
  induction value with
  | nil => rfl
  | cons c rest ih =>
    rw [split, List.splitOn_cons_eq_if_modifyHead, ih]
    simp only [beq_iff_eq]
    split
    · rfl
    · split <;> simp_all

/-- `"/".join(parts)` -/
def joined (parts : List String) : String := String.intercalate "/" parts

/-- No part holds a separator. -/
def Plain (parts : List String) : Prop := ∀ part ∈ parts, '/' ∉ part.toList

theorem components_ne_nil (value : RelPath) : components value ≠ [] := by
  rw [components, split_eq_splitOn]
  simp

theorem joined_components (value : RelPath) : joined (components value) = value := by
  apply String.toList_inj.mp
  rw [joined, String.toList_intercalate, components, List.map_map, split_eq_splitOn]
  have hid : (String.toList ∘ String.ofList) = (id : List Char → List Char) := by
    funext chars
    exact String.toList_ofList
  rw [hid, List.map_id]
  exact List.intercalate_splitOn '/'

theorem components_joined {parts : List String} (hplain : Plain parts) (hne : parts ≠ []) :
    components (joined parts) = parts := by
  have hsplit : (['/'].intercalate (parts.map String.toList)).splitOn '/' = parts.map String.toList := by
    refine List.splitOn_intercalate '/' ?_ (by simpa using hne)
    intro chars hchars
    obtain ⟨part, hpart, rfl⟩ := List.mem_map.mp hchars
    exact hplain part hpart
  have hslash : "/".toList = ['/'] := rfl
  rw [components, split_eq_splitOn, joined, String.toList_intercalate, hslash, hsplit, List.map_map]
  have hid : (String.ofList ∘ String.toList) = (id : String → String) := by
    funext part
    exact String.ofList_toList
  rw [hid, List.map_id]

theorem not_mem_of_mem_split {separator : Char} {value part : List Char} (h : part ∈ split separator value) :
    separator ∉ part := by
  induction value generalizing part with
  | nil =>
    rw [split, List.mem_singleton] at h
    subst h
    exact List.not_mem_nil
  | cons c rest ih =>
    rw [split] at h
    split at h
    · obtain rfl | h := List.mem_cons.mp h
      · exact List.not_mem_nil
      · exact ih h
    · rename_i hc
      cases hparts : split separator rest with
      | nil =>
        rw [split_eq_splitOn] at hparts
        exact absurd hparts (by simp)
      | cons head parts =>
        rw [hparts] at h ih
        obtain rfl | h := List.mem_cons.mp h
        · rw [List.mem_cons, not_or]
          exact ⟨Ne.symm hc, ih List.mem_cons_self⟩
        · exact ih (List.mem_cons_of_mem _ h)

theorem plain_components (value : RelPath) : Plain (components value) := by
  intro part hpart
  obtain ⟨chars, hchars, rfl⟩ := List.mem_map.mp hpart
  rw [String.toList_ofList]
  exact not_mem_of_mem_split hchars

theorem Plain.sublist {parts others : List String} (h : Plain parts) (hsub : others.Sublist parts) : Plain others :=
  fun part hpart => h part (hsub.subset hpart)

/-- Two paths with the same components are one path. -/
theorem components_injective : Function.Injective components := by
  intro left right h
  rw [← joined_components left, h, joined_components]

/-- A slash parts the components before it from the components after it. -/
theorem components_append (above rest : String) : components (above ++ "/" ++ rest) = components above ++ components rest := by
  rw [components, components, components, String.toList_append, String.toList_append, split_eq_splitOn, split_eq_splitOn,
    split_eq_splitOn, ← List.map_append, List.append_assoc]
  exact congrArg _ (List.splitOn_append_cons_self _ _)

theorem length_components (value : RelPath) : (components value).length = value.toList.count '/' + 1 := by
  have hlength : ∀ chars : List Char, (split '/' chars).length = chars.count '/' + 1 := by
    intro chars
    induction chars with
    | nil => rfl
    | cons c rest ih =>
      rw [split, List.count_cons]
      by_cases hc : c = '/'
      · rw [if_pos hc, List.length_cons, ih, if_pos (by simpa using hc)]
      · rw [if_neg hc, if_neg (by simpa using hc)]
        cases hparts : split '/' rest with
        | nil =>
          rw [hparts] at ih
          cases ih
        | cons part parts =>
          rw [hparts] at ih
          exact ih
  rw [components, List.length_map, hlength]

/-- A path lies beneath another. -/
def Beneath (path above : RelPath) : Prop :=
  ∃ n < (components path).length, components above = (components path).take n

theorem Beneath.length_lt {path above : RelPath} (h : Beneath path above) : (components above).length < (components path).length := by
  obtain ⟨n, hn, habove⟩ := h
  rw [habove, List.length_take]
  omega

/-- A path lies beneath another when it goes on after it with a slash. -/
theorem beneath_iff_starts_with {path above : RelPath} : Beneath path above ↔ starts_with (above ++ "/") path = true := by
  rw [starts_with, List.isPrefixOf_iff_prefix]
  constructor
  · rintro ⟨n, hn, habove⟩
    have hleft : (components path).take n ≠ [] := habove ▸ components_ne_nil above
    have hright : (components path).drop n ≠ [] := List.length_pos_iff.mp (by rw [List.length_drop]; omega)
    have hpath : path = above ++ "/" ++ joined ((components path).drop n) := by
      rw [← joined_components above, habove, joined, joined, ← String.intercalate_append_of_ne_nil hleft hright,
        List.take_append_drop]
      exact (joined_components path).symm
    rw [hpath, String.toList_append (s := above ++ "/")]
    exact List.prefix_append _ _
  · rintro ⟨rest, hrest⟩
    have hpath : path = above ++ "/" ++ String.ofList rest := by
      apply String.toList_inj.mp
      rw [String.toList_append, String.toList_ofList, hrest]
    refine ⟨(components above).length, ?_, ?_⟩
    · rw [hpath, components_append, List.length_append]
      have hpos := List.length_pos_iff.mpr (components_ne_nil (String.ofList rest))
      omega
    · rw [hpath, components_append, List.take_left]

/-- Of two paths above a path, the shorter one is the other or lies above the other. -/
theorem Beneath.comparable {path above other : RelPath} (habove : Beneath path above) (hother : Beneath path other)
    (hle : (components other).length ≤ (components above).length) : other = above ∨ Beneath above other := by
  obtain ⟨n, hn, habove⟩ := habove
  obtain ⟨m, hm, hother⟩ := hother
  have hlengths : m ≤ n := by
    rw [habove, hother, List.length_take, List.length_take] at hle
    omega
  obtain rfl | hlt := Nat.eq_or_lt_of_le hlengths
  · exact .inl (components_injective (hother.trans habove.symm))
  · refine .inr ⟨m, ?_, ?_⟩
    · rw [habove, List.length_take]
      omega
    · rw [habove, List.take_take, hother]
      congr 1
      omega

/-- A prefix has a path's text exactly when it has the path's components. -/
theorem joined_eq_iff {parts : List String} (hplain : Plain parts) (hne : parts ≠ []) (value : RelPath) :
    joined parts = value ↔ parts = components value := by
  constructor
  · rintro rfl
    exact (components_joined hplain hne).symm
  · rintro rfl
    exact joined_components value

end atoms.paths
