import Atoms.Library.Keyed
import Mathlib.SetTheory.Cardinal.Arithmetic

open keyed

namespace matching

variable {α β : Type}

/-- Pairs that hold equal values on one side exactly where they hold equal values on the other. -/
def Matching (pairs : List (α × β)) : Prop := ∀ p ∈ pairs, ∀ q ∈ pairs, p.1 = q.1 ↔ p.2 = q.2

theorem matching_nil : Matching ([] : List (α × β)) := fun _ hp => nomatch hp

theorem Matching.cons {x : α} {y : β} {pairs : List (α × β)} (h : Matching pairs)
    (hhead : ∀ q ∈ pairs, x = q.1 ↔ y = q.2) : Matching ((x, y) :: pairs) := by
  intro p hp q hq
  rw [List.mem_cons] at hp hq
  obtain rfl | hp := hp
  · obtain rfl | hq := hq
    · exact ⟨fun _ => rfl, fun _ => rfl⟩
    · exact hhead q hq
  · obtain rfl | hq := hq
    · rw [eq_comm, hhead p hp, eq_comm]
    · exact h p hp q hq

/-- On an infinite type, what is injective on finitely many values extends to an injective function. -/
theorem exists_injective_extension [Infinite α] [DecidableEq α] (s : Finset α) {f : α → α} (hf : Set.InjOn f s) :
    ∃ g : α → α, Function.Injective g ∧ ∀ x ∈ s, g x = f x := by
  have hcard : Cardinal.mk ↥((s : Set α)ᶜ) = Cardinal.mk ↥((s.image f : Set α)ᶜ) := by
    rw [Cardinal.mk_compl_finset_of_infinite, Cardinal.mk_compl_finset_of_infinite]
  -- the values outside are as many as the values that `f` leaves free
  obtain ⟨rest⟩ := Cardinal.eq.mp hcard
  refine ⟨fun x => if h : x ∈ s then f x else rest ⟨x, h⟩, ?_, fun x hx => dif_pos hx⟩
  have hfree : ∀ x ∈ s, ∀ y, f x ≠ rest y := fun x hx y heq =>
    (rest y).2 (heq ▸ Finset.mem_coe.mpr (Finset.mem_image_of_mem f hx))
  intro x y hxy
  by_cases hx : x ∈ s
  · by_cases hy : y ∈ s
    · simp only [dif_pos hx, dif_pos hy] at hxy
      exact hf hx hy hxy
    · simp only [dif_pos hx, dif_neg hy] at hxy
      exact absurd hxy (hfree x hx _)
  · by_cases hy : y ∈ s
    · simp only [dif_neg hx, dif_pos hy] at hxy
      exact absurd hxy.symm (hfree y hy _)
    · simp only [dif_neg hx, dif_neg hy] at hxy
      exact congrArg Subtype.val (rest.injective (Subtype.ext hxy))

/-- Matching pairs are the pairs of an injective renaming. -/
theorem Matching.exists_renaming [Infinite α] [DecidableEq α] {pairs : List (α × α)} (h : Matching pairs) :
    ∃ rename : α → α, Function.Injective rename ∧ ∀ p ∈ pairs, rename p.1 = p.2 := by
  have hfind : ∀ p ∈ pairs, ((find_key Prod.fst pairs p.1).map Prod.snd).getD p.1 = p.2 := by
    intro p hp
    obtain ⟨q, hq⟩ : ∃ q, find_key Prod.fst pairs p.1 = some q :=
      Option.isSome_iff_exists.mp (find_key_isSome_iff.mpr ⟨p, hp, rfl⟩)
    obtain ⟨hmem, hkey⟩ := find_key_some hq
    rw [hq]
    exact (h q hmem p hp).mp hkey
  have hinjective : Set.InjOn (fun x => ((find_key Prod.fst pairs x).map Prod.snd).getD x)
      ((pairs.map Prod.fst).toFinset : Set α) := by
    intro x hx y hy heq
    obtain ⟨p, hp, rfl⟩ := List.mem_map.mp (List.mem_toFinset.mp (Finset.mem_coe.mp hx))
    obtain ⟨q, hq, rfl⟩ := List.mem_map.mp (List.mem_toFinset.mp (Finset.mem_coe.mp hy))
    simp only [hfind p hp, hfind q hq] at heq
    exact (h p hp q hq).mpr heq
  obtain ⟨rename, hrename, hextends⟩ := exists_injective_extension _ hinjective
  refine ⟨rename, hrename, fun p hp => ?_⟩
  rw [hextends p.1 (List.mem_toFinset.mpr (List.mem_map_of_mem hp))]
  exact hfind p hp

end matching
