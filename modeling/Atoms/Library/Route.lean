import Mathlib.Data.List.Induction

namespace routes

variable {V L : Type} {edge edge' : V → L → Option V} {v w : V} {labels front : List L} {label : L}

/-- Where the labels lead from a vertex, edge by edge. -/
def route (edge : V → L → Option V) (v : V) (labels : List L) : Option V := labels.foldlM edge v

@[simp] theorem route_nil (edge : V → L → Option V) (v : V) : route edge v [] = some v := rfl

theorem route_cons (edge : V → L → Option V) (v : V) (label : L) (labels : List L) :
    route edge v (label :: labels) = (edge v label).bind fun w => route edge w labels := List.foldlM_cons

theorem route_append (edge : V → L → Option V) (v : V) (front labels : List L) :
    route edge v (front ++ labels) = (route edge v front).bind fun w => route edge w labels := List.foldlM_append

theorem route_concat (edge : V → L → Option V) (v : V) (front : List L) (label : L) :
    route edge v (front ++ [label]) = (route edge v front).bind fun w => edge w label := by
  rw [route_append]
  refine congrArg _ (funext fun w => ?_)
  rw [route_cons]
  cases edge w label <;> rfl

/-- A route depends on the edges that it passes. -/
theorem route_congr (h : ∀ front w, route edge v front = some w → edge' w = edge w) (labels : List L) :
    route edge' v labels = route edge v labels := by
  induction labels using List.reverseRecOn with
  | nil => rfl
  | append_singleton front label ih =>
    rw [route_concat, route_concat, ih]
    cases hfront : route edge v front with
    | none => rfl
    | some w => rw [Option.bind_some, Option.bind_some, h front w hfront]

/-- Where more edges are, the routes that were there are there. -/
theorem route_mono (h : ∀ w label u, edge w label = some u → edge' w label = some u) (hroute : route edge v labels = some w) :
    route edge' v labels = some w := by
  induction labels generalizing v with
  | nil => exact hroute
  | cons label labels ih =>
    rw [route_cons, Option.bind_eq_some_iff] at hroute
    obtain ⟨u, hedge, hroute⟩ := hroute
    rw [route_cons, h v label u hedge]
    exact ih hroute

/-- Each vertex that is reached from `v` is reached along one route. -/
def Single (edge : V → L → Option V) (v : V) : Prop :=
  ∀ labels labels' w, route edge v labels = some w → route edge v labels' = some w → labels = labels'

/-- Where edges are gone, what is reached is reached along one route still. -/
theorem Single.anti (h : Single edge v) (hsub : ∀ w label u, edge' w label = some u → edge w label = some u) :
    Single edge' v := fun labels labels' w hleft hright =>
  h labels labels' w (route_mono hsub hleft) (route_mono hsub hright)

/-- One edge is new, and it leads to a vertex that no edge leaves. -/
structure Added (edge edge' : V → L → Option V) (source : V) (label : L) (target : V) : Prop where
  new : edge' source label = some target
  absent : edge source label = none
  same : ∀ w other, (w, other) ≠ (source, label) → edge' w other = edge w other
  sink : ∀ other, edge' target other = none

namespace Added

variable {source target : V}

theorem mono (h : Added edge edge' source label target) : ∀ w other u, edge w other = some u → edge' w other = some u := by
  intro w other u hedge
  by_cases heq : (w, other) = (source, label)
  · obtain ⟨rfl, rfl⟩ := Prod.mk.inj heq
    rw [h.absent] at hedge
    cases hedge
  · rw [h.same w other heq, hedge]

/-- The routes along the new edge end with it. -/
theorem route_iff (h : Added edge edge' source label target) : route edge' v labels = some w ↔
    route edge v labels = some w ∨
      w = target ∧ ∃ front, labels = front ++ [label] ∧ route edge v front = some source := by
  constructor
  · intro hroute
    induction labels using List.reverseRecOn generalizing w with
    | nil => exact .inl hroute
    | append_singleton front last ih =>
      rw [route_concat, Option.bind_eq_some_iff] at hroute
      obtain ⟨u, hfront, hedge⟩ := hroute
      rcases ih hfront with hold | ⟨rfl, _⟩
      · by_cases heq : (u, last) = (source, label)
        · obtain ⟨rfl, rfl⟩ := Prod.mk.inj heq
          rw [h.new, Option.some.injEq] at hedge
          exact .inr ⟨hedge.symm, front, rfl, hold⟩
        · rw [h.same u last heq] at hedge
          refine .inl ?_
          rw [route_concat, hold]
          exact hedge
      · rw [h.sink] at hedge
        cases hedge
  · rintro (hold | ⟨rfl, front, rfl, hfront⟩)
    · exact route_mono h.mono hold
    · rw [route_concat, route_mono h.mono hfront]
      exact h.new

/-- The vertex that is new is reached along one route. -/
theorem single (h : Added edge edge' source label target) (hsingle : Single edge v)
    (hnew : ∀ labels, route edge v labels ≠ some target) : Single edge' v := by
  intro labels labels' w hleft hright
  rcases h.route_iff.mp hleft with hleft | ⟨rfl, front, rfl, hfront⟩
  · rcases h.route_iff.mp hright with hright | ⟨rfl, _⟩
    · exact hsingle labels labels' w hleft hright
    · exact absurd hleft (hnew labels)
  · rcases h.route_iff.mp hright with hright | ⟨_, front', rfl, hfront'⟩
    · exact absurd hright (hnew labels')
    · rw [hsingle front front' source hfront hfront']

end Added

end routes
