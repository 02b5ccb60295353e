/-
  Placing demands where most is free.

  There are places, each for units of one kind, with some units free, and a list of demands for
  units of one kind each.  A demand goes to one place.  `Fits` says that there is a plan for all of
  them at all; `FitsMostFree` that they all find room when each in turn goes to a place of its kind
  with most free, without looking ahead.

  The second is enough for the first, and not the other way round.  Which of two places with the
  same room is taken makes no difference: exchanging them is a symmetry of what is left.
-/
import Mathlib.Algebra.Ring.Int.Defs
import Mathlib.Algebra.BigOperators.Group.List.Basic
import Mathlib.Algebra.Order.Group.Int
import Mathlib.Logic.Equiv.Basic
import Mathlib.Logic.Function.Basic

namespace Allocation

/-- A demand for some units of one kind, which are to be taken from one place. -/
structure Demand (κ : Type) where
  /-- Of what kind. -/
  kind : κ
  /-- How many units. -/
  quantity : Int

variable {ι κ : Type} [DecidableEq ι] {kind : ι → Option κ} {free : ι → Int}
variable {d : Demand κ} {demands : List (Demand κ)} {i j : ι}

/-- What a plan takes from a place, over all demands that it puts there. -/
def taken (plan : List (ι × Demand κ)) (i : ι) : Int :=
  ((plan.filter fun p => p.1 = i).map fun p => p.2.quantity).sum

/-- Each demand has a place of its kind, and no place gives more than is free there.  Nothing is
    said of how the plan was found; the places may be chosen with all demands in view. -/
def Fits (kind : ι → Option κ) (free : ι → Int) (demands : List (Demand κ)) : Prop :=
  ∃ plan : List (ι × Demand κ), plan.map Prod.snd = demands ∧
    (∀ p ∈ plan, kind p.1 = some p.2.kind) ∧ ∀ p ∈ plan, taken plan p.1 ≤ free p.1

/-- What is free when `n` units of a place are taken. -/
def take (free : ι → Int) (i : ι) (n : Int) : ι → Int := Function.update free i (free i - n)

/-- No place of the kind has more free.  There may be several such places. -/
def IsMostFree (kind : ι → Option κ) (free : ι → Int) (k : κ) (i : ι) : Prop :=
  kind i = some k ∧ ∀ j, kind j = some k → free j ≤ free i

/-- Each demand in turn finds room at a place of its kind with most free.  This is how one serves
    the demands in their order without looking ahead, and it may fail where a plan exists: two
    demands of 4 and 5 fit two places with 4 and 5 free only if the first does not take the larger
    place. -/
def FitsMostFree (kind : ι → Option κ) : (ι → Int) → List (Demand κ) → Prop
  | _, [] => True
  | free, d :: demands => ∃ i, IsMostFree kind free d.kind i ∧ d.quantity ≤ free i ∧
      FitsMostFree kind (take free i d.quantity) demands

/-! ## The plan it makes -/

/-- What a plan takes is the sum over its entries. -/
theorem taken_cons (p : ι × Demand κ) (plan : List (ι × Demand κ)) (i : ι) :
    taken (p :: plan) i = (if p.1 = i then p.2.quantity else 0) + taken plan i := by
  unfold taken
  by_cases h : p.1 = i
  · simp [h]
  · simp [h]

/-- Nothing is taken from a place that is not in the plan. -/
theorem taken_eq_zero {plan : List (ι × Demand κ)} (h : ∀ p ∈ plan, p.1 ≠ i) :
    taken plan i = 0 := by
  have hnone : plan.filter (fun p => p.1 = i) = [] := by
    rw [List.filter_eq_nil_iff]
    intro p hp
    simpa using h p hp
  unfold taken
  rw [hnone]
  rfl

/-- **Demands that find room one after the other have a plan**, by induction on them: the plan for
    the rest, made for what the first one leaves, is extended by the place that the first one took.
    -/
theorem FitsMostFree.fits (h : FitsMostFree kind free demands) : Fits kind free demands := by
  induction demands generalizing free with
  | nil =>
    exact ⟨[], rfl, fun _ h => absurd h List.not_mem_nil, fun _ h => absurd h List.not_mem_nil⟩
  | cons d demands ih =>
    obtain ⟨i, ⟨hkind, -⟩, hle, hrest⟩ := h
    obtain ⟨plan, hplan, hkinds, hroom⟩ := ih hrest
    refine ⟨(i, d) :: plan, by rw [List.map_cons, hplan], ?_, ?_⟩
    · intro p hp
      rcases List.mem_cons.mp hp with rfl | hp
      · exact hkind
      · exact hkinds p hp
    -- at `i` the rest of the plan was made with the demand out of the way
    have hi : d.quantity + taken plan i ≤ free i := by
      by_cases hused : ∃ p ∈ plan, p.1 = i
      · obtain ⟨p, hp, rfl⟩ := hused
        have hle := hroom p hp
        rw [take, Function.update_self] at hle
        omega
      · have hzero : taken plan i = 0 := taken_eq_zero fun p hp hpi => hused ⟨p, hp, hpi⟩
        omega
    intro p hp
    show taken ((i, d) :: plan) p.1 ≤ free p.1
    rw [taken_cons]
    by_cases hpi : i = p.1
    · rw [if_pos hpi, ← hpi]
      exact hi
    · rw [if_neg hpi, zero_add]
      rcases List.mem_cons.mp hp with rfl | hp
      · exact absurd rfl hpi
      · have hle := hroom p hp
        rwa [take, Function.update_of_ne (Ne.symm hpi)] at hle

/-! ## Which place of the largest -/

/-- Places of one kind may be renamed among themselves.  What is asked of a place is its kind and
    what it has free, and both go with the name. -/
theorem FitsMostFree.of_perm (σ : Equiv.Perm ι) (hσ : ∀ i, kind (σ i) = kind i)
    (h : FitsMostFree kind (free ∘ σ) demands) : FitsMostFree kind free demands := by
  induction demands generalizing free with
  | nil => exact trivial
  | cons d demands ih =>
    obtain ⟨i, ⟨hkind, hmost⟩, hle, hrest⟩ := h
    refine ⟨σ i, ⟨(hσ i).trans hkind, fun j hj => ?_⟩, hle, ih ?_⟩
    · have hj' : kind (σ.symm j) = some d.kind := by
        rw [← hσ, σ.apply_symm_apply]
        exact hj
      have hle' := hmost (σ.symm j) hj'
      simpa using hle'
    · have hsame : take free (σ i) d.quantity ∘ σ = take (free ∘ σ) i d.quantity := by
        funext x
        by_cases hx : x = i
        · simp [take, hx]
        · have hne : σ x ≠ σ i := fun h => hx (σ.injective h)
          simp [take, hx, hne]
      rw [hsame]
      exact hrest

/-- **The next demand may go to any of the places with most free.**  Two such places have the same
    room, so exchanging them leaves what is free as it was, and the rest of the demands do not
    notice.  So a tie may be broken in any way, as it is by the order of the rows. -/
theorem fitsMostFree_cons (h : IsMostFree kind free d.kind i) :
    FitsMostFree kind free (d :: demands) ↔
      d.quantity ≤ free i ∧ FitsMostFree kind (take free i d.quantity) demands := by
  constructor
  · rintro ⟨j, hj, hle, hrest⟩
    have heq : free i = free j := le_antisymm (hj.2 i h.1) (h.2 j hj.1)
    refine ⟨heq ▸ hle, FitsMostFree.of_perm (Equiv.swap i j) (fun x => ?_) ?_⟩
    · rw [Equiv.swap_apply_def]
      split_ifs with hxi hxj
      · rw [hxi, hj.1, h.1]
      · rw [hxj, hj.1, h.1]
      · rfl
    · have hsame : take free i d.quantity ∘ Equiv.swap i j = take free j d.quantity := by
        funext x
        rw [Function.comp_apply, Equiv.swap_apply_def]
        unfold take
        split_ifs with hxi hxj
        · rcases eq_or_ne i j with hij | hij
          · rw [hxi, ← hij]
          · rw [hxi, Function.update_of_ne hij.symm, Function.update_of_ne hij, heq]
        · rw [hxj, Function.update_self, Function.update_self, heq]
        · rw [Function.update_of_ne hxi, Function.update_of_ne hxj]
      rw [hsame]
      exact hrest
  · rintro ⟨hle, hrest⟩
    exact ⟨i, h, hle, hrest⟩

/-- Where no place has room for the first demand, the demands do not fit, whatever follows it. -/
theorem not_fitsMostFree_cons (h : ∀ j, kind j = some d.kind → free j < d.quantity) :
    ¬FitsMostFree kind free (d :: demands) := by
  rintro ⟨i, ⟨hkind, -⟩, hle, -⟩
  have hlt := h i hkind
  omega

end Allocation
