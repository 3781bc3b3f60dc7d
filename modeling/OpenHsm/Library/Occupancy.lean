import Mathlib.Tactic

/-!
How many of finitely many threads are at a place, over arbitrary thread and location
types.

* `occupancy P f`: the number of threads `i` with `P (f i)`.
* `occupancy_update`: what the move of one thread does to it; `occupancy_enter`,
  `occupancy_leave` and `occupancy_keep` are its three cases.
* `occupancy_mono`, `occupancy_lt`: what many moves at once do to it.
* `occupancy_pos_iff`, `occupancy_eq_zero_iff`: whether there is such a thread.
* `load weight f`: the same with a weight for every place, `load_update` and
  `load_eq_zero_iff`.
-/

namespace Occupancy

variable {ι α : Type*} [Fintype ι] [DecidableEq ι] (P : α → Prop)
  [DecidablePred P]

/-- The number of threads whose location satisfies `P`. -/
def occupancy (f : ι → α) : ℕ := (Finset.univ.filter fun i => P (f i)).card

variable {P} {f : ι → α} {i : ι} {a : α}

omit [DecidableEq ι] in
/-- The places are counted thread by thread. -/
lemma occupancy_eq_sum : occupancy P f = ∑ i, if P (f i) then 1 else 0 :=
  Finset.card_filter _ _

/-- **One thread moves**: the count changes by that thread only. -/
theorem occupancy_update :
    occupancy P (Function.update f i a) + (if P (f i) then 1 else 0)
      = occupancy P f + if P a then 1 else 0 := by
  rw [occupancy_eq_sum, occupancy_eq_sum, ← Finset.add_sum_erase _ _ (Finset.mem_univ i),
    ← Finset.add_sum_erase (a := i) _ (fun j => if P (f j) then 1 else 0) (Finset.mem_univ i)]
  have hrest : ∑ j ∈ Finset.univ.erase i, (if P (Function.update f i a j) then 1 else 0)
      = ∑ j ∈ Finset.univ.erase i, if P (f j) then 1 else 0 :=
    Finset.sum_congr rfl fun j hj => by
      rw [Function.update_of_ne (Finset.ne_of_mem_erase hj)]
  rw [hrest, Function.update_self]
  omega

lemma occupancy_enter (hf : ¬ P (f i)) (ha : P a) :
    occupancy P (Function.update f i a) = occupancy P f + 1 := by
  have := occupancy_update (P := P) (f := f) (i := i) (a := a)
  rw [if_neg hf, if_pos ha] at this
  exact this

lemma occupancy_leave (hf : P (f i)) (ha : ¬ P a) :
    occupancy P (Function.update f i a) + 1 = occupancy P f := by
  have := occupancy_update (P := P) (f := f) (i := i) (a := a)
  rw [if_pos hf, if_neg ha] at this
  exact this

lemma occupancy_keep (h : P a ↔ P (f i)) :
    occupancy P (Function.update f i a) = occupancy P f := by
  have := occupancy_update (P := P) (f := f) (i := i) (a := a)
  by_cases hf : P (f i)
  · rw [if_pos hf, if_pos (h.mpr hf)] at this; omega
  · rw [if_neg hf, if_neg fun ha => hf (h.mp ha)] at this; omega

omit [DecidableEq ι]

lemma occupancy_pos_iff : 0 < occupancy P f ↔ ∃ i, P (f i) := by
  rw [occupancy, Finset.card_pos]
  exact ⟨fun ⟨i, hi⟩ => ⟨i, (Finset.mem_filter.mp hi).2⟩,
    fun ⟨i, hi⟩ => ⟨i, Finset.mem_filter.mpr ⟨Finset.mem_univ i, hi⟩⟩⟩

lemma occupancy_mono {g : ι → α} (h : ∀ i, P (f i) → P (g i)) : occupancy P f ≤ occupancy P g :=
  Finset.card_le_card fun i hi => by
    rw [Finset.mem_filter] at hi ⊢
    exact ⟨hi.1, h i hi.2⟩

/-- A thread arrives and none leaves. -/
lemma occupancy_lt {g : ι → α} (h : ∀ i, P (f i) → P (g i)) (hf : ¬ P (f i)) (hg : P (g i)) :
    occupancy P f < occupancy P g := by
  refine Finset.card_lt_card (Finset.ssubset_iff_subset_ne.mpr ⟨fun j hj => ?_, fun he => hf ?_⟩)
  · rw [Finset.mem_filter] at hj ⊢
    exact ⟨hj.1, h j hj.2⟩
  · have hi : i ∈ Finset.univ.filter fun j => P (g j) := by simpa using hg
    rw [← he, Finset.mem_filter] at hi
    exact hi.2

lemma occupancy_eq_zero_iff : occupancy P f = 0 ↔ ∀ i, ¬ P (f i) := by
  rw [← not_iff_not, ← ne_eq, ← Nat.pos_iff_ne_zero, occupancy_pos_iff]
  simp

/-! ### Weighted places -/

section Load

variable (weight : α → ℕ)

/-- The weights of the places of all threads together. -/
def load (f : ι → α) : ℕ := ∑ i, weight (f i)

/-- **One thread moves**: the load changes by the weights of its two places. -/
theorem load_update [DecidableEq ι] :
    load weight (Function.update f i a) + weight (f i) = load weight f + weight a := by
  have hrest : ∑ j ∈ Finset.univ.erase i, weight (Function.update f i a j)
      = ∑ j ∈ Finset.univ.erase i, weight (f j) :=
    Finset.sum_congr rfl fun j hj => by
      rw [Function.update_of_ne (Finset.ne_of_mem_erase hj)]
  have hf := Finset.add_sum_erase Finset.univ (fun j => weight (f j)) (Finset.mem_univ i)
  have hu := Finset.add_sum_erase Finset.univ (fun j => weight (Function.update f i a j))
    (Finset.mem_univ i)
  rw [Function.update_self, hrest] at hu
  rw [load, load]
  omega

lemma load_eq_zero_iff : load weight f = 0 ↔ ∀ i, weight (f i) = 0 := by
  rw [load, Finset.sum_eq_zero_iff]
  simp

end Load

end Occupancy
