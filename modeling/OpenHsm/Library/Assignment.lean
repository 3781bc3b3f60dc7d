import Mathlib.Data.PEquiv
import OpenHsm.Library.LockOrder
import OpenHsm.Library.Occupancy

/-!
Keys at places, over arbitrary types of places and keys, and a table of marks that is to show them.

* An assignment is a partial equivalence `e : ι ≃. κ`: no place has two keys and no key two
  places.  `⊥` is the empty one; `put` and `vacate` add a key and clear a place.
* `Covers`: a table shows every key at its place, and perhaps marks that no key belongs to.
* `Covers.enter`, `Covers.release`, `Covers.leave`: it goes on covering when a key is put where
  it has no mark, or leaves and a mark with its name is wiped, or leaves and its mark stays.
* `taken`: the number of places with a mark, or with a key; the table shows nothing but the
  assignment when it is the same for both (`Covers.shows_iff`).
-/

namespace Assignment

open LockOrder Occupancy

variable {ι κ : Type*} [DecidableEq ι]

/-- A key is put at a place, both of them free. -/
def put [DecidableEq κ] (e : ι ≃. κ) (i : ι) (k : κ) (hi : e i = none) (hk : e.symm k = none) :
    ι ≃. κ where
  toFun := Function.update e i (some k)
  invFun := Function.update e.symm k (some i)
  inv a b := by
    have howned : Owned e e.symm := fun _ _ => e.eq_some_iff.symm
    exact (howned.acquire hi hk a b).symm

/-- A place is cleared. -/
def vacate (e : ι ≃. κ) (i : ι) : ι ≃. κ := (PEquiv.ofSet {i}ᶜ).trans e

variable {e : ι ≃. κ} {i j a : ι} {k b : κ}

lemma mem_put [DecidableEq κ] {hi : e i = none} {hk : e.symm k = none} :
    b ∈ put e i k hi hk a ↔ (a = i ∧ b = k) ∨ b ∈ e a := by
  show Function.update e i (some k) a = some b ↔ _
  by_cases ha : a = i
  · subst ha
    simp [hi, eq_comm]
  · simp [ha]

lemma mem_vacate : b ∈ vacate e i a ↔ a ≠ i ∧ b ∈ e a := by
  rw [vacate, PEquiv.mem_trans]
  constructor
  · rintro ⟨c, hc, hb⟩
    obtain ⟨rfl, hne⟩ := PEquiv.mem_ofSet_iff.mp hc
    exact ⟨hne, hb⟩
  · rintro ⟨hne, hb⟩
    exact ⟨a, PEquiv.mem_ofSet_iff.mpr ⟨rfl, hne⟩, hb⟩

/-- The key of the place is the only one that goes. -/
lemma mem_vacate_iff (hk : k ∈ e i) : b ∈ vacate e i a ↔ b ≠ k ∧ b ∈ e a := by
  rw [mem_vacate]
  refine and_congr_left fun hb => not_congr ⟨?_, ?_⟩
  · rintro rfl
    exact Option.mem_unique hb hk
  · rintro rfl
    exact e.inj hb hk

/-- Clearing a place changes the assignment there only. -/
lemma coe_vacate : ⇑(vacate e i) = Function.update e i none := by
  funext a
  refine Option.ext fun b => ?_
  show b ∈ vacate e i a ↔ _
  rw [mem_vacate]
  by_cases ha : a = i <;> simp [ha]

/-! ### Tables -/

/-- The table shows every key at its place. -/
def Covers (t : ι → Option κ) (e : ι ≃. κ) : Prop := ∀ i, ∀ k ∈ e i, t i = some k

variable {t : ι → Option κ}

/-- A mark in a table was there before the last one was put, or is that one. -/
lemma marked_of_put (ha : Function.update t i (some k) a = some b) : b = k ∨ t a = some b := by
  by_cases hai : a = i
  · subst hai
    rw [Function.update_self] at ha
    exact Or.inl (Option.some.inj ha).symm
  · rw [Function.update_of_ne hai] at ha
    exact Or.inr ha

/-- A mark in a table was there before another was wiped. -/
lemma marked_of_clear (ha : Function.update t i none a = some b) : t a = some b := by
  by_cases hai : a = i
  · subst hai
    rw [Function.update_self] at ha
    cases ha
  · rwa [Function.update_of_ne hai] at ha

omit [DecidableEq ι] in
/-- A place without a mark is free. -/
lemma Covers.free (h : Covers t e) (hi : t i = none) : e i = none := by
  rw [Option.eq_none_iff_forall_not_mem]
  intro k hk
  rw [h i k hk] at hi
  cases hi

/-- A key is put where the table has no mark. -/
lemma Covers.enter [DecidableEq κ] (h : Covers t e) (hi : t i = none) (hk : e.symm k = none) :
    Covers (Function.update t i (some k)) (put e i k (h.free hi) hk) := by
  intro a b hb
  rcases mem_put.mp hb with ⟨rfl, rfl⟩ | hmem
  · exact Function.update_self ..
  · have hne : a ≠ i := by
      rintro rfl
      exact absurd (hi.symm.trans (h a b hmem)) (by simp)
    rw [Function.update_of_ne hne]
    exact h a b hmem

/-- A key leaves and its mark stays. -/
lemma Covers.leave (h : Covers t e) (i : ι) : Covers t (vacate e i) :=
  fun a b hb => h a b (mem_vacate.mp hb).2

/-- A key leaves, and a mark with its name is wiped, its own or one that was left behind. -/
lemma Covers.release (h : Covers t e) (hk : k ∈ e i) (hj : t j = some k) :
    Covers (Function.update t j none) (vacate e i) := by
  intro a b hb
  obtain ⟨hne, hb⟩ := mem_vacate.mp hb
  have ha : a ≠ j := by
    rintro rfl
    obtain rfl : b = k := Option.some.inj ((h a b hb).symm.trans hj)
    exact hne (e.inj hb hk)
  rw [Function.update_of_ne ha]
  exact h a b hb

/-! ### Counting -/

variable [Fintype ι]

/-- The number of places that have something. -/
def taken (f : ι → Option κ) : ℕ := occupancy (fun o => o.isSome = true) f

variable {f : ι → Option κ}

lemma taken_put (hi : f i = none) : taken (Function.update f i (some k)) = taken f + 1 :=
  occupancy_enter (by simp [hi]) rfl

lemma taken_clear (hi : f i = some k) : taken (Function.update f i none) + 1 = taken f :=
  occupancy_leave (by simp [hi]) (by simp)

lemma taken_vacate (hk : k ∈ e i) : taken (vacate e i) + 1 = taken e := by
  rw [coe_vacate]
  exact taken_clear hk

omit [DecidableEq ι]

/-- As many are taken as there are places. -/
lemma isSome_of_card_le_taken (h : Fintype.card ι ≤ taken f) (i : ι) : (f i).isSome = true :=
  Finset.card_filter_eq_iff.mp (le_antisymm (Finset.card_le_univ _) h) i (Finset.mem_univ i)

/-- **A table that covers an assignment shows nothing else** exactly if it has no more marks than
there are keys. -/
lemma Covers.shows_iff (h : Covers t e) :
    (∀ i, (t i).isSome = true ↔ ∃ k, k ∈ e i) ↔ taken t = taken e := by
  have hmark : ∀ i, (e i).isSome = true → (t i).isSome = true := by
    intro i hi
    obtain ⟨k, hk⟩ := Option.isSome_iff_exists.mp hi
    rw [h i k hk]
    rfl
  have hheld : ∀ i, (e i).isSome = true ↔ ∃ k, k ∈ e i := fun i => Option.isSome_iff_exists
  constructor
  · intro hall
    exact le_antisymm (occupancy_mono fun i hi => (hheld i).mpr ((hall i).mp hi))
      (occupancy_mono hmark)
  · intro heq i
    refine ⟨fun hi => ?_, fun hi => hmark i ((hheld i).mpr hi)⟩
    by_contra hnone
    have hlt : taken e < taken t := occupancy_lt hmark (fun he => hnone ((hheld i).mp he)) hi
    omega

end Assignment
