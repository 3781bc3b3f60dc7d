import Mathlib.Tactic

/-!
Counters with an upper bound, over any bound.

* `Counter`: a value that carries the proof that it is within the bound.
* `Counter.up`, `Counter.down`: one more below the bound, one less above zero, and otherwise the
  same.
* `Counter.Tracks`: a number that is the value of a counter; `Tracks.up_iff` says when one more
  still is, and `Tracks.down` that one less always is.
-/

namespace Bounded

/-- A number of at most `max`. -/
structure Counter (max : ℕ) where
  value : ℕ
  le : value ≤ max
  deriving DecidableEq

namespace Counter

variable {max : ℕ}

@[ext] lemma ext {c d : Counter max} (h : c.value = d.value) : c = d := by
  cases c
  cases d
  congr

/-- One more, unless the counter is at its bound. -/
def up (c : Counter max) : Counter max := ⟨min (c.value + 1) max, min_le_right ..⟩

/-- One less, unless the counter is at zero. -/
def down (c : Counter max) : Counter max := ⟨c.value - 1, (Nat.sub_le ..).trans c.le⟩

@[simp] lemma up_value (c : Counter max) : c.up.value = min (c.value + 1) max := rfl

@[simp] lemma down_value (c : Counter max) : c.down.value = c.value - 1 := rfl

/-- The number is the value of the counter. -/
def Tracks (m : ℕ) (c : Counter max) : Prop := m = c.value

lemma Tracks.le {m : ℕ} {c : Counter max} (h : Tracks m c) : m ≤ max := h.trans_le c.le

/-- One more tracks the counter exactly below the bound. -/
lemma Tracks.up_iff {m : ℕ} {c : Counter max} (h : Tracks m c) :
    Tracks (m + 1) c.up ↔ m < max := by
  rw [Tracks] at h ⊢
  rw [up_value]
  omega

/-- The same number tracks it exactly at the bound. -/
lemma Tracks.same_iff {m : ℕ} {c : Counter max} (h : Tracks m c) :
    Tracks m c.up ↔ m = max := by
  have hle := h.le
  rw [Tracks] at h ⊢
  rw [up_value]
  omega

/-- One less tracks it everywhere. -/
lemma Tracks.down {m : ℕ} {c : Counter max} (h : Tracks m c) : Tracks (m - 1) c.down := by
  rw [Tracks] at h ⊢
  rw [down_value, h]

/-- What counts up with the bound in view tracks the counter. -/
lemma Tracks.saturate {m : ℕ} {c : Counter max} (h : Tracks m c) :
    Tracks (if m < max then m + 1 else m) c.up := by
  split
  · next hlt => exact h.up_iff.mpr hlt
  · next hnlt => exact h.same_iff.mpr (le_antisymm h.le (not_lt.mp hnlt))

end Counter

end Bounded
