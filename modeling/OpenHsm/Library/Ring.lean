import Mathlib.Tactic

/-!
Rings of equal cells, over arbitrary element types.

* `store`: what `memcpy` makes of a flat buffer.
* `cell m buf i`: cell `i` of a buffer cut into cells of `m` elements; `cell_store_self` and
  `cell_store_of_ne` say what a store of one cell does to all of them.
* `Holds cell cap head l`: read cyclically from `head`, the cells of a ring of `cap` cells
  hold the list `l`.  `Holds.push` writes behind the last element, `Holds.front` and
  `Holds.pop` read and drop the first.
-/

namespace Ring

variable {α β : Type*}

/-! ### Flat buffers -/

/-- The buffer with `x` copied to it from offset `off` on. -/
def store (buf : List α) (off : ℕ) (x : List α) : List α :=
  buf.take off ++ x ++ buf.drop (off + x.length)

/-- Cell `i` of a buffer of cells of `m` elements. -/
def cell (m : ℕ) (buf : List α) (i : ℕ) : List α := (buf.drop (i * m)).take m

variable {buf x : List α} {off m i j : ℕ}

lemma length_store (h : off + x.length ≤ buf.length) : (store buf off x).length = buf.length := by
  simp only [store, List.length_append, List.length_take, List.length_drop]
  omega

lemma getElem?_store_of_lt {k : ℕ} (h : off + x.length ≤ buf.length) (hk : k < off) :
    (store buf off x)[k]? = buf[k]? := by
  have htake : k < (buf.take off).length := by rw [List.length_take]; omega
  rw [store, List.append_assoc, List.getElem?_append_left htake, List.getElem?_take_of_lt hk]

lemma getElem?_store_of_ge {k : ℕ} (h : off + x.length ≤ buf.length) (hk : off + x.length ≤ k) :
    (store buf off x)[k]? = buf[k]? := by
  have hlen : (buf.take off ++ x).length = off + x.length := by
    rw [List.length_append, List.length_take]; omega
  rw [store, List.getElem?_append_right (by omega), List.getElem?_drop, hlen]
  congr 1
  omega

lemma getElem?_cell {k : ℕ} (hk : k < m) : (cell m buf i)[k]? = buf[i * m + k]? := by
  rw [cell, List.getElem?_take_of_lt hk, List.getElem?_drop]

/-- The cell that is stored. -/
lemma cell_store_self (hx : x.length = m) (h : (i + 1) * m ≤ buf.length) :
    cell m (store buf (i * m) x) i = x := by
  rw [Nat.succ_mul] at h
  have htake : (buf.take (i * m)).length = i * m := by rw [List.length_take]; omega
  rw [cell, store, List.append_assoc, List.drop_left' htake, List.take_left' hx]

/-- The other cells stay. -/
lemma cell_store_of_ne (hx : x.length = m) (h : (i + 1) * m ≤ buf.length) (hj : j ≠ i) :
    cell m (store buf (i * m) x) j = cell m buf j := by
  rw [Nat.succ_mul] at h
  refine List.ext_getElem? fun k => ?_
  by_cases hk : k < m
  · rw [getElem?_cell hk, getElem?_cell hk]
    rcases Nat.lt_or_gt_of_ne hj with hji | hij
    · have hle : (j + 1) * m ≤ i * m := Nat.mul_le_mul_right m hji
      rw [Nat.succ_mul] at hle
      exact getElem?_store_of_lt (by omega) (by omega)
    · have hle : (i + 1) * m ≤ j * m := Nat.mul_le_mul_right m hij
      rw [Nat.succ_mul] at hle
      exact getElem?_store_of_ge (by omega) (by omega)
  · have hnone : ∀ b : List α, (cell m b j)[k]? = none := by
      intro b
      rw [List.getElem?_eq_none_iff, cell, List.length_take]
      omega
    rw [hnone, hnone]

/-! ### Rings -/

/-- From `head` on, cyclically, the cells hold the list. -/
def Holds (cell : ℕ → β) (cap head : ℕ) (l : List β) : Prop :=
  ∀ i (h : i < l.length), cell ((head + i) % cap) = l[i]

variable {cell cell' : ℕ → β} {cap head : ℕ} {l : List β} {y : β}

lemma Holds.nil : Holds cell cap head [] := fun _ h => absurd h (Nat.not_lt_zero _)

/-- Offsets within one revolution are different cells. -/
lemma index_ne {a b : ℕ} (hab : a < b) (hb : b < cap) : (head + a) % cap ≠ (head + b) % cap := by
  intro he
  have hmod : a ≡ b [MOD cap] := Nat.ModEq.add_left_cancel' head he
  exact hab.ne (hmod.eq_of_lt_of_lt (hab.trans hb) hb)

/-- **Push**: writing the cell behind the last element appends. -/
theorem Holds.push (h : Holds cell cap head l) (hl : l.length < cap)
    (hself : cell' ((head + l.length) % cap) = y)
    (hrest : ∀ k, k ≠ (head + l.length) % cap → cell' k = cell k) :
    Holds cell' cap head (l ++ [y]) := by
  intro i hi
  rw [List.length_append, List.length_singleton] at hi
  rcases Nat.lt_succ_iff_lt_or_eq.mp hi with hlt | rfl
  · rw [List.getElem_append_left hlt, hrest _ (index_ne hlt hl)]
    exact h i hlt
  · rw [hself]
    simp

/-- The first element is in the cell at `head`. -/
lemma Holds.front (h : Holds cell cap head (y :: l)) (hhead : head < cap) : cell head = y := by
  have hzero := h 0 (by simp)
  rwa [Nat.add_zero, Nat.mod_eq_of_lt hhead] at hzero

/-- **Pop**: advancing `head` drops the first element. -/
theorem Holds.pop (h : Holds cell cap head (y :: l)) : Holds cell cap ((head + 1) % cap) l := by
  intro i hi
  have hsucc := h (i + 1) (by simpa using hi)
  rw [Nat.mod_add_mod, Nat.add_assoc, Nat.add_comm 1 i]
  exact hsucc

end Ring
