import Mathlib.Tactic

/-!
Integers of a machine, of any width, as integers.

* `InRange w`: what a signed type of `w` bits can hold.
* `checked`, `add`, `sub`, `mul`, `div`, `rem`: signed operations that have no result where
  they overflow; division truncates.
* `convert`: conversion to a signed type, modulo its width.
* `toNat_mul_eq_iff`, `toNat_ofInt`, `toInt_toInt32_neg_iff`: when an unsigned product does not
  wrap around, how a number turns unsigned, and when an unsigned number turns negative.
-/

namespace MachineInt

/-- The numbers of a signed type of `w` bits. -/
def InRange (w : ℕ) (x : ℤ) : Prop := -2 ^ (w - 1) ≤ x ∧ x < 2 ^ (w - 1)

instance (w : ℕ) (x : ℤ) : Decidable (InRange w x) := inferInstanceAs (Decidable (_ ∧ _))

/-- A result in a signed type, unless it overflows. -/
def checked (w : ℕ) (x : ℤ) : Option ℤ := if InRange w x then some x else none

def add (w : ℕ) (x y : ℤ) : Option ℤ := checked w (x + y)

def sub (w : ℕ) (x y : ℤ) : Option ℤ := checked w (x - y)

def mul (w : ℕ) (x y : ℤ) : Option ℤ := checked w (x * y)

/-- Division towards zero. -/
def div (w : ℕ) (x y : ℤ) : Option ℤ := checked w (x.tdiv y)

/-- The remainder of that division. -/
def rem (w : ℕ) (x y : ℤ) : Option ℤ := checked w (x.tmod y)

/-- Conversion to a signed type of `w` bits. -/
def convert (w : ℕ) (x : ℤ) : ℤ := x.bmod (2 ^ w)

variable {w v : ℕ} {x y : ℤ}

/-- A wider type holds more. -/
lemma two_pow_le (h : w ≤ v) : (2 : ℤ) ^ (w - 1) ≤ 2 ^ (v - 1) :=
  pow_le_pow_right₀ (by norm_num) (by omega)

lemma InRange.mono (hx : InRange w x) (h : w ≤ v) : InRange v x := by
  have hpow := two_pow_le h
  exact ⟨by linarith [hx.1], by linarith [hx.2]⟩

/-- What lies between zero and a number of the type. -/
lemma InRange.of_le (hy : InRange w y) (h0 : 0 ≤ x) (hxy : x ≤ y) : InRange w x := by
  have hpow : (0 : ℤ) ≤ 2 ^ (w - 1) := by positivity
  exact ⟨by linarith, hxy.trans_lt hy.2⟩

lemma checked_of_inRange (h : InRange w x) : checked w x = some x := if_pos h

lemma inRange_int : InRange 32 x ↔ -2147483648 ≤ x ∧ x < 2147483648 := by norm_num [InRange]

/-- Adding what is not negative overflows upwards or not at all. -/
lemma add_eq (hx : InRange w x) (hy : 0 ≤ y) :
    add w x y = if x + y < 2 ^ (w - 1) then some (x + y) else none := by
  rw [add, checked]
  refine if_congr ?_ rfl rfl
  exact ⟨And.right, fun h => ⟨by linarith [hx.1], h⟩⟩

/-- Division of a number that is not negative cannot overflow. -/
lemma div_eq (hx : InRange w x) (h0 : 0 ≤ x) (hy : 0 < y) : div w x y = some (x / y) := by
  have hrange : InRange w (x / y) := hx.of_le (Int.ediv_nonneg h0 hy.le) (Int.ediv_le_self y h0)
  rw [div, Int.tdiv_eq_ediv_of_nonneg h0, checked_of_inRange hrange]

/-- Nor can its remainder. -/
lemma rem_eq (hx : InRange w x) (h0 : 0 ≤ x) (hy : 0 < y) : rem w x y = some (x % y) := by
  have hle : x % y ≤ x := by
    have := Int.mul_ediv_add_emod x y
    have := mul_nonneg hy.le (Int.ediv_nonneg h0 hy.le)
    linarith
  have hrange : InRange w (x % y) := hx.of_le (Int.emod_nonneg x hy.ne') hle
  rw [rem, Int.tmod_eq_emod_of_nonneg h0, checked_of_inRange hrange]

/-- A number that fits is converted to itself. -/
lemma convert_eq (hw : 0 < w) (hx : InRange w x) : convert w x = x := by
  obtain ⟨n, rfl⟩ := Nat.exists_eq_add_of_lt hw
  have hx1 := hx.1
  have hx2 := hx.2
  rw [Nat.zero_add, Nat.add_sub_cancel] at hx1 hx2
  have hpow : ((2 ^ (0 + n + 1) : ℕ) : ℤ) = 2 ^ n * 2 := by
    push_cast
    ring
  exact Int.bmod_eq_of_le_mul_two (by linarith) (by linarith)

/-! ### Unsigned numbers -/

/-- A product is exact where it does not wrap around. -/
lemma toNat_mul_eq_iff (a b : UInt32) :
    (a * b).toNat = a.toNat * b.toNat ↔ a.toNat * b.toNat < 2 ^ 32 := by
  rw [UInt32.toNat_mul]
  exact ⟨fun h => h ▸ Nat.mod_lt _ (by norm_num), Nat.mod_eq_of_lt⟩

/-- Conversion to an unsigned number wraps around. -/
lemma toNat_ofInt (x : ℤ) : (UInt32.ofInt x).toNat = (x % 2 ^ 32).toNat := by
  have hlt : (x % 2 ^ 32).toNat < 2 ^ 32 := by omega
  rw [UInt32.ofInt, UInt32.toNat_ofNat', Nat.mod_eq_of_lt hlt]

/-- The upper half of the unsigned numbers turns negative. -/
lemma toInt_toInt32_neg_iff (a : UInt32) : a.toInt32.toInt < 0 ↔ 2 ^ 31 ≤ a.toNat := by
  have hlt := a.toNat_lt
  have hval : a.toInt32.toInt = (a.toNat : ℤ).bmod (2 ^ 32) := by
    rw [← Int32.toInt_toBitVec, UInt32.toBitVec_toInt32, BitVec.toInt_eq_toNat_bmod,
      UInt32.toNat_toBitVec]
  rw [hval, Int.bmod_def]
  norm_num at hlt ⊢
  omega

end MachineInt
