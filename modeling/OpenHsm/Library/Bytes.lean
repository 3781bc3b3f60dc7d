import Mathlib.Tactic

/-!
Numbers in a byte buffer, least significant byte first.

* `leValue`, `leBytes`: the value of a list of bytes, and the bytes of a value;
  `leValue_leBytes` is the round trip, modulo what fits.
* `leInt`, `intBytes`: the same in two's complement, with `leInt_intBytes`.
* `field`, `field_append`: a part of a buffer.
-/

namespace Bytes

/-- The value of the bytes. -/
def leValue : List UInt8 → ℕ
  | [] => 0
  | b :: l => b.toNat + 256 * leValue l

/-- The low `n` bytes of a value. -/
def leBytes : ℕ → ℕ → List UInt8
  | 0, _ => []
  | n + 1, v => UInt8.ofNat v :: leBytes n (v / 256)

@[simp] lemma length_leBytes (n v : ℕ) : (leBytes n v).length = n := by
  induction n generalizing v with
  | zero => rfl
  | succ n ih => rw [leBytes, List.length_cons, ih]

/-- Writing a value and reading it back keeps what fits. -/
lemma leValue_leBytes (n v : ℕ) : leValue (leBytes n v) = v % 256 ^ n := by
  induction n generalizing v with
  | zero => simp [leValue, leBytes, Nat.mod_one]
  | succ n ih =>
      calc leValue (leBytes (n + 1) v)
          = v % 256 + 256 * (v / 256 % 256 ^ n) := by rw [leBytes, leValue, ih]; rfl
        _ = v % (256 * 256 ^ n) := (Nat.mod_mul ..).symm
        _ = v % 256 ^ (n + 1) := by rw [pow_succ']

/-- The value of the bytes in two's complement. -/
def leInt (l : List UInt8) : ℤ := (leValue l : ℤ).bmod (256 ^ l.length)

/-- The low `n` bytes of an integer in two's complement. -/
def intBytes (n : ℕ) (x : ℤ) : List UInt8 := leBytes n (x % (256 ^ n : ℕ)).toNat

@[simp] lemma length_intBytes (n : ℕ) (x : ℤ) : (intBytes n x).length = n := length_leBytes ..

/-- Writing an integer and reading it back keeps what fits. -/
lemma leInt_intBytes (n : ℕ) (x : ℤ) : leInt (intBytes n x) = x.bmod (256 ^ n) := by
  have hpos : (0 : ℤ) < (256 ^ n : ℕ) := by positivity
  have hlt : (x % (256 ^ n : ℕ)).toNat < 256 ^ n := by
    have := Int.emod_lt_of_pos x hpos
    have := Int.emod_nonneg x hpos.ne'
    omega
  have hval : ((x % (256 ^ n : ℕ)).toNat : ℤ) = x % (256 ^ n : ℕ) :=
    Int.toNat_of_nonneg (Int.emod_nonneg x hpos.ne')
  rw [leInt, length_intBytes, intBytes, leValue_leBytes, Nat.mod_eq_of_lt hlt, hval, Int.emod_bmod]

/-- The `n` bytes of the buffer from `o` on. -/
def field (l : List UInt8) (o n : ℕ) : List UInt8 := (l.drop o).take n

/-- What was written between two other parts is read there. -/
lemma field_append (l m r : List UInt8) : field (l ++ (m ++ r)) l.length m.length = m := by
  rw [field, List.drop_left, List.take_left]

end Bytes
