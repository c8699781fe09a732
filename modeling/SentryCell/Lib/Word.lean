import Mathlib.Algebra.Group.Nat.Defs
import Mathlib.Logic.Function.Basic
import Mathlib.Tactic.Common
/-!
# Fixed-width words

The integer types of an 8-bit target, and the register idioms its code is
written in: a bit set or cleared by a mask, and an index kept in range by
masking with one less than a power of two.
-/

abbrev Byte := BitVec 8
abbrev Word16 := BitVec 16
abbrev Word32 := BitVec 32

namespace Word

/-- The mask of one bit of an 8-bit register. -/
def bit (i : ℕ) : Byte := 1#8 <<< i

/-- Whether a bit of an 8-bit register is set. -/
def isSet (r : Byte) (i : ℕ) : Bool := r.getLsbD i

/-- A mask has one bit set, and that is the bit it is named by. -/
theorem isSet_bit {i j : ℕ} (hj : j < 8) : isSet (bit i) j = decide (j = i) := by
  simp only [isSet, bit, BitVec.getLsbD_shiftLeft, BitVec.getLsbD_one]
  rcases Nat.lt_trichotomy j i with h | rfl | h
  · simp [hj, h, Nat.ne_of_lt h]
  · simp [hj]
  · simp [hj, Nat.sub_eq_zero_iff_le, Nat.lt_asymm h, Nat.not_le.mpr h, (Nat.ne_of_lt h).symm]

/-- **Setting a bit** sets that bit and no other. -/
theorem isSet_or_bit {r : Byte} {i j : ℕ} (hj : j < 8) :
    isSet (r ||| bit i) j = (isSet r j || decide (j = i)) := by
  rw [← isSet_bit hj]
  simp [isSet]

/-- **Clearing a bit** clears that bit and no other. -/
theorem isSet_and_not_bit {r : Byte} {i j : ℕ} (hj : j < 8) :
    isSet (r &&& ~~~bit i) j = (isSet r j && !decide (j = i)) := by
  rw [← isSet_bit hj]
  simp [isSet, hj]

/-- A register has no bits from the eighth on. -/
theorem isSet_of_ge {r : Byte} {j : ℕ} (hj : 8 ≤ j) : isSet r j = false :=
  BitVec.getLsbD_of_ge r j hj

/-- Setting a bit is an update of the register's bits at that place. -/
theorem isSet_or_bit_eq {i : ℕ} (hi : i < 8) (r : Byte) :
    isSet (r ||| bit i) = Function.update (isSet r) i true := by
  funext j
  rcases Nat.lt_or_ge j 8 with hj | hj
  · rw [isSet_or_bit hj, Function.update_apply]
    by_cases hij : j = i <;> simp [hij]
  · have hij : j ≠ i := by omega
    rw [isSet_of_ge hj, Function.update_of_ne hij, isSet_of_ge hj]

/-- Clearing a bit is an update of the bits at that place. -/
theorem isSet_and_not_bit_eq {i : ℕ} (hi : i < 8) (r : Byte) :
    isSet (r &&& ~~~bit i) = Function.update (isSet r) i false := by
  funext j
  rcases Nat.lt_or_ge j 8 with hj | hj
  · rw [isSet_and_not_bit hj, Function.update_apply]
    by_cases hij : j = i <;> simp [hij]
  · have hij : j ≠ i := by omega
    rw [isSet_of_ge hj, Function.update_of_ne hij, isSet_of_ge hj]

/-- An index masked with one less than a power of two is its remainder. -/
theorem toNat_and_mask {w : ℕ} (b : BitVec w) (m : ℕ) (hm : m < w) :
    (b &&& BitVec.ofNat w (2 ^ m - 1)).toNat = b.toNat % 2 ^ m := by
  have hlt : 2 ^ m - 1 < 2 ^ w := by
    have hpow : 2 ^ m < 2 ^ w := Nat.pow_lt_pow_right (by omega) hm
    have hpos : 0 < 2 ^ m := Nat.two_pow_pos m
    omega
  rw [BitVec.toNat_and, BitVec.toNat_ofNat, Nat.mod_eq_of_lt hlt, Nat.and_two_pow_sub_one_eq_mod]

/-- **A modular difference** is the true one, modulo the range. -/
theorem toNat_ofNat_sub {w s t : ℕ} (h : s ≤ t) :
    (BitVec.ofNat w t - BitVec.ofNat w s).toNat = (t - s) % 2 ^ w := by
  obtain ⟨d, rfl⟩ := Nat.exists_eq_add_of_le h
  have hsub : BitVec.ofNat w (s + d) - BitVec.ofNat w s = BitVec.ofNat w d := by
    rw [BitVec.ofNat_add, BitVec.add_comm, BitVec.add_sub_cancel]
  rw [hsub, BitVec.toNat_ofNat, Nat.add_sub_cancel_left]

/-- **Words that are less than a range apart** are told apart by what is kept
of them. -/
theorem ofNat_eq_ofNat_iff {w a b : ℕ} (hle : a ≤ b) (hlt : b < a + 2 ^ w) :
    BitVec.ofNat w a = BitVec.ofNat w b ↔ a = b := by
  refine ⟨fun h => ?_, fun h => by rw [h]⟩
  have hdiff : (b - a) % 2 ^ w = 0 := by
    rw [← toNat_ofNat_sub hle, h, BitVec.sub_self]
    rfl
  rw [Nat.mod_eq_of_lt (by omega)] at hdiff
  omega

end Word
