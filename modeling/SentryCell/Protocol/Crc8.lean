import SentryCell.Lib.ShiftRegister
import SentryCell.Lib.Word
/-!
# The frame check sequence

`firmware/protocol/crc8.c`: CRC-8 with the polynomial `0x07`, bit by bit.
It is a linear shift register, `0x07` completed by the top bit is a
multiple of `x + 1`, so the step keeps the parity, and the powers of the
step repeat only after 127.
-/

namespace SentryCell

open ShiftRegister

def crc8Polynomial : Byte := 0x07#8

/-- One round of the bit loop of `crc8_compute`. -/
def crc8Shift (crc : Byte) : Byte :=
  if crc &&& 0x80#8 ≠ 0 then (crc <<< 1) ^^^ crc8Polynomial else crc <<< 1

/-- `crc8_compute`, on the bytes at its pointer. -/
def crc8Compute (data : List Byte) : Byte :=
  data.foldl (fun crc byte => crc8Shift^[8] (crc ^^^ byte)) 0

/-- The CRC is a shift register of the library, fed eight bits at a time. -/
theorem crc8Compute_eq_feed (data : List Byte) : crc8Compute data = feed crc8Shift 8 0 data := rfl

/-- The mask that the loop tests picks the highest bit. -/
theorem top_bit_iff (crc : Byte) : crc &&& 0x80#8 ≠ 0 ↔ crc.getLsbD 7 = true := by
  revert crc
  decide +kernel

/-- **The bit loop is linear**: the polynomial is added once for each
operand whose top bit is set, and twice cancels. -/
theorem linear_crc8Shift : Linear crc8Shift := by
  intro a b
  simp only [crc8Shift, top_bit_iff, BitVec.getLsbD_xor, BitVec.shiftLeft_xor_distrib]
  rcases a.getLsbD 7 with _ | _
  · rcases b.getLsbD 7 with _ | _
    · rfl
    · exact BitVec.xor_assoc _ _ _
  · rcases b.getLsbD 7 with _ | _
    · show a <<< 1 ^^^ b <<< 1 ^^^ crc8Polynomial = a <<< 1 ^^^ crc8Polynomial ^^^ b <<< 1
      rw [BitVec.xor_assoc, BitVec.xor_comm (b <<< 1), ← BitVec.xor_assoc]
    · show a <<< 1 ^^^ b <<< 1 =
        a <<< 1 ^^^ crc8Polynomial ^^^ (b <<< 1 ^^^ crc8Polynomial)
      rw [BitVec.xor_comm (b <<< 1), BitVec.xor_assoc, ← BitVec.xor_assoc crc8Polynomial,
        BitVec.xor_self, BitVec.zero_xor]

/-- No byte but zero is shifted to zero. -/
theorem crc8Shift_eq_zero {crc : Byte} (h : crc8Shift crc = 0) : crc = 0 := by
  revert crc
  decide +kernel

/-- A shift loses nothing: only zero comes to zero. -/
theorem iterate_crc8Shift_eq_zero {k : ℕ} {crc : Byte} (h : crc8Shift^[k] crc = 0) :
    crc = 0 := by
  induction k generalizing crc with
  | zero => exact h
  | succ k ih =>
    rw [Function.iterate_succ_apply] at h
    exact crc8Shift_eq_zero (ih h)

/-- The parity of a byte's bits. -/
def byteParity (b : Byte) : Bool := (List.range 8).foldl (fun acc i => acc ^^ b.getLsbD i) false

/-- The parity of a sum is the sum of the parities. -/
theorem byteParity_xor (a b : Byte) :
    byteParity (a ^^^ b) = (byteParity a ^^ byteParity b) := by
  have hbits : ∀ (is : List ℕ) (x y : Bool),
      is.foldl (fun acc i => acc ^^ (a ^^^ b).getLsbD i) (x ^^ y) =
        (is.foldl (fun acc i => acc ^^ a.getLsbD i) x ^^
          is.foldl (fun acc i => acc ^^ b.getLsbD i) y) := by
    intro is
    induction is with
    | nil =>
      intro x y
      rfl
    | cons i is ih =>
      intro x y
      simp only [List.foldl_cons]
      rw [← ih]
      congr 1
      rw [BitVec.getLsbD_xor]
      rcases x <;> rcases y <;> rcases a.getLsbD i <;> rcases b.getLsbD i <;> rfl
  exact hbits (List.range 8) false false

/-- The powers of the step return to `1` after 127 and no sooner. -/
theorem iterate_crc8Shift_one_ne {d : ℕ} (hd : d < 127) (hpos : 0 < d) :
    crc8Shift^[d] 1#8 ≠ 1#8 := by
  revert d
  decide +kernel

/-- **Fewer than 127 shifts of one all differ**, so that no two bits of a
frame have the same syndrome. -/
theorem iterate_crc8Shift_inj {k l : ℕ} (hk : k < 127) (hl : l < 127)
    (h : crc8Shift^[k] 1#8 = crc8Shift^[l] 1#8) : k = l := by
  wlog hkl : k ≤ l generalizing k l
  · exact (this hl hk h.symm (Nat.le_of_not_le hkl)).symm
  by_contra hne
  obtain ⟨d, rfl⟩ := Nat.exists_eq_add_of_le hkl
  have hpow : crc8Shift^[k] (1#8 ^^^ crc8Shift^[d] 1#8) = 0 := by
    rw [linear_crc8Shift.iterate k, ← Function.iterate_add_apply, ← h, BitVec.xor_self]
    rfl
  have hone := BitVec.xor_eq_zero_iff.mp (iterate_crc8Shift_eq_zero hpow)
  exact iterate_crc8Shift_one_ne (by omega) (by omega) hone.symm

/-- **The polynomial separates** every set of at most three of 127 bits. -/
theorem separates_crc8Shift : Separates crc8Shift byteParity 127 where
  parity_zero := by decide
  parity_one := by decide
  parity_xor := byteParity_xor
  parity_step := by decide +kernel
  distinct _ hk _ hl h := iterate_crc8Shift_inj hk hl h

/-- A byte is fed bit by bit: below eight steps a bit only moves up. -/
theorem iterate_crc8Shift_one_of_lt {i : ℕ} (hi : i < 8) :
    crc8Shift^[i] 1#8 = 1#8 <<< i := by
  revert i
  decide +kernel

/-- **A word followed by its check byte leaves the register at zero.** -/
theorem feed_append_crc8 (body : List Byte) (crc : Byte) :
    feed crc8Shift 8 0 (body ++ [crc]) = 0 ↔ crc = crc8Compute body := by
  rw [feed_append, feed_cons, feed_nil, ← crc8Compute_eq_feed]
  constructor
  · intro h
    exact (BitVec.xor_eq_zero_iff.mp (iterate_crc8Shift_eq_zero h)).symm
  · rintro rfl
    rw [BitVec.xor_self]
    exact (linear_crc8Shift.iterate 8).map_zero

end SentryCell
