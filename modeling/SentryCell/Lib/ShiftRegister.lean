import Mathlib.Data.List.Basic
import Mathlib.Logic.Function.Iterate
import Mathlib.Tactic.Common
/-!
# Linear shift registers and the errors they detect

A register of `w` bits is advanced by a step `T` that is linear over
exclusive or, and fed a list of words, `n` steps each. What the register
ends in after some bits of the input were flipped differs by a sum that
does not depend on the input (`feed_flips`). If the powers of the step on
a single bit are distinct and the step keeps the parity, one, two or three
flips are never lost (`pattern_ne_zero`).
-/

namespace ShiftRegister

variable {w : ℕ} {T : BitVec w → BitVec w}

/-- The step respects exclusive or. -/
def Linear (T : BitVec w → BitVec w) : Prop := ∀ a b, T (a ^^^ b) = T a ^^^ T b

/-- The register after the words `data`, each taken in by exclusive or and
followed by `n` steps. -/
def feed (T : BitVec w → BitVec w) (n : ℕ) (c : BitVec w) (data : List (BitVec w)) : BitVec w :=
  data.foldl (fun c b => T^[n] (c ^^^ b)) c

variable {n : ℕ} {c e : BitVec w} {data more : List (BitVec w)}

@[simp] theorem feed_nil : feed T n c [] = c := rfl

@[simp] theorem feed_cons {b : BitVec w} :
    feed T n c (b :: data) = feed T n (T^[n] (c ^^^ b)) data := rfl

/-- Feeding two lists is feeding the second from what the first left. -/
theorem feed_append : feed T n c (data ++ more) = feed T n (feed T n c data) more :=
  List.foldl_append

/-- A linear step leaves zero alone, as zero is what any value makes with
itself. -/
theorem Linear.map_zero (hT : Linear T) : T 0 = 0 := by
  have h := hT 0 0
  rwa [BitVec.xor_self, BitVec.xor_self] at h

/-- Any number of linear steps is a linear step. -/
theorem Linear.iterate (hT : Linear T) (k : ℕ) : Linear T^[k] := by
  induction k with
  | zero =>
    intro a b
    rfl
  | succ k ih =>
    intro a b
    rw [Function.iterate_succ_apply, hT a b, ih]
    rfl

/-- What was in the register before the words adds to what comes out. -/
theorem Linear.feed_xor (hT : Linear T) :
    feed T n (c ^^^ e) data = feed T n c data ^^^ T^[n * data.length] e := by
  induction data generalizing c e with
  | nil => rfl
  | cons b data ih =>
    have hswap : c ^^^ e ^^^ b = (c ^^^ b) ^^^ e := by
      rw [BitVec.xor_assoc, BitVec.xor_comm e b, ← BitVec.xor_assoc]
    rw [feed_cons, feed_cons, hswap, hT.iterate n, ih, ← Function.iterate_add_apply]
    rw [List.length_cons, Nat.mul_succ]

/-- **One changed word** changes the register by the change, advanced over
the words from it on. -/
theorem Linear.feed_modify (hT : Linear T) {j : ℕ} (hj : j < data.length) :
    feed T n c (data.modify j (· ^^^ e)) =
      feed T n c data ^^^ T^[n * (data.length - j)] e := by
  induction data generalizing c j with
  | nil => cases hj
  | cons b data ih =>
    rcases j with _ | j
    · rw [List.modify_zero_cons, feed_cons, feed_cons, ← BitVec.xor_assoc, hT.iterate n,
        hT.feed_xor, ← Function.iterate_add_apply]
      rw [List.length_cons, Nat.sub_zero, Nat.mul_succ]
    · rw [List.modify_succ_cons, feed_cons, feed_cons,
        ih (Nat.lt_of_succ_lt_succ hj), List.length_cons, Nat.add_sub_add_right]

/-! ## Flipped bits -/

/-- Flip one bit: the word, and the bit in it. -/
def flipBit (data : List (BitVec w)) (p : ℕ × ℕ) : List (BitVec w) :=
  data.modify p.1 (· ^^^ (1#w <<< p.2))

/-- Flip every bit of a list of positions. -/
def flipBits (data : List (BitVec w)) (ps : List (ℕ × ℕ)) : List (BitVec w) :=
  ps.foldl flipBit data

/-- Flipping one bit keeps the length of the input. -/
@[simp] theorem length_flipBit {p : ℕ × ℕ} : (flipBit data p).length = data.length := by
  simp [flipBit]

/-- Flipping any number of bits keeps the length of the input. -/
@[simp] theorem length_flipBits {ps : List (ℕ × ℕ)} :
    (flipBits data ps).length = data.length := by
  induction ps generalizing data with
  | nil => rfl
  | cons p ps ih =>
    show (flipBits (flipBit data p) ps).length = data.length
    rw [ih, length_flipBit]

/-- The sum of the powers of the step on the lowest bit. -/
def pattern (T : BitVec w → BitVec w) (ks : List ℕ) : BitVec w :=
  ks.foldr (fun k acc => T^[k] 1#w ^^^ acc) 0

/-- How many steps a flipped bit of `m` words is advanced by. -/
def exponent (n m : ℕ) (p : ℕ × ℕ) : ℕ := n * (m - p.1) + p.2

/-- **What flipped bits do to the register**, whatever the words are. A
bit of a word is a power of the step, as the step only shifts below `n`. -/
theorem Linear.feed_flips (hT : Linear T) (hshift : ∀ i < n, T^[i] 1#w = 1#w <<< i)
    {ps : List (ℕ × ℕ)} (hps : ∀ p ∈ ps, p.1 < data.length ∧ p.2 < n) :
    feed T n c (flipBits data ps) =
      feed T n c data ^^^ pattern T (ps.map (exponent n data.length)) := by
  induction ps generalizing data with
  | nil => simp [flipBits, pattern]
  | cons p ps ih =>
    obtain ⟨hp, hrest⟩ := List.forall_mem_cons.mp hps
    have hflip : feed T n c (flipBit data p) =
        feed T n c data ^^^ T^[exponent n data.length p] 1#w := by
      rw [flipBit, hT.feed_modify hp.1, ← hshift p.2 hp.2, ← Function.iterate_add_apply]
      rfl
    have htail : feed T n c (flipBits (flipBit data p) ps) =
        feed T n c (flipBit data p) ^^^ pattern T (ps.map (exponent n data.length)) := by
      rw [← length_flipBit (p := p)]
      exact ih (by simpa using hrest)
    show feed T n c (flipBits (flipBit data p) ps) = _
    rw [htail, hflip, BitVec.xor_assoc]
    rfl

/-- Distinct positions are advanced by distinct numbers of steps. -/
theorem exponent_inj {m : ℕ} {p q : ℕ × ℕ} (hp : p.1 < m ∧ p.2 < n) (hq : q.1 < m ∧ q.2 < n)
    (h : exponent n m p = exponent n m q) : p = q := by
  unfold exponent at h
  have hpos : 0 < n := Nat.lt_of_le_of_lt (Nat.zero_le _) hp.2
  have hmod : p.2 = q.2 := by
    have := congrArg (· % n) h
    simpa [Nat.mul_add_mod, Nat.mod_eq_of_lt hp.2, Nat.mod_eq_of_lt hq.2] using this
  have hdiv : n * (m - p.1) = n * (m - q.1) := by omega
  have hsub : m - p.1 = m - q.1 := Nat.eq_of_mul_eq_mul_left hpos hdiv
  have hfst : p.1 = q.1 := by omega
  exact Prod.ext hfst hmod

/-! ## Few flips -/

/-- What the error detection rests on: a parity the step keeps, and no two
powers of the step below `N` that agree on the lowest bit. -/
structure Separates (T : BitVec w → BitVec w) (parity : BitVec w → Bool) (N : ℕ) : Prop where
  parity_zero : parity 0 = false
  parity_one : parity 1#w = true
  parity_xor : ∀ a b, parity (a ^^^ b) = (parity a ^^ parity b)
  parity_step : ∀ a, parity (T a) = parity a
  distinct : ∀ k < N, ∀ l < N, T^[k] 1#w = T^[l] 1#w → k = l

variable {parity : BitVec w → Bool} {N : ℕ}

/-- Every power of the step on a single bit has odd parity, for a step
keeps it. -/
theorem Separates.parity_iterate (h : Separates T parity N) (k : ℕ) :
    parity (T^[k] 1#w) = true := by
  induction k with
  | zero => exact h.parity_one
  | succ k ih => rw [Function.iterate_succ_apply', h.parity_step, ih]

/-- The parity of a sum of powers counts its terms, for each power has an
odd one. -/
theorem Separates.parity_pattern (h : Separates T parity N) (ks : List ℕ) :
    parity (pattern T ks) = (ks.length % 2 == 1) := by
  induction ks with
  | nil => exact h.parity_zero
  | cons k ks ih =>
    show parity (T^[k] 1#w ^^^ pattern T ks) = _
    rw [h.parity_xor, h.parity_iterate, ih, List.length_cons]
    rcases Nat.mod_two_eq_zero_or_one ks.length with h2 | h2
    · rw [h2, Nat.add_mod, h2]
      rfl
    · rw [h2, Nat.add_mod, h2]
      rfl

/-- **One, two or three flips are never lost.** An odd number of them has
odd parity, and two cancel only if they are the same. -/
theorem Separates.pattern_ne_zero (h : Separates T parity N) {ks : List ℕ} (hnodup : ks.Nodup)
    (hne : ks ≠ []) (hlen : ks.length ≤ 3) (hks : ∀ k ∈ ks, k < N) : pattern T ks ≠ 0 := by
  intro hzero
  have hpar := h.parity_pattern ks
  rw [hzero, h.parity_zero] at hpar
  rcases ks with _ | ⟨k, _ | ⟨l, _ | ⟨m, ks⟩⟩⟩
  · exact hne rfl
  · have hodd : ([k].length % 2 == 1) = true := rfl
    exact Bool.false_ne_true (hpar.trans hodd)
  · -- two equal powers: the positions would be one
    have hsum : T^[k] 1#w ^^^ T^[l] 1#w = 0 := by
      simpa [pattern] using hzero
    have hkl : k = l := h.distinct k (hks k (by simp)) l (hks l (by simp))
      (BitVec.xor_eq_zero_iff.mp hsum)
    rw [hkl] at hnodup
    simp at hnodup
  · have hnil : ks = [] := by
      rw [← List.length_eq_zero_iff]
      simp only [List.length_cons] at hlen
      omega
    rw [hnil] at hpar
    have hodd : ([k, l, m].length % 2 == 1) = true := by simp
    exact Bool.false_ne_true (hpar.trans hodd)

end ShiftRegister
