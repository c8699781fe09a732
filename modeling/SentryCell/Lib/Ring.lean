import Mathlib.Data.List.Basic
import Mathlib.Logic.Function.Basic
import Mathlib.Tactic.Common
/-!
# Ring buffers with one slot kept free

A ring of `n` slots with a head where the producer writes and a tail
where the consumer reads. `contents` is the queue the two indices stand
for, oldest element first. A full ring holds `n - 1` elements, so head
and tail coincide exactly when it is empty. Each lemma is about one index
moving alone, which is what a producer and a consumer that do not
exclude one another need.
-/

namespace Ring

variable {α : Type}

/-- The slot after `i`. -/
def next (n i : ℕ) : ℕ := if i + 1 < n then i + 1 else 0

/-- The slot `k` places after `t`. -/
def slot (n t k : ℕ) : ℕ := if t + k < n then t + k else t + k - n

/-- How many elements lie from the tail `t` up to the head `h`. -/
def count (n h t : ℕ) : ℕ := if t ≤ h then h - t else h + n - t

/-- **The queue a ring stands for**, oldest element first. -/
def contents (n : ℕ) (buf : ℕ → α) (h t : ℕ) : List α :=
  (List.range (count n h t)).map fun k => buf (slot n t k)

variable {n h t i k : ℕ} {buf : ℕ → α}

/-- The slot after one of the ring is again one of it. -/
theorem next_lt (hi : i < n) : next n i < n := by unfold next; split_ifs <;> omega

/-- The next slot is the next number modulo the size of the ring. -/
theorem next_eq_mod (hi : i < n) : next n i = (i + 1) % n := by
  unfold next
  split_ifs with h
  · rw [Nat.mod_eq_of_lt h]
  · rw [show i + 1 = n by omega, Nat.mod_self]

/-- A ring never holds as many elements as it has slots. -/
theorem count_lt (hh : h < n) (ht : t < n) : count n h t < n := by
  unfold count; split_ifs <;> omega

/-- A ring whose head and tail coincide holds nothing, however large it is. -/
@[simp] theorem count_self : count n t t = 0 := by simp [count]

/-- Only where head and tail coincide does the ring hold nothing. -/
theorem count_eq_zero_iff (ht : t < n) : count n h t = 0 ↔ h = t := by
  unfold count; split_ifs <;> omega

/-- The queue has as many elements as are counted between tail and head. -/
@[simp] theorem length_contents : (contents n buf h t).length = count n h t := by
  simp [contents]

/-- The queue between equal indices is empty, whatever the buffer holds. -/
@[simp] theorem contents_self : contents n buf t t = [] := by simp [contents]

/-- The queue is empty between equal indices, and between no others. -/
theorem contents_eq_nil_iff (ht : t < n) : contents n buf h t = [] ↔ h = t := by
  rw [← List.length_eq_zero_iff, length_contents, count_eq_zero_iff ht]

/-- The head is the slot just past the last of the queue. -/
theorem slot_count (hh : h < n) (ht : t < n) : slot n t (count n h t) = h := by
  unfold slot count; split_ifs <;> omega

/-- Distinct places of the queue are distinct slots, so that writing one
leaves the others. -/
theorem slot_ne {j : ℕ} (hk : k < n) (hj : j < n) (hkj : k ≠ j) :
    slot n t k ≠ slot n t j := by
  unfold slot; split_ifs <;> omega

/-- The oldest element is in the slot of the tail. -/
theorem slot_zero (ht : t < n) : slot n t 0 = t := by simp [slot, ht]

/-- Seen from the next tail, every place of the queue is one further. -/
theorem slot_next (ht : t < n) (hk : k + 1 < n) : slot n (next n t) k = slot n t (k + 1) := by
  unfold slot next; split_ifs <;> omega

/-- **Full is one short of the size**: the head's next slot is the tail
exactly when `n - 1` elements are held. -/
theorem next_eq_iff (hh : h < n) (ht : t < n) : next n h = t ↔ count n h t = n - 1 := by
  unfold next count; split_ifs <;> omega

/-- Moving the head counts one more, as long as a slot stays free. -/
theorem count_next_head (hh : h < n) (ht : t < n) (hfull : count n h t < n - 1) :
    count n (next n h) t = count n h t + 1 := by
  unfold count at hfull ⊢; unfold next; split_ifs at * <;> omega

/-- Moving the tail of a ring that is not empty counts one less. -/
theorem count_next_tail (hh : h < n) (ht : t < n) (hne : h ≠ t) :
    count n h (next n t) + 1 = count n h t := by
  unfold count next; split_ifs <;> omega

/-- Writing a slot outside the queue leaves the queue alone. -/
theorem contents_update_of_ne {x : α} (hout : ∀ k < count n h t, slot n t k ≠ i) :
    contents n (Function.update buf i x) h t = contents n buf h t := by
  simp only [contents]
  refine List.map_congr_left fun k hk => ?_
  rw [Function.update_of_ne (hout k (List.mem_range.mp hk))]

/-- A slot at or past the head is outside the queue. -/
theorem slot_ne_of_count_le {j : ℕ} (hj : j < n) (ht : t < n)
    (hle : count n h t ≤ count n j t) :
    ∀ k < count n h t, slot n t k ≠ j := by
  intro k hk heq
  have hcj := count_lt hj ht
  rw [← slot_count hj ht] at heq
  exact slot_ne (by omega) hcj (by omega) heq

/-- **Writing at the head and moving it appends** an element to the queue, if
it is not full. -/
theorem contents_push {x : α} (hh : h < n) (ht : t < n) (hfull : count n h t < n - 1) :
    contents n (Function.update buf h x) (next n h) t = contents n buf h t ++ [x] := by
  have hrest : contents n (Function.update buf h x) h t = contents n buf h t :=
    contents_update_of_ne (slot_ne_of_count_le hh ht (Nat.le_refl _))
  simp only [contents] at hrest ⊢
  rw [count_next_head hh ht hfull, List.range_succ, List.map_append, hrest]
  simp [slot_count hh ht]

/-- **Moving the tail removes the oldest element**, which is the one in
its slot. -/
theorem contents_pop (hh : h < n) (ht : t < n) (hne : h ≠ t) :
    contents n buf h t = buf t :: contents n buf h (next n t) := by
  have hc := count_next_tail hh ht hne
  have hlt := count_lt hh ht
  simp only [contents]
  rw [← hc, List.range_succ_eq_map, List.map_cons, slot_zero ht, List.map_map]
  congr 1
  refine List.map_congr_left fun k hk => ?_
  have hlt' := List.mem_range.mp hk
  rw [Function.comp_apply, slot_next ht (by omega)]

/-- A non-empty queue starts with the element at the tail. -/
theorem contents_head_eq {x : α} {xs : List α} (hh : h < n) (ht : t < n)
    (hq : contents n buf h t = x :: xs) :
    h ≠ t ∧ buf t = x ∧ contents n buf h (next n t) = xs := by
  have hne : h ≠ t := by
    rintro rfl
    simp at hq
  rw [contents_pop hh ht hne] at hq
  exact ⟨hne, (List.cons.inj hq).1, (List.cons.inj hq).2⟩

end Ring
