import Mathlib.Data.List.Range
import Mathlib.Logic.Function.Basic
import Mathlib.Tactic.Common
/-!
# A filled region and what was written to it

A region of cells is filled with one value. The first cell that holds
another one shows how far it is untouched (`firstChanged`), and as long as
what is written is never the filling itself, that is the lowest cell
written.
-/

namespace Watermark

variable {α : Type} [DecidableEq α]

/-- **The first of `n` cells that does not hold `fill`**, `n` if there is
none. -/
def firstChanged (fill : α) (cells : ℕ → α) (n : ℕ) : ℕ :=
  ((List.range n).map cells).findIdx fun a => decide (a ≠ fill)

variable {fill v : α} {cells cells' : ℕ → α} {n i : ℕ}

/-- The first changed cell lies within the region, or just behind it where
there is none. -/
theorem firstChanged_le : firstChanged fill cells n ≤ n := by
  have hle : firstChanged fill cells n ≤ ((List.range n).map cells).length :=
    List.findIdx_le_length
  simpa using hle

/-- All the cells before the first changed one still hold `fill`. -/
theorem eq_of_lt_firstChanged (h : i < firstChanged fill cells n) : cells i = fill := by
  have hn : i < n := Nat.lt_of_lt_of_le h firstChanged_le
  have hnot := List.not_of_lt_findIdx h
  simpa using hnot

/-- The first changed cell, where there is one, holds something else. -/
theorem ne_of_firstChanged_lt (h : firstChanged fill cells n < n) :
    cells (firstChanged fill cells n) ≠ fill := by
  have hlt : firstChanged fill cells n < ((List.range n).map cells).length := by simpa using h
  have hfound := List.findIdx_getElem (w := hlt)
  simpa [firstChanged] using hfound

/-- **What characterises it**: all before it hold `fill`, and it does not,
unless it lies behind the region. -/
theorem firstChanged_eq (hle : i ≤ n) (hbefore : ∀ j < i, cells j = fill)
    (hat : i < n → cells i ≠ fill) : firstChanged fill cells n = i := by
  rcases Nat.lt_trichotomy (firstChanged fill cells n) i with hlt | heq | hgt
  · exact absurd (hbefore _ hlt) (ne_of_firstChanged_lt (Nat.lt_of_lt_of_le hlt hle))
  · exact heq
  · have hn : i < n := Nat.lt_of_lt_of_le hgt firstChanged_le
    exact absurd (eq_of_lt_firstChanged hgt) (hat hn)

/-- Which cell is the first changed one depends on the cells of the
region only. -/
theorem firstChanged_congr (h : ∀ j < n, cells j = cells' j) :
    firstChanged fill cells n = firstChanged fill cells' n := by
  refine firstChanged_eq firstChanged_le (fun j hj => ?_) (fun hlt => ?_)
  · rw [h j (Nat.lt_of_lt_of_le hj firstChanged_le)]
    exact eq_of_lt_firstChanged hj
  · rw [h _ hlt]
    exact ne_of_firstChanged_lt hlt

/-- In a region that holds `fill` throughout, the first changed cell is the
one behind it. -/
theorem firstChanged_filled (h : ∀ j < n, cells j = fill) : firstChanged fill cells n = n :=
  firstChanged_eq (Nat.le_refl n) h fun hlt => absurd hlt (Nat.lt_irrefl n)

/-- **A write of another value** brings it down to the cell written, if it
is not below already. -/
theorem firstChanged_update (hi : i < n) (hv : v ≠ fill) :
    firstChanged fill (Function.update cells i v) n = min (firstChanged fill cells n) i := by
  have hle : firstChanged fill cells n ≤ n := firstChanged_le
  refine firstChanged_eq (by omega) (fun j hj => ?_) (fun hlt => ?_)
  · have hji : j ≠ i := by omega
    rw [Function.update_of_ne hji]
    have hj' : j < firstChanged fill cells n := by omega
    exact eq_of_lt_firstChanged hj'
  · rcases Nat.lt_or_ge (firstChanged fill cells n) i with hbelow | habove
    · have hmin : min (firstChanged fill cells n) i = firstChanged fill cells n := by omega
      rw [hmin, Function.update_of_ne (by omega)]
      exact ne_of_firstChanged_lt (by omega)
    · rw [Nat.min_eq_right habove, Function.update_self]
      exact hv

end Watermark
