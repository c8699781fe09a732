import Mathlib.Data.List.DropRight
/-!
# Bounded deques

A deque of bounded length drops its oldest entry when it overflows. What
it is for is the unbounded log: `Holds` says that it is the end of that
log, and appending to both keeps it so.
-/

/-- **A deque of at most `maxlen` entries**, oldest first. -/
structure BoundedDeque (α : Type) (maxlen : ℕ) where
  items : List α
  bounded : items.length ≤ maxlen

namespace BoundedDeque

variable {α : Type} {maxlen : ℕ} {q : BoundedDeque α maxlen} {log more : List α}

/-- No entries. -/
def empty : BoundedDeque α maxlen := ⟨[], Nat.zero_le _⟩

/-- A new entry at the end, and the oldest gone where it does not fit. -/
def append (q : BoundedDeque α maxlen) (x : α) : BoundedDeque α maxlen where
  items := if maxlen < (q.items ++ [x]).length then (q.items ++ [x]).tail else q.items ++ [x]
  bounded := by
    have hq := q.bounded
    split
    · rw [List.length_tail, List.length_append, List.length_singleton]
      omega
    · omega

/-- Several new entries, one after another. -/
def extend (q : BoundedDeque α maxlen) (xs : List α) : BoundedDeque α maxlen :=
  xs.foldl append q

/-- **The deque holds the end of the log.** -/
def Holds (q : BoundedDeque α maxlen) (log : List α) : Prop := q.items = log.rtake maxlen

/-- **Appending keeps the end of the log**: the new entry is its last one, and
the oldest is dropped if the deque was full. -/
theorem Holds.append (h : q.Holds log) (x : α) : (q.append x).Holds (log ++ [x]) := by
  have hlen : q.items.length = min maxlen log.length := by
    rw [h, List.rtake, List.length_drop]
    omega
  show (if maxlen < (q.items ++ [x]).length then _ else _) = _
  rw [List.length_append, List.length_singleton]
  by_cases hfull : maxlen < q.items.length + 1
  · -- what was dropped before, and one entry more
    have hcut : (log ++ [x]).length - maxlen = (log.length - maxlen) + 1 := by
      rw [List.length_append, List.length_singleton]
      omega
    have hin : log.length - maxlen ≤ log.length := Nat.sub_le _ _
    rw [if_pos hfull, h, List.rtake, List.rtake, hcut, ← List.drop_append_of_le_length hin,
      List.tail_drop]
  · have hall : log.length - maxlen = 0 := by omega
    have hall' : (log ++ [x]).length - maxlen = 0 := by
      rw [List.length_append, List.length_singleton]
      omega
    rw [if_neg hfull, h, List.rtake, List.rtake, hall, hall']
    rfl

/-- Appending several entries, one after another, keeps a deque the end of
its log. -/
theorem Holds.extend (h : q.Holds log) : (q.extend more).Holds (log ++ more) := by
  induction more generalizing q log with
  | nil =>
    rw [List.append_nil]
    exact h
  | cons x more ih =>
    rw [List.append_cons]
    exact ih (h.append x)

/-- Several at once are as good as one list after the other. -/
theorem extend_append {xs ys : List α} : q.extend (xs ++ ys) = (q.extend xs).extend ys :=
  List.foldl_append

end BoundedDeque
