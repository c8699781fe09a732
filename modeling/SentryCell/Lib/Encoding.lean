import Mathlib.Data.List.Basic
import Mathlib.Tactic.Common
/-!
# Encodings that can be read back

What is written must tell what was meant. A code gives each word a non-empty
string such that no two words start the same stream, and a class of
unfinished tails that no word starts: a stream is then a sequence of words
and one unfinished tail in at most one way (`Free.unique`). A numeral that is
filled with zeros up to a width, and has the digits it needs beyond it,
tells its number (`zeroPadded_injective`).
-/

/-! ## Streams cut into code words -/

namespace PrefixCode

variable {σ α : Type}

/-- A code in which the first word of a stream is determined, with the
tails in which no word is complete. -/
structure Free (code : σ → List α) (Unfinished : List α → Prop) : Prop where
  ne_nil : ∀ s, code s ≠ []
  free : ∀ s s' r r', code s ++ r = code s' ++ r' → s = s'
  unfinished : ∀ s r, ¬ Unfinished (code s ++ r)

variable {code : σ → List α} {Unfinished : List α → Prop}

/-- **A stream is cut in at most one way** into whole codes and an
unfinished rest. -/
theorem Free.unique (h : Free code Unfinished) {segs segs' : List σ} {tail tail' : List α}
    (heq : segs.flatMap code ++ tail = segs'.flatMap code ++ tail')
    (ht : Unfinished tail) (ht' : Unfinished tail') : segs = segs' ∧ tail = tail' := by
  induction segs generalizing segs' with
  | nil =>
    rcases segs' with _ | ⟨s', segs'⟩
    · exact ⟨rfl, heq⟩
    · rw [List.flatMap_nil, List.nil_append, List.flatMap_cons, List.append_assoc] at heq
      rw [heq] at ht
      exact absurd ht (h.unfinished s' _)
  | cons s segs ih =>
    rcases segs' with _ | ⟨s', segs'⟩
    · rw [List.flatMap_nil, List.nil_append, List.flatMap_cons, List.append_assoc] at heq
      rw [← heq] at ht'
      exact absurd ht' (h.unfinished s _)
    · rw [List.flatMap_cons, List.flatMap_cons, List.append_assoc, List.append_assoc] at heq
      obtain rfl := h.free s s' _ _ heq
      obtain ⟨rfl, rfl⟩ := ih (List.append_cancel_left heq)
      exact ⟨rfl, rfl⟩

end PrefixCode

/-! ## Numerals of a least width -/

namespace Decimal

/-- The numeral of `n`, of `width` digits at least. -/
def zeroPadded (width n : ℕ) : String :=
  String.ofList
    (List.replicate (width - (Nat.toDigits 10 n).length) '0' ++ Nat.toDigits 10 n)

/-- **The numeral tells the number**, whatever it is filled to. -/
theorem zeroPadded_injective (width : ℕ) : Function.Injective (zeroPadded width) := by
  intro m n h
  have hread : ∀ k, Nat.ofDigitChars 10 (zeroPadded width k).toList 0 = k := by
    intro k
    rw [zeroPadded, String.toList_ofList, Nat.ofDigitChars_append, Nat.ofDigitChars_replicate_zero,
      Nat.mul_zero, Nat.ofDigitChars_ten_toDigits]
  rw [← hread m, h, hread n]

end Decimal
