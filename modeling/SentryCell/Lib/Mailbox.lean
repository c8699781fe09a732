import Mathlib.Logic.Function.Basic
import Mathlib.Data.List.Basic
import Mathlib.Tactic.Common
/-!
# Mailboxes

A fixed set of boxes, each holding at most one request. A request that
arrives takes its box if that is free and is dropped otherwise; an answer
empties the box of the request it answers. The journal of a run lists what
arrived and what was answered, in order. `Run.matching` says that answers
and requests pair up: every answer has its own earlier request, and a
request that was taken is answered or still in its box.
-/

namespace Mailbox

variable {ι α β : Type}

/-- An entry of a journal: a request that arrived, with whether it took
its box, or an answer. -/
inductive Entry (α β : Type) where
  | accepted (request : α) (taken : Bool)
  | enqueued (response : β)
  deriving DecidableEq, Repr

variable [DecidableEq ι]

/-- **The runs of a set of boxes**: the journal, and what the boxes hold. -/
inductive Run (box : α → Option ι) (Answers : α → β → Prop) :
    List (Entry α β) → (ι → Option α) → Prop
  | nil : Run box Answers [] fun _ => none
  | take {journal : List (Entry α β)} {m : ι → Option α} {a : α} {k : ι}
      (h : Run box Answers journal m) (hk : box a = some k) (hfree : m k = none) :
      Run box Answers (journal ++ [.accepted a true]) (Function.update m k (some a))
  | drop {journal : List (Entry α β)} {m : ι → Option α} (a : α)
      (h : Run box Answers journal m) : Run box Answers (journal ++ [.accepted a false]) m
  | answer {journal : List (Entry α β)} {m : ι → Option α} {a : α} {b : β} {k : ι}
      (h : Run box Answers journal m) (hk : m k = some a) (hb : Answers a b) :
      Run box Answers (journal ++ [.enqueued b]) (Function.update m k none)

/-- **Answers and requests pair up.** `f` takes the place of an answer in
the journal to the place of its request, and `pos` a full box to the place
of the request it holds. -/
structure Matching (box : α → Option ι) (Answers : α → β → Prop) (journal : List (Entry α β))
    (m : ι → Option α) (f : ℕ → ℕ) (pos : ι → ℕ) : Prop where
  earlier : ∀ i b, journal[i]? = some (.enqueued b) →
    f i < i ∧ ∃ a, journal[f i]? = some (.accepted a true) ∧ Answers a b
  injective : ∀ i i' b b', journal[i]? = some (.enqueued b) →
    journal[i']? = some (.enqueued b') → f i = f i' → i = i'
  held : ∀ k a, m k = some a → box a = some k ∧ journal[pos k]? = some (.accepted a true) ∧
    ∀ i b, journal[i]? = some (.enqueued b) → f i ≠ pos k
  kept : ∀ j a, journal[j]? = some (.accepted a true) →
    (∃ k, m k = some a ∧ pos k = j) ∨ ∃ i b, journal[i]? = some (.enqueued b) ∧ f i = j

variable {box : α → Option ι} {Answers : α → β → Prop} {journal : List (Entry α β)}
variable {m : ι → Option α} {f : ℕ → ℕ} {pos : ι → ℕ} {x y : Entry α β} {i : ℕ}

omit [DecidableEq ι] in
/-- What a journal that is one entry longer says at a place: what it said
before, or the new entry at its end. -/
theorem getElem?_snoc : (journal ++ [x])[i]? = some y ↔
    journal[i]? = some y ∨ (i = journal.length ∧ x = y) := by
  rcases Nat.lt_trichotomy i journal.length with h | rfl | h
  · rw [List.getElem?_append_left h]
    constructor
    · exact .inl
    · rintro (hy | ⟨he, -⟩)
      · exact hy
      · omega
  · simp
  · have hle : (journal ++ [x]).length ≤ i := by
      rw [List.length_append, List.length_singleton]
      omega
    rw [List.getElem?_eq_none hle, List.getElem?_eq_none (by omega)]
    constructor
    · intro hy
      cases hy
    · rintro (hy | ⟨he, -⟩)
      · cases hy
      · omega

omit [DecidableEq ι] in
/-- A place that is taken is a place of the journal. -/
theorem lt_length_of_getElem? (h : journal[i]? = some y) : i < journal.length :=
  (List.getElem?_eq_some_iff.mp h).1

omit [DecidableEq ι] in
/-- A request that arrives adds no answer, so that every answer was in the
journal before. -/
theorem enqueued_of_snoc_accepted {a : α} {b : β} {taken : Bool}
    (h : (journal ++ [Entry.accepted a taken])[i]? = some (.enqueued b)) :
    journal[i]? = some (.enqueued b) := by
  rcases getElem?_snoc.mp h with hi | ⟨-, he⟩
  · exact hi
  · cases he

/-- A request that takes its free box is the one that the box is then
matched with. -/
theorem Matching.take {a : α} {k : ι} (h : Matching box Answers journal m f pos)
    (hk : box a = some k) (hfree : m k = none) :
    Matching box Answers (journal ++ [.accepted a true]) (Function.update m k (some a)) f
      (Function.update pos k journal.length) := by
  refine ⟨?_, ?_, ?_, ?_⟩
  · intro i b hi
    obtain ⟨hlt, a', ha', hb⟩ := h.earlier i b (enqueued_of_snoc_accepted hi)
    exact ⟨hlt, a', getElem?_snoc.mpr (.inl ha'), hb⟩
  · intro i i' b b' hi hi'
    exact h.injective i i' b b' (enqueued_of_snoc_accepted hi) (enqueued_of_snoc_accepted hi')
  · intro k' a' hk'
    by_cases hkk : k' = k
    · subst hkk
      rw [Function.update_self] at hk'
      obtain rfl := Option.some.inj hk'
      refine ⟨hk, ?_, ?_⟩
      · rw [Function.update_self]
        exact getElem?_snoc.mpr (.inr ⟨rfl, rfl⟩)
      · intro i b hi
        have hi' := enqueued_of_snoc_accepted hi
        have hlt := (h.earlier i b hi').1
        have hlen := lt_length_of_getElem? hi'
        rw [Function.update_self]
        omega
    · rw [Function.update_of_ne hkk] at hk' ⊢
      obtain ⟨hbox, hpos, hf⟩ := h.held k' a' hk'
      exact ⟨hbox, getElem?_snoc.mpr (.inl hpos), fun i b hi => hf i b (enqueued_of_snoc_accepted hi)⟩
  · intro j a' hj
    rcases getElem?_snoc.mp hj with hj | ⟨rfl, he⟩
    · rcases h.kept j a' hj with ⟨k', hk', hpos⟩ | ⟨i, b, hi, hf⟩
      · have hkk : k' ≠ k := by
          rintro rfl
          rw [hfree] at hk'
          cases hk'
        refine .inl ⟨k', ?_, ?_⟩
        · rw [Function.update_of_ne hkk]
          exact hk'
        · rw [Function.update_of_ne hkk]
          exact hpos
      · exact .inr ⟨i, b, getElem?_snoc.mpr (.inl hi), hf⟩
    · cases he
      refine .inl ⟨k, ?_, ?_⟩
      · rw [Function.update_self]
      · rw [Function.update_self]

omit [DecidableEq ι] in
/-- **A request that finds its box full**, or has none, is not answered, and
the matching stays what it was. -/
theorem Matching.drop (a : α) (h : Matching box Answers journal m f pos) :
    Matching box Answers (journal ++ [.accepted a false]) m f pos := by
  refine ⟨?_, ?_, ?_, ?_⟩
  · intro i b hi
    obtain ⟨hlt, a', ha', hb⟩ := h.earlier i b (enqueued_of_snoc_accepted hi)
    exact ⟨hlt, a', getElem?_snoc.mpr (.inl ha'), hb⟩
  · intro i i' b b' hi hi'
    exact h.injective i i' b b' (enqueued_of_snoc_accepted hi) (enqueued_of_snoc_accepted hi')
  · intro k a' hk
    obtain ⟨hbox, hpos, hf⟩ := h.held k a' hk
    exact ⟨hbox, getElem?_snoc.mpr (.inl hpos), fun i b hi => hf i b (enqueued_of_snoc_accepted hi)⟩
  · intro j a' hj
    rcases getElem?_snoc.mp hj with hj | ⟨-, he⟩
    · exact (h.kept j a' hj).imp_right fun ⟨i, b, hi, hf⟩ =>
        ⟨i, b, getElem?_snoc.mpr (.inl hi), hf⟩
    · cases he

/-- The answer to the request in a box is matched with it, and with no
other. -/
theorem Matching.answer {a : α} {b : β} {k : ι} (h : Matching box Answers journal m f pos)
    (hk : m k = some a) (hb : Answers a b) :
    Matching box Answers (journal ++ [.enqueued b]) (Function.update m k none)
      (Function.update f journal.length (pos k)) pos := by
  obtain ⟨hbox, hpos, hfresh⟩ := h.held k a hk
  have hlen := lt_length_of_getElem? hpos
  -- an older answer keeps its request
  have hold : ∀ i, i ≠ journal.length → Function.update f journal.length (pos k) i = f i :=
    fun i hi => Function.update_of_ne hi _ _
  have hne : ∀ {i y}, journal[i]? = some y → i ≠ journal.length := by
    intro i y hi
    have := lt_length_of_getElem? hi
    omega
  refine ⟨?_, ?_, ?_, ?_⟩
  · intro i b' hi
    rcases getElem?_snoc.mp hi with hi | ⟨rfl, he⟩
    · obtain ⟨hlt, a', ha', hb'⟩ := h.earlier i b' hi
      rw [hold i (hne hi)]
      exact ⟨hlt, a', getElem?_snoc.mpr (.inl ha'), hb'⟩
    · cases he
      rw [Function.update_self]
      exact ⟨hlen, a, getElem?_snoc.mpr (.inl hpos), hb⟩
  · intro i i' b₁ b₂ hi hi' he
    rcases getElem?_snoc.mp hi with hi | ⟨rfl, -⟩
    · rcases getElem?_snoc.mp hi' with hi' | ⟨rfl, -⟩
      · rw [hold i (hne hi), hold i' (hne hi')] at he
        exact h.injective i i' b₁ b₂ hi hi' he
      · rw [hold i (hne hi), Function.update_self] at he
        exact absurd he (hfresh i b₁ hi)
    · rcases getElem?_snoc.mp hi' with hi' | ⟨rfl, -⟩
      · rw [hold i' (hne hi'), Function.update_self] at he
        exact absurd he.symm (hfresh i' b₂ hi')
      · rfl
  · intro k' a' hk'
    have hkk : k' ≠ k := by
      rintro rfl
      rw [Function.update_self] at hk'
      cases hk'
    rw [Function.update_of_ne hkk] at hk'
    obtain ⟨hbox', hpos', hfresh'⟩ := h.held k' a' hk'
    refine ⟨hbox', getElem?_snoc.mpr (.inl hpos'), fun i b₁ hi => ?_⟩
    rcases getElem?_snoc.mp hi with hi | ⟨rfl, -⟩
    · rw [hold i (hne hi)]
      exact hfresh' i b₁ hi
    · -- two boxes do not hold the same request
      rw [Function.update_self]
      intro he
      rw [he, hpos'] at hpos
      cases hpos
      rw [hbox'] at hbox
      exact hkk (Option.some.inj hbox)
  · intro j a' hj
    rcases getElem?_snoc.mp hj with hj | ⟨-, he⟩
    · rcases h.kept j a' hj with ⟨k', hk', rfl⟩ | ⟨i, b₁, hi, hf⟩
      · by_cases hkk : k' = k
        · subst hkk
          refine .inr ⟨journal.length, b, getElem?_snoc.mpr (.inr ⟨rfl, rfl⟩), ?_⟩
          rw [Function.update_self]
        · refine .inl ⟨k', ?_, rfl⟩
          rw [Function.update_of_ne hkk]
          exact hk'
      · refine .inr ⟨i, b₁, getElem?_snoc.mpr (.inl hi), ?_⟩
        rw [hold i (hne hi)]
        exact hf
    · cases he

/-- **In every run, answers and requests pair up**: each answer with an
earlier request of its own, and each request that was taken with its answer or
its box. -/
theorem Run.matching (h : Run box Answers journal m) :
    ∃ f pos, Matching box Answers journal m f pos := by
  induction h with
  | nil =>
    refine ⟨id, fun _ => 0, ?_, ?_, ?_, ?_⟩
    · intro i b hi
      cases hi
    · intro i i' b b' hi
      cases hi
    · intro k a hk
      cases hk
    · intro j a hj
      cases hj
  | take _ hk hfree ih =>
    obtain ⟨f, pos, hm⟩ := ih
    exact ⟨f, _, hm.take hk hfree⟩
  | drop a _ ih =>
    obtain ⟨f, pos, hm⟩ := ih
    exact ⟨f, pos, hm.drop a⟩
  | answer _ hk hb ih =>
    obtain ⟨f, pos, hm⟩ := ih
    exact ⟨_, pos, hm.answer hk hb⟩

/-- A box only ever holds a request that belongs in it. -/
theorem Run.box_eq (h : Run box Answers journal m) {k : ι} {a : α} (hk : m k = some a) :
    box a = some k := by
  obtain ⟨f, pos, hm⟩ := h.matching
  exact (hm.held k a hk).1

end Mailbox
