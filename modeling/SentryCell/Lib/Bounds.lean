import SentryCell.Lib.Machine
import SentryCell.Lib.Word
/-!
# Checked accesses

Arrays of a fixed size, accessed by an index that is checked, and counts
that have to fit a byte. A program on a `Guarded` state makes accesses that
can fail, and is marked when one does; where every access succeeds from an
invariant and leads back to it, no run is ever marked (`run_holds`).
-/

namespace Bounds

variable {α : Type} {size srcSize dstSize offset n i : ℕ} {cells src dst : ℕ → α} {a : α}

/-- The cell `i` of an array. -/
def load (size : ℕ) (cells : ℕ → α) (i : ℕ) : Option α := if i < size then some (cells i) else none

/-- An array with the cell `i` overwritten. -/
def store (size : ℕ) (cells : ℕ → α) (i : ℕ) (a : α) : Option (ℕ → α) :=
  if i < size then some (Function.update cells i a) else none

/-- The loop that copies the first `n` cells of one array to another, from
`offset` on. -/
def copy (srcSize dstSize : ℕ) (src : ℕ → α) (offset : ℕ) : ℕ → (ℕ → α) → Option (ℕ → α)
  | 0, dst => some dst
  | n + 1, dst => do
    let dst ← copy srcSize dstSize src offset n dst
    let a ← load srcSize src n
    store dstSize dst (offset + n) a

/-- A count in a byte. -/
def narrow (n : ℕ) : Option Byte := if n < 256 then some (BitVec.ofNat 8 n) else none

/-- A load from an index below the size is the cell there. -/
theorem load_eq (h : i < size) : load size cells i = some (cells i) := if_pos h

/-- A store at an index below the size changes that cell, and no other. -/
theorem store_eq (h : i < size) : store size cells i a = some (Function.update cells i a) :=
  if_pos h

/-- A number that fits a byte is narrowed to that byte, and to nothing
else. -/
theorem narrow_eq (h : n < 256) : narrow n = some (BitVec.ofNat 8 n) := if_pos h

/-- **A copy within both arrays** is made, and touches nothing else. -/
theorem copy_eq (hsrc : n ≤ srcSize) (hdst : offset + n ≤ dstSize) :
    copy srcSize dstSize src offset n dst =
      some fun i => if offset ≤ i ∧ i < offset + n then src (i - offset) else dst i := by
  induction n with
  | zero =>
    refine congrArg some (funext fun i => ?_)
    rw [if_neg (by omega)]
  | succ n ih =>
    have hload : load srcSize src n = some (src n) := load_eq (by omega)
    rw [copy, ih (by omega) (by omega), Option.bind_eq_bind, Option.bind_some, hload,
      Option.bind_eq_bind, Option.bind_some, store_eq (by omega)]
    refine congrArg some (funext fun i => ?_)
    rw [Function.update_apply]
    by_cases hi : i = offset + n
    · rw [if_pos hi, if_pos (by omega), hi, Nat.add_sub_cancel_left]
    · rw [if_neg hi]
      by_cases hin : offset ≤ i ∧ i < offset + n
      · rw [if_pos hin, if_pos (by omega)]
      · rw [if_neg hin, if_neg (by omega)]

/-! ## Arrays that are filled from the start -/

/-- The first cells of an array hold the elements of a list. -/
def Filled (cells : ℕ → Option α) (d : List α) : Prop := ∀ i < d.length, cells i = d[i]?

variable {array : ℕ → Option α} {d : List α}

/-- Any array is filled with the empty list, as there is no cell to look
at. -/
theorem filled_nil : Filled array ([] : List α) := fun _ h => absurd h (Nat.not_lt_zero _)

/-- An array that is filled with a list is filled with one element more, once
it is stored behind them. -/
theorem Filled.store (h : Filled array d) :
    Filled (Function.update array d.length (some a)) (d ++ [a]) := by
  intro i hi
  rw [List.length_append, List.length_singleton] at hi
  by_cases hlast : i = d.length
  · rw [hlast, Function.update_self, List.getElem?_concat_length]
  · have hlt : i < d.length := by omega
    rw [Function.update_of_ne hlast, h i hlt, List.getElem?_append_left hlt]

/-- Several more, copied from another array that holds them in the same
order. -/
theorem Filled.copy {source : ℕ → Option α} {more : List α} (h : Filled array d)
    (hsource : Filled source more) :
    Filled (fun i => if d.length ≤ i ∧ i < d.length + more.length then source (i - d.length)
      else array i) (d ++ more) := by
  intro i hi
  rw [List.length_append] at hi
  by_cases hin : d.length ≤ i
  · dsimp only
    rw [if_pos ⟨hin, hi⟩, hsource (i - d.length) (by omega), List.getElem?_append_right hin]
  · have hlt : i < d.length := by omega
    dsimp only
    rw [if_neg fun hc => hin hc.1, h i hlt, List.getElem?_append_left hlt]

end Bounds

namespace Foreground

variable {σ α β D ρ E : Type}

/-- A state, and whether an access to it has failed. -/
structure Guarded (σ : Type) where
  state : σ
  faulted : Bool

namespace Guarded

/-- **An access that can fail.** A program goes on with `a` after one that
did, marked. -/
def attempt (a : α) (f : σ → Option (α × σ)) : Prog (Guarded σ) α :=
  .access (fun g => match f g.state with
    | some (b, s) => (b, { g with state := s })
    | none => (a, { g with faulted := true })) .ret

/-- An access that only reads. -/
def read (f : σ → α) : Prog (Guarded σ) α := Prog.read fun g => f g.state

/-- An access that only writes. -/
def write (f : σ → σ) : Prog (Guarded σ) Unit := attempt () fun s => some ((), f s)

/-- What was computed from locals, and may have failed. -/
def require (a : α) (r : Option α) : Prog (Guarded σ) α := attempt a fun s => r.map fun b => (b, s)

/-- A handler that can fail. -/
def handle (f : σ → Option σ) (g : Guarded σ) : Guarded σ :=
  match f g.state with
  | some s => { g with state := s }
  | none => { g with faulted := true }

/-- No access has failed, and the invariant holds. -/
def Holds (I : σ → Prop) (g : Guarded σ) : Prop := g.faulted = false ∧ I g.state

/-- Among handlers that keep this, a program that does. -/
def contract (I : σ → Prop) : Contract (Guarded σ) where
  rely g g' := Holds I g → Holds I g'
  guar g g' := Holds I g → Holds I g'
  inv := Holds I

variable {I : σ → Prop}

/-- What the environment does leaves no mark where there was none. -/
theorem stable_holds : Stable (contract I) (Holds I) := fun _ _ hg hr => hr hg

/-- A handler whose accesses succeed leaves no mark, and keeps the
invariant. -/
theorem holds_handle {f : σ → Option σ} (h : ∀ s, I s → ∃ s', f s = some s' ∧ I s')
    {g : Guarded σ} (hg : Holds I g) : Holds I (handle f g) := by
  obtain ⟨s', hf, hs'⟩ := h g.state hg.2
  unfold handle
  rw [hf]
  exact ⟨hg.1, hs'⟩

/-- **An access that succeeds**, and what is known of its result. -/
theorem triple_attempt {a : α} {f : σ → Option (α × σ)} {B : α → Prop}
    (h : ∀ s, I s → ∃ b s', f s = some (b, s') ∧ I s' ∧ B b) :
    Triple (contract I) (Holds I) (attempt a f) fun b g => B b ∧ Holds I g := by
  refine Triple.access (B := fun b g => B b ∧ Holds I g) stable_holds (fun _ hg => hg) ?_
    fun _ => Triple.ret fun _ hb => hb
  intro g hg
  obtain ⟨b, s', hf, hs', hb⟩ := h g.state hg.2
  rw [hf]
  exact ⟨fun _ => ⟨hg.1, hs'⟩, hb, hg.1, hs'⟩

/-- A read keeps the invariant, and gives a value of which `B` is known
wherever the invariant is. -/
theorem triple_read {f : σ → α} {B : α → Prop} (h : ∀ s, I s → B (f s)) :
    Triple (contract I) (Holds I) (read f) fun b g => B b ∧ Holds I g :=
  Triple.read stable_holds (fun _ hg => hg) (fun _ hg => hg) fun g hg => ⟨h g.state hg.2, hg⟩

/-- A write that keeps the invariant cannot fail, as it indexes nothing. -/
theorem triple_write {f : σ → σ} (h : ∀ s, I s → I (f s)) :
    Triple (contract I) (Holds I) (write f) fun _ => Holds I :=
  (triple_attempt (B := fun _ => True) fun s hs => ⟨(), f s, rfl, h s hs, trivial⟩).conseq
    (fun _ hg => hg) fun _ _ hg => hg.2

/-- A value that has to be there and is there is passed on without a mark. -/
theorem triple_require {a b : α} {r : Option α} {B : α → Prop} (hr : r = some b) (hb : B b) :
    Triple (contract I) (Holds I) (require a r) fun b g => B b ∧ Holds I g :=
  triple_attempt fun s hs => ⟨b, s, by rw [hr]; rfl, hs, hb⟩

/-- **An access and what follows it**, for every result that is possible: what
the access is known to return may be used. -/
theorem triple_bind {p : Prog (Guarded σ) β} {g : β → Prog (Guarded σ) α} {B : β → Prop}
    {Q : α → Guarded σ → Prop}
    (hp : Triple (contract I) (Holds I) p fun b g => B b ∧ Holds I g)
    (hg : ∀ b, B b → Triple (contract I) (Holds I) (g b) Q) :
    Triple (contract I) (Holds I) (p.bind g) Q :=
  hp.bind fun b s hs => hg b hs.1 s hs.2

/-- What follows an access of whose result nothing is known but that the
invariant held. -/
theorem triple_seq {p : Prog (Guarded σ) β} {g : β → Prog (Guarded σ) α}
    {Q : α → Guarded σ → Prop} (hp : Triple (contract I) (Holds I) p fun _ => Holds I)
    (hg : ∀ b, Triple (contract I) (Holds I) (g b) Q) :
    Triple (contract I) (Holds I) (p.bind g) Q :=
  hp.bind hg

/-- A return makes no access, so that it can neither fail nor break the
invariant. -/
theorem triple_ret {a : α} : Triple (contract I) (Holds I) (.ret a) fun _ => Holds I :=
  Triple.ret fun _ hg => hg

/-- **A machine whose accesses succeed** is never marked: from the invariant,
in every run and at every moment of it. -/
theorem run_holds {M : Machine (Guarded σ) D ρ E} {s : Guarded σ} {es : List (Event D E)}
    {c : Config (Guarded σ) D ρ}
    (henv : ∀ x g g', M.env x g = some g' → Holds I g → Holds I g')
    (htask : ∀ d, Triple (contract I) (Holds I) (M.task d) fun _ => Holds I)
    (hs : Holds I s) (h : M.run ⟨s, none, []⟩ es = some c) : Holds I c.state := by
  have hsound : Machine.Sound M (contract I) (Holds I) fun _ _ => Holds I :=
    { env := henv
      stable := stable_holds
      task := fun d => (htask d).conseq (fun _ hg => hg.1) fun _ _ hg => hg
      idle := fun _ _ _ hg => hg }
  have hstart : Machine.SafeConfig (contract I) (Holds I) (fun _ _ => Holds I)
      (⟨s, none, []⟩ : Config (Guarded σ) D ρ) := hs
  exact hsound.run_rel (R := fun g g' => Holds I g → Holds I g') (fun _ hg => hg)
    (fun _ _ _ h1 h2 hg => h2 (h1 hg)) (fun _ _ h => h) (fun _ _ h => h) hstart h hs

end Guarded

end Foreground
