import Mathlib.Order.Basic
import Mathlib.Tactic.Common
/-!
# Foreground programs under interrupts

A single-core controller runs one foreground program, and interrupt
handlers run to completion between any two of its accesses to shared
state. A foreground program is a tree of single accesses (`Prog`), and
`Safe` and `Triple` are the rely-guarantee judgement on such trees: the
environment moves by `rely` between any two accesses, every access moves
by `guar`, and `inv` holds whenever the program still has an access to
make. `Triple.bind`, `Triple.access` and `Triple.loop` are the rules a
proof is assembled from; nothing here knows what the state is.
-/

namespace Foreground

variable {σ τ α β : Type}

/-- **A foreground program.** Each `access` is one indivisible step on the
shared state; what the program computes between two accesses is in its
locals, which the continuation binds. A `loop` runs its body until the
body returns `none`, and then continues. -/
inductive Prog (σ : Type) : Type → Type 1 where
  | ret {α : Type} (a : α) : Prog σ α
  | access {α β : Type} (f : σ → β × σ) (k : β → Prog σ α) : Prog σ α
  | loop {α β : Type} (body : β → Prog σ (Option β)) (b : β) (k : Prog σ α) : Prog σ α

namespace Prog

/-- Sequencing. -/
def bind : Prog σ α → (α → Prog σ β) → Prog σ β
  | .ret a, g => g a
  | .access f k, g => .access f fun b => (k b).bind g
  | .loop body b k, g => .loop body b (k.bind g)

instance : Monad (Prog σ) where
  pure := .ret
  bind := .bind

/-- One access that only reads. -/
def read (f : σ → β) : Prog σ β := .access (fun s => (f s, s)) .ret

/-- One access that only writes. -/
def write (f : σ → σ) : Prog σ Unit := .access (fun s => ((), f s)) .ret

/-- What a loop does after one run of its body. -/
def again (body : β → Prog σ (Option β)) (k : Prog σ α) : Option β → Prog σ α
  | some b => .loop body b k
  | none => k

/-- One foreground step. A finished program has none; entering a loop
body is a step that leaves the state alone. -/
def next : Prog σ α → σ → Option (Prog σ α × σ)
  | .ret _, _ => none
  | .access f k, s => some (k (f s).1, (f s).2)
  | .loop body b k, s => some ((body b).bind (again body k), s)

/-- The result of a finished program. -/
def result : Prog σ α → Option α
  | .ret a => some a
  | _ => none

/-- A run with interrupts off, of a program that has no loop. -/
def uninterrupted : Prog σ α → σ → Option (α × σ)
  | .ret a, s => some (a, s)
  | .access f k, s => (k (f s).1).uninterrupted (f s).2
  | .loop .., _ => none

/-- **A program without loops.** -/
def Straight : Prog σ α → Prop
  | .ret _ => True
  | .access _ k => ∀ b, (k b).Straight
  | .loop .. => False

/-- A straight program followed by straight ones has no loop either. -/
theorem Straight.bind {p : Prog σ α} {g : α → Prog σ β} (h : p.Straight)
    (hg : ∀ a, (g a).Straight) : (p.bind g).Straight := by
  induction p with
  | ret a => exact hg a
  | access f k ih => exact fun b => ih b (h b) hg
  | loop body b k _ _ => exact h.elim

theorem straight_read (f : σ → β) : (read f).Straight := fun _ => trivial

theorem straight_write (f : σ → σ) : (write f).Straight := fun _ => trivial

/-- With interrupts off, a program without loops returns: its accesses follow
one another until none is left. -/
theorem Straight.uninterrupted {p : Prog σ α} (h : p.Straight) (s : σ) :
    ∃ r, p.uninterrupted s = some r := by
  induction p generalizing s with
  | ret a => exact ⟨(a, s), rfl⟩
  | access f k ih => exact ih (f s).1 (h _) (f s).2
  | loop body b k _ _ => exact h.elim

/-- A program that can make a step has not returned yet. -/
theorem result_of_next {p p' : Prog σ α} {s s' : σ} (h : p.next s = some (p', s')) :
    p.result = none := by
  rcases p with _ | _ | _
  · cases h
  · rfl
  · rfl

/-- Returning what a program returns adds no access to it, and changes no
result. -/
theorem bind_ret (p : Prog σ α) : p.bind .ret = p := by
  induction p with
  | ret a => rfl
  | access f k ih => simp only [bind, ih]
  | loop body b k _ ih => simp only [bind, ih]

/-- A program whose result says nothing is the same with that result returned
again. -/
theorem bind_ret_unit (p : Prog σ Unit) : (p.bind fun _ => .ret ()) = p := bind_ret p

/-- **Sequencing associates**, so that a program can be cut wherever a proof
needs an assertion. -/
theorem bind_assoc {γ : Type} (p : Prog σ α) (g : α → Prog σ β) (h : β → Prog σ γ) :
    (p.bind g).bind h = p.bind fun a => (g a).bind h := by
  induction p with
  | ret a => rfl
  | access f k ih => simp only [bind, ih]
  | loop body b k _ ih => simp only [bind, ih]

/-- What follows a loop is carried along by each of its turns, so it may be
moved into what the loop continues with. -/
theorem again_bind (body : β → Prog σ (Option β)) (k : Prog σ α) {γ : Type}
    (g : α → Prog σ γ) :
    (fun o => (again body k o).bind g) = again body (k.bind g) := by
  funext o
  cases o <;> rfl

@[simp] theorem next_ret (a : α) (s : σ) : (ret a : Prog σ α).next s = none := rfl

/-- The next access of a program that begins with a read: the state stays, and
what was read is passed on. -/
@[simp] theorem next_read_bind (f : σ → β) (g : β → Prog σ α) (s : σ) :
    ((read f).bind g).next s = some (g (f s), s) := rfl

/-- The next access of a program that begins with a write, which changes the
state and passes nothing on. -/
@[simp] theorem next_write_bind (f : σ → σ) (g : Unit → Prog σ α) (s : σ) :
    ((write f).bind g).next s = some (g (), f s) := rfl

@[simp] theorem pure_eq (a : α) : (pure a : Prog σ α) = .ret a := rfl

@[simp] theorem bind_eq (p : Prog σ α) (g : α → Prog σ β) : p >>= g = p.bind g := rfl

end Prog

/-! ## The judgement -/

/-- What the environment may do between two accesses, what an access may
do, and what holds while the program runs. -/
structure Contract (σ : Type) where
  rely : σ → σ → Prop
  guar : σ → σ → Prop
  inv : σ → Prop

variable {C : Contract σ}

/-- **Safety for `n` steps.** Whatever the environment does between the
accesses, the invariant holds until the program returns, every access is
within the guarantee, and the result meets `Q`. -/
def Safe (C : Contract σ) (Q : α → σ → Prop) : ℕ → Prog σ α → σ → Prop
  | 0, _, _ => True
  | _ + 1, .ret a, s => Q a s
  | n + 1, p, s => C.inv s ∧ (∀ s', C.rely s s' → Safe C Q n p s') ∧
      ∀ p' s', p.next s = some (p', s') → C.guar s s' ∧ Safe C Q n p' s'

/-- **The triple**: from a state that meets `P` the program is safe for
any number of steps. -/
def Triple (C : Contract σ) (P : σ → Prop) (p : Prog σ α) (Q : α → σ → Prop) : Prop :=
  ∀ s, P s → ∀ n, Safe C Q n p s

/-- An assertion the environment keeps. -/
def Stable (C : Contract σ) (P : σ → Prop) : Prop := ∀ s s', P s → C.rely s s' → P s'

/-- What two stable assertions say together is stable: the environment ends
neither. -/
theorem Stable.and {P P' : σ → Prop} (h : Stable C P) (h' : Stable C P') :
    Stable C fun s => P s ∧ P' s :=
  fun s s' hp hr => ⟨h s s' hp.1 hr, h' s s' hp.2 hr⟩

/-- A fact that does not mention the state cannot be disturbed. -/
theorem Stable.const (q : Prop) : Stable C fun _ => q := fun _ _ h _ => h

/-- Within no steps nothing can go wrong, whatever the program is. -/
theorem safe_zero {Q : α → σ → Prop} {p : Prog σ α} {s : σ} : Safe C Q 0 p s := by
  cases p <;> trivial

/-- A program that has returned is safe for any number of steps, where its
state is as promised. -/
theorem safe_ret {Q : α → σ → Prop} {a : α} {s : σ} {n : ℕ} (h : Q a s) :
    Safe C Q n (.ret a) s := by
  cases n with
  | zero => trivial
  | succ n => exact h

/-- **A safe program that has returned** did so in a state that meets the
postcondition. -/
theorem Safe.post {Q : α → σ → Prop} {a : α} {s : σ} {n : ℕ}
    (h : Safe C Q (n + 1) (.ret a) s) : Q a s := h

/-- The unfolding of safety at a program that has a step to make. -/
theorem safe_succ_iff {Q : α → σ → Prop} {p : Prog σ α} {s : σ} {n : ℕ}
    (hp : p.result = none) :
    Safe C Q (n + 1) p s ↔ C.inv s ∧ (∀ s', C.rely s s' → Safe C Q n p s') ∧
      ∀ p' s', p.next s = some (p', s') → C.guar s s' ∧ Safe C Q n p' s' := by
  cases p with
  | ret a => cases hp
  | access f k => exact Iff.rfl
  | loop body b k => exact Iff.rfl

/-- A program that keeps a promise keeps every weaker one, for as many steps.
-/
theorem Safe.conseq {Q Q' : α → σ → Prop} (hQ : ∀ a s, Q a s → Q' a s) {n : ℕ} :
    ∀ {p : Prog σ α} {s : σ}, Safe C Q n p s → Safe C Q' n p s := by
  induction n with
  | zero => intro p s _; exact safe_zero
  | succ n ih =>
    intro p s h
    cases hp : p.result with
    | some a =>
      cases p with
      | ret b => exact safe_ret (hQ b s h.post)
      | access f k => cases hp
      | loop body b k => cases hp
    | none =>
      rw [safe_succ_iff hp] at h ⊢
      exact ⟨h.1, fun s' hr => ih (h.2.1 s' hr),
        fun p' s' hn => ⟨(h.2.2 p' s' hn).1, ih (h.2.2 p' s' hn).2⟩⟩

/-- Safety through a sequence: what the first part leaves is safe to
continue from, for as many steps as remain. -/
theorem Safe.bind {B : α → σ → Prop} {Q : β → σ → Prop} {g : α → Prog σ β} {n : ℕ}
    (hg : ∀ a s m, m ≤ n → B a s → Safe C Q m (g a) s) :
    ∀ {p : Prog σ α} {s : σ} {m : ℕ}, m ≤ n → Safe C B m p s → Safe C Q m (p.bind g) s := by
  intro p s m
  induction m generalizing p s with
  | zero => intro _ _; exact safe_zero
  | succ m ih =>
    intro hm h
    cases p with
    | ret a => exact hg a s (m + 1) hm h.post
    | access f k =>
      refine ⟨h.1, fun s' hr => ih (p := .access f k) (by omega) (h.2.1 s' hr), ?_⟩
      intro p' s' hn
      cases hn
      have hk := h.2.2 (k (f s).1) (f s).2 rfl
      exact ⟨hk.1, ih (by omega) hk.2⟩
    | loop body b k =>
      refine ⟨h.1, fun s' hr => ih (p := .loop body b k) (by omega) (h.2.1 s' hr), ?_⟩
      intro p' s' hn
      cases hn
      have hk := h.2.2 ((body b).bind (Prog.again body k)) s rfl
      refine ⟨hk.1, ?_⟩
      have := ih (by omega) hk.2
      rwa [Prog.bind_assoc, Prog.again_bind] at this

/-- **Safety by an invariant on what remains.** A relation between
programs and states that the environment and every step keep. -/
theorem Safe.of_stages {R : Prog σ α → σ → Prop} {Q : α → σ → Prop}
    (hpost : ∀ a s, R (.ret a) s → Q a s) (hinv : ∀ p s, p.result = none → R p s → C.inv s)
    (hrely : ∀ p s s', p.result = none → R p s → C.rely s s' → R p s')
    (hstep : ∀ p s p' s', R p s → p.next s = some (p', s') → C.guar s s' ∧ R p' s')
    {p : Prog σ α} {s : σ} (h : R p s) (n : ℕ) : Safe C Q n p s := by
  induction n generalizing p s with
  | zero => exact safe_zero
  | succ n ih =>
    rcases hp : p.result with _ | a
    · rw [safe_succ_iff hp]
      refine ⟨hinv p s hp h, fun s' hr => ih (hrely p s s' hp h hr), fun p' s' hn => ?_⟩
      obtain ⟨hg, hR⟩ := hstep p s p' s' h hn
      exact ⟨hg, ih hR⟩
    · rcases p with b | _ | _
      · exact safe_ret (hpost b s h)
      · cases hp
      · cases hp

/-! ## The rules -/

namespace Triple

variable {P P' : σ → Prop} {Q Q' : α → σ → Prop}

/-- **Consequence**: a triple may be given a stronger precondition and a
weaker postcondition. -/
theorem conseq {p : Prog σ α} (h : Triple C P' p Q') (hP : ∀ s, P s → P' s)
    (hQ : ∀ a s, Q' a s → Q a s) : Triple C P p Q :=
  fun s hs n => (h s (hP s hs) n).conseq hQ

/-- Among less, for more: an environment that does less, and a contract that
asks for less. -/
theorem weaken {D : Contract σ} {p : Prog σ α} (h : Triple C P p Q)
    (hrely : ∀ s s', D.rely s s' → C.rely s s') (hguar : ∀ s s', C.guar s s' → D.guar s s')
    (hinv : ∀ s, C.inv s → D.inv s) : Triple D P p Q := by
  intro s hs n
  refine Safe.of_stages (R := fun p s => ∀ n, Safe C Q n p s) (fun _ _ h => (h 1).post) ?_ ?_ ?_
    (h s hs) n
  · intro p s hp h
    exact hinv s ((safe_succ_iff hp).mp (h 1)).1
  · intro p s s' hp h hr n
    exact ((safe_succ_iff hp).mp (h (n + 1))).2.1 s' (hrely s s' hr)
  · intro p s p' s' h hn
    have hp : p.result = none := Prog.result_of_next hn
    have hstep := fun n => ((safe_succ_iff hp).mp (h (n + 1))).2.2 p' s' hn
    exact ⟨hguar s s' (hstep 0).1, fun n => (hstep n).2⟩

/-- A return makes no access, so it only has to fulfil the promise. -/
theorem ret {a : α} (h : ∀ s, P s → Q a s) : Triple C P (.ret a) Q :=
  fun s hs _ => safe_ret (h s hs)

/-- Nothing has to be proved of a program that is never reached: its assertion
is met by no state. -/
theorem of_false {p : Prog σ α} (h : ∀ s, ¬ P s) : Triple C P p Q :=
  fun s hs => absurd hs (h s)

/-- **One access.** The precondition has to survive the environment, since
interrupts may run before the access does; the postcondition need not. -/
theorem access {f : σ → β × σ} {k : β → Prog σ α} {B : β → σ → Prop} (hstable : Stable C P)
    (hinv : ∀ s, P s → C.inv s)
    (hstep : ∀ s, P s → C.guar s (f s).2 ∧ B (f s).1 (f s).2)
    (hk : ∀ b, Triple C (B b) (k b) Q) : Triple C P (.access f k) Q := by
  intro s hs n
  induction n generalizing s with
  | zero => exact safe_zero
  | succ n ih =>
    refine ⟨hinv s hs, fun s' hr => ih s' (hstable s s' hs hr), ?_⟩
    intro p' s' hn
    cases hn
    exact ⟨(hstep s hs).1, hk _ _ (hstep s hs).2 n⟩

/-- **Sequencing**: the assertion between two programs is the postcondition of
the first, for each result, and the precondition of what follows. -/
theorem bind {p : Prog σ β} {B : β → σ → Prop} {g : β → Prog σ α} (hp : Triple C P p B)
    (hg : ∀ b, Triple C (B b) (g b) Q) : Triple C P (p.bind g) Q :=
  fun s hs n => Safe.bind (n := n) (fun b s m _ hb => hg b s hb m) (Nat.le_refl n) (hp s hs n)

/-- **A read** needs the invariant and an assertion that the interrupts leave;
what it learns holds in the state it was read in. -/
theorem read {f : σ → β} {B : β → σ → Prop} (hstable : Stable C P)
    (hinv : ∀ s, P s → C.inv s) (hrefl : ∀ s, C.guar s s)
    (hstep : ∀ s, P s → B (f s) s) : Triple C P (Prog.read f) B :=
  access hstable hinv (fun s hs => ⟨hrefl s, hstep s hs⟩) fun _ => ret fun _ h => h

/-- **A write** has to move by the guarantee, from any state that the
assertion allows. -/
theorem write {f : σ → σ} {B : Unit → σ → Prop} (hstable : Stable C P)
    (hinv : ∀ s, P s → C.inv s)
    (hstep : ∀ s, P s → C.guar s (f s) ∧ B () (f s)) : Triple C P (Prog.write f) B :=
  access hstable hinv hstep fun _ => ret fun _ h => h

/-- A read, and what follows it with the value that was read: the assertion on
the value has to be stable, as interrupts may come before it is used. -/
theorem read_bind {f : σ → β} {g : β → Prog σ α} {B : β → σ → Prop} (hstable : Stable C P)
    (hinv : ∀ s, P s → C.inv s) (hrefl : ∀ s, C.guar s s) (hstep : ∀ s, P s → B (f s) s)
    (hg : ∀ b, Triple C (B b) (g b) Q) : Triple C P ((Prog.read f).bind g) Q :=
  bind (read hstable hinv hrefl hstep) hg

/-- A write, and what follows it from the assertion that it leads to. -/
theorem write_bind {f : σ → σ} {g : Unit → Prog σ α} {B : σ → Prop} (hstable : Stable C P)
    (hinv : ∀ s, P s → C.inv s) (hstep : ∀ s, P s → C.guar s (f s) ∧ B (f s))
    (hg : Triple C B (g ()) Q) : Triple C P ((Prog.write f).bind g) Q :=
  bind (write hstable hinv hstep) fun _ => hg

/-- **The loop rule.** `I b` holds each time the body is entered with `b`;
the body hands on the next one, or leaves the loop with `E`. -/
theorem loop {body : β → Prog σ (Option β)} {k : Prog σ α} {I : β → σ → Prop}
    {E : σ → Prop} {b : β} (hstable : ∀ b, Stable C (I b))
    (hinv : ∀ b s, I b s → C.inv s) (hrefl : ∀ s, C.guar s s)
    (hbody : ∀ b, Triple C (I b) (body b) fun o s => match o with
      | some b' => I b' s
      | none => E s)
    (hk : Triple C E k Q) : Triple C (I b) (.loop body b k) Q := by
  intro s hs n
  induction n using Nat.strongRecOn generalizing b s with
  | _ n ih =>
    cases n with
    | zero => exact safe_zero
    | succ n =>
      refine ⟨hinv b s hs, fun s' hr => ih n (by omega) s' (hstable b s s' hs hr), ?_⟩
      intro p' s' hn
      cases hn
      refine ⟨hrefl s, Safe.bind (n := n) ?_ (Nat.le_refl n) (hbody b s hs n)⟩
      intro o t m hm ho
      cases o with
      | some b' => exact ih m (by omega) t ho
      | none => exact hk t ho m

/-- A loop that is never left needs an assertion that each of its turns keeps,
and promises nothing. -/
theorem forever {P : σ → Prop} (hstable : Stable C P) (hinv : ∀ s, P s → C.inv s)
    (hrefl : ∀ s, C.guar s s) {k : Prog σ α} :
    Triple C P (.loop (fun _ : Unit => .ret (some ())) () k) Q :=
  loop (I := fun _ => P) (E := fun _ => False) (fun _ => hstable) (fun _ => hinv) hrefl
    (fun _ => ret fun _ h => h) (of_false fun _ h => h)

/-- A run with the interrupts off meets the postcondition, for it is one of
the runs that the triple speaks of. -/
theorem uninterrupted {p : Prog σ α} (h : Triple C P p Q) {s s' : σ} {a : α} (hs : P s)
    (hp : p.uninterrupted s = some (a, s')) : Q a s' := by
  have hsafe := h s hs
  clear h hs
  induction p generalizing s with
  | ret b =>
    cases hp
    exact (hsafe 1).post
  | access f k ih =>
    have hnext : ∀ n, Safe C Q n (k (f s).1) (f s).2 := fun n =>
      ((safe_succ_iff rfl).mp (hsafe (n + 1))).2.2 _ _ rfl |>.2
    exact ih (f s).1 hp hnext
  | loop body b k _ _ => cases hp

end Triple

end Foreground
