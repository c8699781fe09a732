import Mathlib.Tactic.Common
import Mathlib.Data.List.Basic
/-!
# Programs that call their environment

A script calls what it does not own (files, ports, clocks) and goes on with
how each call ended. `Tree` is the script as the calls it makes, one branch
for each answer; `Script` adds a state of its own and exceptions, with
Python's `try`, `finally` and `with`. What the environment may answer is a
relation on the log of the calls so far (`Environment`), and `Script.Meets` is
the judgement: from a state and a log that meet `P`, however the calls end,
the script returns with `Q` or raises with `E`, of the state and the log it
leaves. `Script.Emits` says what a script adds to a view of the log, and
`Script.Follows` that this is one part for each step of a plan. Nothing here
knows what the calls are.
-/

namespace Calls

variable {C : Type} {R : C → Type} {ε σ α β γ : Type}

/-! ## Logs and trees -/

/-- A call, and how it ended. -/
structure Entry (R : C → Type) (ε : Type) where
  call : C
  outcome : Except ε (R call)

/-- The calls that have been made, oldest first. -/
abbrev Log (R : C → Type) (ε : Type) := List (Entry R ε)

/-- **A program as the calls it makes.** -/
inductive Tree (R : C → Type) (ε : Type) (α : Type) where
  | ret (a : α)
  | call (c : C) (k : Except ε (R c) → Tree R ε α)

/-- How the environment may end a call, after those of a log. -/
abbrev Environment (R : C → Type) (ε : Type) := Log R ε → (c : C) → Except ε (R c) → Prop

namespace Tree

/-- One tree after another: each leaf of the first is continued with what it
returned. -/
def bind : Tree R ε α → (α → Tree R ε β) → Tree R ε β
  | .ret a, f => f a
  | .call c k, f => .call c fun o => (k o).bind f

instance : Monad (Tree R ε) where
  pure := .ret
  bind := .bind

/-- **A run**, from the log it finds to the one it leaves. -/
inductive Runs (env : Environment R ε) : Tree R ε α → Log R ε → α → Log R ε → Prop
  | ret (a : α) (log : Log R ε) : Runs env (.ret a) log a log
  | call (c : C) (k : Except ε (R c) → Tree R ε α) (o : Except ε (R c)) (a : α)
      (log log' : Log R ε) : env log c o → Runs env (k o) (log ++ [⟨c, o⟩]) a log' →
      Runs env (.call c k) log a log'

/-- The run in an environment that is a function. -/
def exec (answer : Log R ε → (c : C) → Except ε (R c)) : Tree R ε α → Log R ε → α × Log R ε
  | .ret a, log => (a, log)
  | .call c k, log => (k (answer log c)).exec answer (log ++ [⟨c, answer log c⟩])

/-- **Every run ends well.** -/
def Ends (env : Environment R ε) (post : α → Log R ε → Prop) : Tree R ε α → Log R ε → Prop
  | .ret a, log => post a log
  | .call c k, log => ∀ o, env log c o → (k o).Ends env post (log ++ [⟨c, o⟩])

variable {env : Environment R ε} {post post' : α → Log R ε → Prop} {t : Tree R ε α}
variable {log log' : Log R ε} {a : α}

/-- A tree that ends as promised ends as any weaker promise says. -/
theorem Ends.mono (h : t.Ends env post log) (hpost : ∀ a log, post a log → post' a log) :
    t.Ends env post' log := by
  induction t generalizing log with
  | ret a => exact hpost a log h
  | call c k ih => exact fun o ho => ih o (h o ho)

/-- **Sequencing**: the first tree has to end where the second, run from
there, ends as promised. -/
theorem Ends.bind {post : β → Log R ε → Prop} {f : α → Tree R ε β}
    (h : t.Ends env (fun a log => (f a).Ends env post log) log) :
    (t.bind f).Ends env post log := by
  induction t generalizing log with
  | ret a => exact h
  | call c k ih => exact fun o ho => ih o (h o ho)

/-- What a tree always ends with, each of its runs ends with. -/
theorem Ends.run (h : t.Ends env post log) (hrun : Runs env t log a log') : post a log' := by
  induction hrun with
  | ret a log => exact h
  | call c k o a log log' ho _ ih => exact ih (h o ho)

/-- **An environment that is a function** has the run that it computes. -/
theorem runs_exec {answer : Log R ε → (c : C) → Except ε (R c)}
    (h : ∀ log c, env log c (answer log c)) :
    Runs env t log (t.exec answer log).1 (t.exec answer log).2 := by
  induction t generalizing log with
  | ret a => exact .ret a log
  | call c k ih => exact .call c k _ _ _ _ (h log c) (ih _)

theorem ends_ret : (ret a : Tree R ε α).Ends env post log ↔ post a log := Iff.rfl

/-- A call ends as promised if every way the environment may end it leads
there. -/
theorem ends_call {c : C} {k : Except ε (R c) → Tree R ε α} :
    (call c k).Ends env post log ↔
      ∀ o, env log c o → (k o).Ends env post (log ++ [⟨c, o⟩]) := Iff.rfl

-- a judgement is never proved by running the program
attribute [irreducible] Ends

end Tree

/-! ## Scripts -/

/-- **A program with a state of its own**, that returns or raises. What it
changed before it raised stays changed. -/
def Script (R : C → Type) (ε σ α : Type) := σ → Tree R ε (Except ε α × σ)

namespace Script

/-- A script that returns a value, and makes no call. -/
def ret (a : α) : Script R ε σ α := fun s => .ret (.ok a, s)

/-- A script that raises, and makes no call. -/
def raise (e : ε) : Script R ε σ α := fun s => .ret (.error e, s)

/-- One script after another. What raises ends the whole, with the state
it left. -/
def bind (p : Script R ε σ α) (f : α → Script R ε σ β) : Script R ε σ β := fun s =>
  (p s).bind fun
    | (.ok a, s') => f a s'
    | (.error e, s') => .ret (.error e, s')

instance : Monad (Script R ε σ) where
  pure := ret
  bind := bind

/-- A script of one call: it returns what the call returned, or raises what it
raised. -/
def call (c : C) : Script R ε σ (R c) := fun s => .call c fun o => .ret (o, s)

/-- A look at the script's own state. -/
def read (f : σ → α) : Script R ε σ α := fun s => .ret (.ok (f s), s)

/-- A change of the script's own state. -/
def modify (f : σ → σ) : Script R ε σ Unit := fun s => .ret (.ok (), f s)

/-- A value, or the exception that it came to. -/
def ofExcept (o : Except ε α) : Script R ε σ α := fun s => .ret (o, s)

/-- `try: p` with a handler for every exception; one that does not catch
raises again. -/
def handle (p : Script R ε σ α) (h : ε → Script R ε σ α) : Script R ε σ α := fun s =>
  (p s).bind fun
    | (.ok a, s') => .ret (.ok a, s')
    | (.error e, s') => h e s'

/-- `try: p finally: q`. What `q` raises takes the place of what `p` came
to. -/
def andFinally (p : Script R ε σ α) (q : Script R ε σ Unit) : Script R ε σ α := fun s =>
  (p s).bind fun r => (q r.2).bind fun
    | (.ok (), s') => .ret (r.1, s')
    | (.error e, s') => .ret (.error e, s')

/-- `with`: the body runs between the two, and the second runs however the
body ends. -/
def bracket (enter leave : Script R ε σ Unit) (body : Script R ε σ α) : Script R ε σ α :=
  enter >>= fun _ => body.andFinally leave

/-- A `for` loop over what is left of its range, that hands a value on. -/
def forEach (body : β → α → Script R ε σ β) : List α → β → Script R ε σ β
  | [], b => pure b
  | a :: rest, b => body b a >>= fun b' => forEach body rest b'

/-! ## The judgement -/

/-- **However the calls end**, the script returns with `Q` or raises with
`E`. -/
def Meets (env : Environment R ε) (P : σ → Log R ε → Prop) (p : Script R ε σ α)
    (Q : α → σ → Log R ε → Prop) (E : ε → σ → Log R ε → Prop) : Prop :=
  ∀ s log, P s log → (p s).Ends env (fun r log' =>
    (∀ a, r.1 = .ok a → Q a r.2 log') ∧ ∀ e, r.1 = .error e → E e r.2 log') log

variable {env : Environment R ε} {P P' : σ → Log R ε → Prop} {Q Q' : α → σ → Log R ε → Prop}
variable {E E' : ε → σ → Log R ε → Prop} {p : Script R ε σ α}

/-- **Consequence**, with one promise for each of the two ends. -/
theorem Meets.conseq (h : Meets env P' p Q' E') (hP : ∀ s log, P s log → P' s log)
    (hQ : ∀ a s log, Q' a s log → Q a s log) (hE : ∀ e s log, E' e s log → E e s log) :
    Meets env P p Q E := by
  intro s log hs
  refine (h s log (hP s log hs)).mono fun r log' hr => ⟨fun a ha => ?_, fun e he => ?_⟩
  · exact hQ _ _ _ (hr.1 a ha)
  · exact hE _ _ _ (hr.2 e he)

/-- A fact that the precondition comes with may be assumed of the script,
whatever it is used for. -/
theorem meets_of_fact {q : Prop} (h : q → Meets env P p Q E) :
    Meets env (fun s log => q ∧ P s log) p Q E :=
  fun s log hs => h hs.1 s log hs.2

/-- **A run of a script that meets its judgement** ends with the promise for
its end: the first where it returned, the second where it raised. -/
theorem Meets.run {s s' : σ} {o : Except ε α} {log log' : Log R ε} (h : Meets env P p Q E)
    (hs : P s log) (hrun : Tree.Runs env (p s) log (o, s') log') :
    (∀ a, o = .ok a → Q a s' log') ∧ ∀ e, o = .error e → E e s' log' :=
  (h s log hs).run hrun

/-- What a return has to meet is the first promise, with the attributes and
the log as they are. -/
theorem ends_ok {a : α} {s : σ} {log : Log R ε} (h : Q a s log) :
    (Tree.ret (Except.ok a, s) : Tree R ε (Except ε α × σ)).Ends env (fun r log' =>
      (∀ a, r.1 = .ok a → Q a r.2 log') ∧ ∀ e, r.1 = .error e → E e r.2 log') log := by
  refine Tree.ends_ret.mpr ⟨?_, nofun⟩
  rintro b ⟨rfl⟩
  exact h

/-- A leaf that raises meets the second of the two promises, and the first
does not concern it. -/
theorem ends_error {e : ε} {s : σ} {log : Log R ε} (h : E e s log) :
    (Tree.ret (Except.error e, s) : Tree R ε (Except ε α × σ)).Ends env (fun r log' =>
      (∀ a, r.1 = .ok a → Q a r.2 log') ∧ ∀ e, r.1 = .error e → E e r.2 log') log := by
  refine Tree.ends_ret.mpr ⟨nofun, ?_⟩
  rintro e' ⟨rfl⟩
  exact h

/-- A return makes no call, so its promise has to follow from the
precondition. -/
theorem meets_ret {a : α} (h : ∀ s log, P s log → Q a s log) :
    Meets env P (pure a : Script R ε σ α) Q E := fun s log hs => ends_ok (h s log hs)

/-- Raising meets a judgement if the exception's promise holds already where
it is raised. -/
theorem meets_raise {e : ε} (h : ∀ s log, P s log → E e s log) :
    Meets env P (raise e : Script R ε σ α) Q E := fun s log hs => ends_error (h s log hs)

/-- What was computed as a value or an exception ends as it was computed. -/
theorem meets_ofExcept {o : Except ε α} (hok : ∀ a, o = .ok a → ∀ s log, P s log → Q a s log)
    (herror : ∀ e, o = .error e → ∀ s log, P s log → E e s log) :
    Meets env P (ofExcept o) Q E := by
  intro s log hs
  rcases o with e | a
  · exact ends_error (herror e rfl s log hs)
  · exact ends_ok (hok a rfl s log hs)

/-- Reading an attribute makes no call and tells what it holds. -/
theorem meets_read {f : σ → α} (h : ∀ s log, P s log → Q (f s) s log) :
    Meets env P (read f) Q E := fun s log hs => ends_ok (h s log hs)

/-- Nor does setting one, which leaves the log as it was. -/
theorem meets_modify {f : σ → σ} {Q : Unit → σ → Log R ε → Prop}
    (h : ∀ s log, P s log → Q () (f s) log) : Meets env P (modify f) Q E :=
  fun s log hs => ends_ok (h s log hs)

/-- **One call**, which may return or raise: either way it is in the log, and
the attributes are as before. -/
theorem meets_call {c : C} {Q : R c → σ → Log R ε → Prop}
    (hok : ∀ s log r, P s log → env log c (.ok r) → Q r s (log ++ [⟨c, .ok r⟩]))
    (herror : ∀ s log e, P s log → env log c (.error e) → E e s (log ++ [⟨c, .error e⟩])) :
    Meets env P (call c) Q E := by
  intro s log hs
  refine Tree.ends_call.mpr fun o ho => ?_
  rcases o with e | r
  · exact ends_error (herror s log e hs ho)
  · exact ends_ok (hok s log r hs ho)

/-- **One after the other**: the second script starts where the first
returned, and an exception of the first is one of the whole. -/
theorem Meets.bind {B : α → σ → Log R ε → Prop} {f : α → Script R ε σ β}
    {Q : β → σ → Log R ε → Prop} (hp : Meets env P p B E)
    (hf : ∀ a, Meets env (B a) (f a) Q E) : Meets env P (p >>= f) Q E := by
  intro s log hs
  refine Tree.Ends.bind ((hp s log hs).mono ?_)
  rintro ⟨e | a, s'⟩ log' hr
  · exact ends_error (hr.2 e rfl)
  · exact hf a s' log' (hr.1 a rfl)

/-- **An exception is handled** by a script that starts with the attributes
and the log that it was raised with. -/
theorem Meets.handle {B : ε → σ → Log R ε → Prop} {h : ε → Script R ε σ α}
    (hp : Meets env P p Q B) (hh : ∀ e, Meets env (B e) (h e) Q E) :
    Meets env P (p.handle h) Q E := by
  intro s log hs
  refine Tree.Ends.bind ((hp s log hs).mono ?_)
  rintro ⟨e | a, s'⟩ log' hr
  · exact hh e s' log' (hr.2 e rfl)
  · exact ends_ok (hr.1 a rfl)

/-- **What is done in any case** runs from both ends of the body, and the
whole ends as the body did unless it raises itself. -/
theorem Meets.andFinally {q : Script R ε σ Unit} {B : α → σ → Log R ε → Prop}
    {X : ε → σ → Log R ε → Prop} (hp : Meets env P p B X)
    (hq : ∀ a, Meets env (B a) q (fun _ => Q a) E)
    (hraised : ∀ e, Meets env (X e) q (fun _ => E e) E) :
    Meets env P (p.andFinally q) Q E := by
  intro s log hs
  refine Tree.Ends.bind ((hp s log hs).mono ?_)
  rintro ⟨e | a, s'⟩ log' hr
  · refine Tree.Ends.bind ((hraised e s' log' (hr.2 e rfl)).mono ?_)
    rintro ⟨e' | ⟨⟩, s''⟩ log'' hr'
    · exact ends_error (hr'.2 e' rfl)
    · exact ends_error (hr'.1 () rfl)
  · refine Tree.Ends.bind ((hq a s' log' (hr.1 a rfl)).mono ?_)
    rintro ⟨e' | ⟨⟩, s''⟩ log'' hr'
    · exact ends_error (hr'.2 e' rfl)
    · exact ends_ok (hr'.1 () rfl)

/-- **The `for` loop**, by an invariant on what is left of the range. -/
theorem meets_forEach {body : β → γ → Script R ε σ β} {I : List γ → β → σ → Log R ε → Prop}
    (hbody : ∀ x rest b, Meets env (I (x :: rest) b) (body b x) (I rest) E) (xs : List γ) (b : β) :
    Meets env (I xs b) (forEach body xs b) (I []) E := by
  induction xs generalizing b with
  | nil => exact meets_ret fun s log hs => hs
  | cons x rest ih => exact (hbody x rest b).bind fun b' => ih b'

/-! ## What a script adds to a view of the log -/

section

variable {κ : Type} {view : Entry R ε → List κ}

/-- **What a script adds to a view of the log**: a part in `Q` where it
returns, and one in `E` where it raises, from any state and log. -/
def Emits (env : Environment R ε) (view : Entry R ε → List κ) (p : Script R ε σ α)
    (Q : α → List κ → Prop) (E : ε → List κ → Prop) : Prop :=
  ∀ seen, Meets env (fun _ log => log.flatMap view = seen) p
    (fun a _ log => ∃ added, Q a added ∧ log.flatMap view = seen ++ added)
    fun e _ log => ∃ added, E e added ∧ log.flatMap view = seen ++ added

variable {Q Q' : α → List κ → Prop} {E E' : ε → List κ → Prop}

/-- Of what a script shows, less may be said at either of its ends. -/
theorem Emits.conseq (h : Emits env view p Q' E') (hQ : ∀ a added, Q' a added → Q a added)
    (hE : ∀ e added, E' e added → E e added) : Emits env view p Q E := by
  intro seen
  refine (h seen).conseq (fun _ _ hs => hs) ?_ ?_
  · rintro a s log ⟨added, ha, hlog⟩
    exact ⟨added, hQ a added ha, hlog⟩
  · rintro e s log ⟨added, he, hlog⟩
    exact ⟨added, hE e added he, hlog⟩

/-- **What a run adds** to the log, as far as it is shown, is what the script
emits, whether it returns or raises. -/
theorem Emits.run {s s' : σ} {o : Except ε α} {log log' : Log R ε} (h : Emits env view p Q E)
    (hrun : Tree.Runs env (p s) log (o, s') log') :
    ∃ added, log'.flatMap view = log.flatMap view ++ added ∧
      (∀ a, o = .ok a → Q a added) ∧ ∀ e, o = .error e → E e added := by
  obtain ⟨hok, herror⟩ := (h _).run rfl hrun
  rcases o with e | a
  · obtain ⟨added, he, hlog⟩ := herror e rfl
    refine ⟨added, hlog, nofun, ?_⟩
    rintro e' ⟨rfl⟩
    exact he
  · obtain ⟨added, ha, hlog⟩ := hok a rfl
    refine ⟨added, hlog, ?_, nofun⟩
    rintro a' ⟨rfl⟩
    exact ha

/-- A return shows nothing, so the promise is of the empty transcript. -/
theorem emits_ret {a : α} (h : Q a []) : Emits env view (pure a : Script R ε σ α) Q E :=
  fun seen => meets_ret fun _ _ hs => ⟨[], h, by rw [hs, List.append_nil]⟩

/-- Raising adds nothing to the view, and has the exception's promise to
keep. -/
theorem emits_raise {e : ε} (h : E e []) : Emits env view (raise e : Script R ε σ α) Q E :=
  fun seen => meets_raise fun _ _ hs => ⟨[], h, by rw [hs, List.append_nil]⟩

/-- Nor what was computed as a value or as an exception. -/
theorem emits_ofExcept {o : Except ε α} (hok : ∀ a, o = .ok a → Q a [])
    (herror : ∀ e, o = .error e → E e []) : Emits env view (ofExcept o : Script R ε σ α) Q E := by
  rcases o with e | a
  · exact emits_raise (herror e rfl)
  · exact emits_ret (hok a rfl)

/-- Reading the state makes no call, so that it adds nothing to the view. -/
theorem emits_read {f : σ → α} (h : ∀ s, Q (f s) []) : Emits env view (read f) Q E :=
  fun seen => meets_read fun s _ hs => ⟨[], h s, by rw [hs, List.append_nil]⟩

/-- Changing the state makes no call, so that it adds nothing to the view. -/
theorem emits_modify {f : σ → σ} {Q : Unit → List κ → Prop} (h : Q () []) :
    Emits env view (modify f) Q E :=
  fun seen => meets_modify fun _ _ hs => ⟨[], h, by rw [hs, List.append_nil]⟩

/-- **One call** shows what the view makes of its entry in the log, returned
or raised. -/
theorem emits_call {c : C} {Q : R c → List κ → Prop} (hok : ∀ r, Q r (view ⟨c, .ok r⟩))
    (herror : ∀ e, E e (view ⟨c, .error e⟩)) :
    Emits env view (call c : Script R ε σ (R c)) Q E := by
  refine fun seen => meets_call ?_ ?_
  · rintro s log r rfl -
    exact ⟨_, hok r, by rw [List.flatMap_append, List.flatMap_singleton]⟩
  · rintro s log e rfl -
    exact ⟨_, herror e, by rw [List.flatMap_append, List.flatMap_singleton]⟩

/-- From what is added since, to what is added in all. -/
theorem Emits.since {added : List κ} {seen seen' : List κ} (hseen : seen' = seen ++ added)
    (h : Emits env view p (fun a more => Q a (added ++ more)) fun e more => E e (added ++ more)) :
    Meets env (fun _ log => log.flatMap view = seen') p
      (fun a _ log => ∃ added, Q a added ∧ log.flatMap view = seen ++ added)
      fun e _ log => ∃ added, E e added ∧ log.flatMap view = seen ++ added := by
  subst hseen
  refine (h _).conseq (fun _ _ hs => hs) ?_ ?_
  · rintro a s log ⟨more, ha, hlog⟩
    exact ⟨added ++ more, ha, by rw [hlog, List.append_assoc]⟩
  · rintro e s log ⟨more, he, hlog⟩
    exact ⟨added ++ more, he, by rw [hlog, List.append_assoc]⟩

/-- **One after the other**: what is shown by the second is added to what was
shown by the first. -/
theorem Emits.bind {B : α → List κ → Prop} {f : α → Script R ε σ β} {Q : β → List κ → Prop}
    (hp : Emits env view p B E)
    (hf : ∀ a added, B a added →
      Emits env view (f a) (fun b more => Q b (added ++ more)) fun e more => E e (added ++ more)) :
    Emits env view (p >>= f) Q E := by
  refine fun seen => (hp seen).bind fun a => ?_
  rintro s log ⟨added, ha, hlog⟩
  exact Emits.since rfl (hf a added ha) s log hlog

/-- **An exception is handled**: what the handler shows is added to what was
shown before it was raised. -/
theorem Emits.handle {B : ε → List κ → Prop} {h : ε → Script R ε σ α} (hp : Emits env view p Q B)
    (hh : ∀ e added, B e added →
      Emits env view (h e) (fun a more => Q a (added ++ more)) fun e more => E e (added ++ more)) :
    Emits env view (p.handle h) Q E := by
  refine fun seen => (hp seen).handle fun e => ?_
  rintro s log ⟨added, he, hlog⟩
  exact Emits.since rfl (hh e added he) s log hlog

/-- A script that adds nothing. -/
def Silent (env : Environment R ε) (view : Entry R ε → List κ) (p : Script R ε σ α) : Prop :=
  Emits env view p (fun _ added => added = []) fun _ added => added = []

/-- **A silent script** emits whatever may be emitted by adding nothing,
whichever way it ends. -/
theorem Silent.emits (h : Silent env view p) (hQ : ∀ a, Q a []) (hE : ∀ e, E e []) :
    Emits env view p Q E := by
  refine Emits.conseq h ?_ ?_
  · rintro a - rfl
    exact hQ a
  · rintro e - rfl
    exact hE e

/-- **What is done in any case**, silently. It may raise, and then what was
returned is not. -/
theorem Emits.andFinally {q : Script R ε σ Unit} (hp : Emits env view p Q E)
    (hq : Silent env view q) (hQE : ∀ a e added, Q a added → E e added)
    (hE : ∀ e e' added, E e added → E e' added) : Emits env view (p.andFinally q) Q E := by
  refine fun seen => (hp seen).andFinally (fun a => ?_) fun e => ?_
  · rintro s log ⟨added, ha, hlog⟩
    have hadded := List.append_nil added
    have hleave : Emits env view q (fun _ more => Q a (added ++ more))
        fun e more => E e (added ++ more) :=
      hq.emits (fun _ => by rwa [hadded]) fun e => by
        rw [hadded]
        exact hQE a e added ha
    exact Emits.since (Q := fun _ => Q a) rfl hleave s log hlog
  · rintro s log ⟨added, he, hlog⟩
    have hadded := List.append_nil added
    have hleave : Emits env view q (fun _ more => E e (added ++ more))
        fun e' more => E e' (added ++ more) :=
      hq.emits (fun _ => by rwa [hadded]) fun e' => by
        rw [hadded]
        exact hE e e' added he
    exact Emits.since (Q := fun _ => E e) rfl hleave s log hlog

theorem silent_ret (a : α) : Silent env view (pure a : Script R ε σ α) := emits_ret rfl

theorem silent_raise (e : ε) : Silent env view (raise e : Script R ε σ α) := emits_raise rfl

/-- Reading the state is silent, for it makes no call. -/
theorem silent_read (f : σ → α) : Silent env view (read f : Script R ε σ α) :=
  emits_read fun _ => rfl

/-- Changing the state is silent, for it makes no call. -/
theorem silent_modify (f : σ → σ) : Silent env view (modify f : Script R ε σ Unit) :=
  emits_modify rfl

/-- A call is silent if the view shows nothing of it, however it ends. -/
theorem silent_call {c : C} (h : ∀ o, view ⟨c, o⟩ = []) :
    Silent env view (call c : Script R ε σ (R c)) := emits_call (fun _ => h _) fun _ => h _

/-- **Silent scripts in sequence** are silent, also where the first one
raises. -/
theorem Silent.bind {f : α → Script R ε σ β} (hp : Silent env view p)
    (hf : ∀ a, Silent env view (f a)) : Silent env view (p >>= f) := by
  refine Emits.bind hp fun a added hadded => ?_
  subst hadded
  exact hf a

/-- A silent script with a silent handler is silent, whether or not it raises.
-/
theorem Silent.handle {h : ε → Script R ε σ α} (hp : Silent env view p)
    (hh : ∀ e, Silent env view (h e)) : Silent env view (p.handle h) := by
  refine Emits.handle hp fun e added hadded => ?_
  subst hadded
  exact hh e

/-- So is one of two silent scripts, whichever the condition picks. -/
theorem Silent.ite {b : Prop} [Decidable b] {q : Script R ε σ α} (hp : Silent env view p)
    (hq : Silent env view q) : Silent env view (if b then p else q) := by
  split
  · exact hp
  · exact hq

/-- **The `for` loop**, by an invariant on what is left of the range and
what has been added. -/
theorem emits_forEach {body : β → γ → Script R ε σ β} {I : List γ → β → List κ → Prop}
    (hbody : ∀ x rest b added, I (x :: rest) b added → Emits env view (body b x)
      (fun b' more => I rest b' (added ++ more)) fun e more => E e (added ++ more))
    (xs : List γ) (b : β) (added : List κ) (h : I xs b added) :
    Emits env view (forEach body xs b) (fun b' more => I [] b' (added ++ more))
      fun e more => E e (added ++ more) := by
  induction xs generalizing b added with
  | nil => exact emits_ret (by rwa [List.append_nil])
  | cons x rest ih =>
    refine (hbody x rest b added h).bind fun b' more hmore => ?_
    refine (ih b' (added ++ more) hmore).conseq ?_ ?_
    · intro b'' more' hmore'
      rwa [← List.append_assoc]
    · intro e more' hmore'
      rwa [← List.append_assoc]

/-- And so is a loop over any list, if its body is silent for every element.
-/
theorem silent_forEach {body : β → γ → Script R ε σ β} (h : ∀ b x, Silent env view (body b x))
    (xs : List γ) (b : β) : Silent env view (forEach body xs b) := by
  refine emits_forEach (I := fun _ _ added => added = []) (E := fun _ added => added = []) ?_
    xs b [] rfl
  rintro x rest b - rfl
  exact h b x

end

end Script

/-! ## Plans -/

/-- **A step of a plan**: what it adds where it is done, and what it has
added where the script raises in it. -/
structure Step (κ : Type) where
  complete : List κ → Prop
  begun : List κ → Prop

/-- **A plan that is kept**: what was added is one completed part for each
step, in their order. -/
def Kept {κ : Type} : List (Step κ) → List κ → Prop
  | [], added => added = []
  | step :: rest, added => ∃ part more, step.complete part ∧ Kept rest more ∧ added = part ++ more

/-- **A plan that stopped**: a completed part for each of the first steps, and
the one after them begun or not. -/
def Stopped {κ : Type} : List (Step κ) → List κ → Prop
  | [], added => added = []
  | step :: rest, added => added = [] ∨ step.begun added ∨
    ∃ part more, step.complete part ∧ Stopped rest more ∧ added = part ++ more

section

variable {κ : Type} {plan plan' : List (Step κ)} {added more : List κ}

/-- Before the first step nothing is shown: every plan may have stopped there.
-/
theorem stopped_nil : Stopped plan [] := by
  cases plan with
  | nil => rfl
  | cons step rest => exact .inl rfl

/-- Behind a plan that is kept, another may stop at any of its steps. -/
theorem Kept.stopped_append (h : Kept plan added) (hmore : Stopped plan' more) :
    Stopped (plan ++ plan') (added ++ more) := by
  induction plan generalizing added with
  | nil =>
    obtain rfl : added = [] := h
    exact hmore
  | cons step rest ih =>
    obtain ⟨part, more', hpart, hrest, rfl⟩ := h
    exact .inr (.inr ⟨part, more' ++ more, hpart, ih hrest, List.append_assoc ..⟩)

/-- Plans that are kept one after the other are kept together. -/
theorem Kept.append (h : Kept plan added) (hmore : Kept plan' more) :
    Kept (plan ++ plan') (added ++ more) := by
  induction plan generalizing added with
  | nil =>
    obtain rfl : added = [] := h
    exact hmore
  | cons step rest ih =>
    obtain ⟨part, more', hpart, hrest, rfl⟩ := h
    exact ⟨part, more' ++ more, hpart, ih hrest, List.append_assoc ..⟩

/-- A plan that stopped has stopped within any longer plan that begins
with it. -/
theorem Stopped.append (h : Stopped plan added) : Stopped (plan ++ plan') added := by
  induction plan generalizing added with
  | nil =>
    obtain rfl : added = [] := h
    exact stopped_nil
  | cons step rest ih =>
    obtain rfl | h | ⟨part, more, hpart, hrest, rfl⟩ := h
    · exact .inl rfl
    · exact .inr (.inl h)
    · exact .inr (.inr ⟨part, more, hpart, ih hrest, rfl⟩)

/-- A plan that was kept to its end counts as stopped there. -/
theorem Kept.stopped (h : Kept plan added) : Stopped plan added := by
  have hstopped : Stopped (plan ++ []) (added ++ []) := h.stopped_append stopped_nil
  rwa [List.append_nil, List.append_nil] at hstopped

/-- A plan of one step is kept by completing that step. -/
theorem kept_singleton {step : Step κ} (h : step.complete added) : Kept [step] added :=
  ⟨added, [], h, rfl, (List.append_nil added).symm⟩

end

/-! ## Scripts that follow a plan -/

namespace Script

section

variable {κ ι : Type} {env : Environment R ε} {view : Entry R ε → List κ}
variable {known : ι → Prop} {result : α → ι → Prop} {plan : ι → List (Step κ)}
variable {p : Script R ε σ α}

/-- **A script follows a plan** that depends on what it reads on its way: a
record of it, of which some is `known` beforehand. Where the script returns
the plan is kept, for a record that the value is a `result` of, and where it
raises the plan is stopped. -/
def Planned (env : Environment R ε) (view : Entry R ε → List κ) (known : ι → Prop)
    (result : α → ι → Prop) (plan : ι → List (Step κ)) (p : Script R ε σ α) : Prop :=
  Emits env view p (fun a added => ∃ v, known v ∧ result a v ∧ Kept (plan v) added)
    fun _ added => ∃ v, known v ∧ Stopped (plan v) added

/-- A script that carries out one step: `learned` is what its value tells of
the record. -/
def Carries (env : Environment R ε) (view : Entry R ε → List κ) (known : ι → Prop)
    (learned : α → ι → Prop) (step : ι → Step κ) (p : Script R ε σ α) : Prop :=
  Emits env view p
    (fun a added => (∃ v, known v ∧ learned a v) ∧
      ∀ v, known v → learned a v → (step v).complete added)
    fun _ added => ∃ v, known v ∧ (added = [] ∨ (step v).begun added)

/-- **One step, and the rest of the plan**, for what is known of the record
once the step has been read. -/
theorem Carries.bind {learned : α → ι → Prop} {step : ι → Step κ} {result : β → ι → Prop}
    {f : α → Script R ε σ β} (hp : Carries env view known learned step p)
    (hf : ∀ a, (∃ v, known v ∧ learned a v) →
      Planned env view (fun v => known v ∧ learned a v) result plan (f a)) :
    Planned env view known result (fun v => step v :: plan v) (p >>= f) := by
  refine Emits.bind (hp.conseq (fun _ _ h => h) ?_) fun a part hpart => ?_
  · rintro e added ⟨v, hv, rfl | hadded⟩
    · exact ⟨v, hv, stopped_nil⟩
    · exact ⟨v, hv, .inr (.inl hadded)⟩
  · refine Emits.conseq (hf a hpart.1) ?_ ?_
    · rintro b added ⟨v, ⟨hv, ha⟩, hb, hadded⟩
      exact ⟨v, hv, hb, part, added, hpart.2 v hv ha, hadded, rfl⟩
    · rintro e added ⟨v, ⟨hv, ha⟩, hadded⟩
      exact ⟨v, hv, .inr (.inr ⟨part, added, hpart.2 v hv ha, hadded, rfl⟩)⟩

/-- A script that follows the plan of one of the records that are possible
does so too where more of them are. -/
theorem Planned.mono {known' : ι → Prop} (h : ∀ v, known' v → known v)
    (hp : Planned env view known' result plan p) : Planned env view known result plan p := by
  refine Emits.conseq hp ?_ ?_
  · rintro a added ⟨v, hv, ha, hadded⟩
    exact ⟨v, h v hv, ha, hadded⟩
  · rintro e added ⟨v, hv, hadded⟩
    exact ⟨v, h v hv, hadded⟩

/-- A silent script before one with a plan changes neither the plan nor what
is known. -/
theorem Silent.bind_planned {result : β → ι → Prop} {f : α → Script R ε σ β}
    (hp : Silent env view p) (hknown : ∃ v, known v)
    (hf : ∀ a, Planned env view known result plan (f a)) :
    Planned env view known result plan (p >>= f) := by
  obtain ⟨v, hv⟩ := hknown
  refine Emits.bind (B := fun _ added => added = []) (hp.emits (fun _ => rfl) fun _ => ?_) ?_
  · exact ⟨v, hv, stopped_nil⟩
  · rintro a - rfl
    exact hf a

/-- Where nothing is left of the plan, nothing more may be shown, and the
result has to be that of a record that is possible. -/
theorem planned_nil (hp : Emits env view p
      (fun a added => added = [] ∧ ∃ v, known v ∧ result a v) fun _ added => added = [])
    (hknown : ∃ v, known v) : Planned env view known result (fun _ => []) p := by
  refine hp.conseq ?_ ?_
  · rintro a - ⟨rfl, v, hv, ha⟩
    exact ⟨v, hv, ha, rfl⟩
  · rintro e - rfl
    obtain ⟨v, hv⟩ := hknown
    exact ⟨v, hv, rfl⟩

/-- A silent script after one with a plan may still raise; the plan then
counts as stopped. -/
theorem Planned.bind_silent {f : α → Script R ε σ β} {result' : β → ι → Prop}
    (hp : Planned env view known result plan p)
    (hf : ∀ a, Emits env view (f a) (fun b added => added = [] ∧ ∀ v, result a v → result' b v)
      fun _ added => added = []) : Planned env view known result' plan (p >>= f) := by
  refine Emits.bind hp fun a part hpart => (hf a).conseq ?_ ?_
  · rintro b - ⟨rfl, hb⟩
    obtain ⟨v, hv, ha, hkept⟩ := hpart
    exact ⟨v, hv, hb v ha, by rwa [List.append_nil]⟩
  · rintro e - rfl
    obtain ⟨v, hv, -, hkept⟩ := hpart
    refine ⟨v, hv, ?_⟩
    rw [List.append_nil]
    exact hkept.stopped

/-- **What is done in any case**, silently, leaves the plan and the result of
the body. -/
theorem Planned.andFinally {q : Script R ε σ Unit} (hp : Planned env view known result plan p)
    (hq : Silent env view q) : Planned env view known result plan (p.andFinally q) := by
  refine Emits.andFinally hp hq ?_ fun _ _ _ h => h
  rintro a e added ⟨v, hv, -, hkept⟩
  exact ⟨v, hv, hkept.stopped⟩

/-- **One plan after the other**: the second may depend on the record that the
first one leaves. -/
theorem Planned.bind {ι' : Type} {known' : ι' → Prop} {result' : α → β → ι' → Prop}
    {plan' : ι' → List (Step κ)} {f : α → Script R ε σ β}
    (hp : Planned env view known result plan p) (hknown' : ∃ v', known' v')
    (hf : ∀ a, Planned env view known' (result' a) plan' (f a)) :
    Planned env view (fun v : ι × ι' => known v.1 ∧ known' v.2)
      (fun b v => ∃ a, result a v.1 ∧ result' a b v.2) (fun v => plan v.1 ++ plan' v.2)
      (p >>= f) := by
  obtain ⟨v', hv'⟩ := hknown'
  refine Emits.bind (hp.conseq (fun _ _ h => h) ?_) ?_
  · rintro e added ⟨v, hv, hadded⟩
    exact ⟨(v, v'), ⟨hv, hv'⟩, hadded.append⟩
  · rintro a part ⟨v, hv, ha, hpart⟩
    refine Emits.conseq (hf a) ?_ ?_
    · rintro b added ⟨v', hv', hb, hadded⟩
      exact ⟨(v, v'), ⟨hv, hv'⟩, ⟨a, ha, hb⟩, hpart.append hadded⟩
    · rintro e added ⟨v', hv', hadded⟩
      exact ⟨(v, v'), ⟨hv, hv'⟩, hpart.stopped_append hadded⟩

/-- A plan may be replaced by one that is equal for every record that is
possible. -/
theorem Planned.congr {plan' : ι → List (Step κ)} (hp : Planned env view known result plan p)
    (h : ∀ v, known v → plan v = plan' v) : Planned env view known result plan' p := by
  refine Emits.conseq hp ?_ ?_
  · rintro a added ⟨v, hv, ha, hadded⟩
    exact ⟨v, hv, ha, h v hv ▸ hadded⟩
  · rintro e added ⟨v, hv, hadded⟩
    exact ⟨v, hv, h v hv ▸ hadded⟩

/-- **A script that follows a fixed plan**: it keeps the plan where it
returns, and has stopped within it where it raises. -/
def Follows (env : Environment R ε) (view : Entry R ε → List κ) (plan : List (Step κ))
    (p : Script R ε σ α) : Prop := Emits env view p (fun _ => Kept plan) fun _ => Stopped plan

variable {plan plan' : List (Step κ)}

/-- A silent script follows the empty plan, for it shows nothing. -/
theorem Silent.follows (h : Silent env view p) : Follows env view [] p := h

/-- A script that shows one step, whole or begun, follows the plan of that
step. -/
theorem follows_step {step : Step κ} (h : Emits env view p (fun _ => step.complete) fun _ added =>
    added = [] ∨ step.begun added ∨ step.complete added) : Follows env view [step] p := by
  refine h.conseq (fun _ added hadded => kept_singleton hadded) ?_
  rintro e added (rfl | hadded | hadded)
  · exact stopped_nil
  · exact .inr (.inl hadded)
  · exact (kept_singleton hadded).stopped

/-- **Scripts in sequence** follow their plans in sequence, and stop in the
first plan or in the second. -/
theorem Follows.bind {f : α → Script R ε σ β} (hp : Follows env view plan p)
    (hf : ∀ a, Follows env view plan' (f a)) : Follows env view (plan ++ plan') (p >>= f) := by
  refine Emits.bind (B := fun _ => Kept plan) (hp.conseq (fun _ _ h => h) fun _ _ h => h.append) ?_
  intro a added hadded
  refine Emits.conseq (hf a) (fun _ more hmore => hadded.append hmore) ?_
  exact fun _ more hmore => hadded.stopped_append hmore

/-- A silent script before one with a plan leaves it that plan. -/
theorem Silent.bind_follows {f : α → Script R ε σ β} (hp : Silent env view p)
    (hf : ∀ a, Follows env view plan (f a)) : Follows env view plan (p >>= f) :=
  hp.follows.bind hf

/-- So does a silent script after it, which may still raise. -/
theorem Follows.bind_silent {f : α → Script R ε σ β} (hp : Follows env view plan p)
    (hf : ∀ a, Silent env view (f a)) : Follows env view plan (p >>= f) := by
  have h := hp.bind fun a => (hf a).follows
  rwa [List.append_nil] at h

/-- **`with`**: the plan of what opens and that of the body, where what closes
shows nothing. -/
theorem Follows.bracket {enter leave : Script R ε σ Unit} (henter : Follows env view plan enter)
    (hleave : Silent env view leave) (hp : Follows env view plan' p) :
    Follows env view (plan ++ plan') (Script.bracket enter leave p) :=
  henter.bind fun _ => Emits.andFinally hp hleave (fun _ _ _ h => h.stopped) fun _ _ _ h => h

/-- **A loop**, with a plan for each round and an invariant on what is left
of the range. -/
theorem follows_forEach {body : β → γ → Script R ε σ β} {steps : γ → List (Step κ)}
    {J : List γ → β → Prop}
    (h : ∀ x rest b, J (x :: rest) b → Emits env view (body b x)
      (fun b' added => J rest b' ∧ Kept (steps x) added) fun _ => Stopped (steps x))
    (xs : List γ) (b : β) (hb : J xs b) :
    Follows env view (xs.flatMap steps) (forEach body xs b) := by
  induction xs generalizing b with
  | nil => exact (silent_ret b).follows
  | cons x rest ih =>
    refine Emits.bind ((h x rest b hb).conseq (fun _ _ h => h) fun _ _ h => h.append) ?_
    rintro b' added ⟨hb', hadded⟩
    refine Emits.conseq (ih b' hb') (fun _ more hmore => hadded.append hmore) ?_
    exact fun _ more hmore => hadded.stopped_append hmore

end

end Script

end Calls
