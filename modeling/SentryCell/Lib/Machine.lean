import SentryCell.Lib.Foreground
/-!
# Machines: one foreground, many interrupts

A `Machine` dispatches foreground programs one at a time, lets its
environment act at any moment, and logs what each dispatch returned. A
run is a list of events, and `run` is the executable semantics.
`Staged.run` is the induction every run theorem is read off: an idle
invariant `I`, and for the program in progress a relation `R` between
what remains of it and the state. `run_safe` is its instance where `R` is
the judgement of `Foreground`. Before them stand the runs of a partial step
without programs, for a system whose every event is atomic.
-/

/-! ## Runs of a partial step -/

namespace Runs

variable {σ ε : Type}

/-- **A run** of the events of a list, all of which have to be possible. -/
def run (step : σ → ε → Option σ) : σ → List ε → Option σ
  | s, [] => some s
  | s, e :: es => (step s e).bind fun s' => run step s' es

variable {step : σ → ε → Option σ} {s s' : σ} {e : ε} {es es' : List ε}

@[simp] theorem run_nil : run step s [] = some s := rfl

/-- A run of one event and more is a step and the run from where it leads. -/
theorem run_cons_eq_some :
    run step s (e :: es) = some s' ↔ ∃ s₁, step s e = some s₁ ∧ run step s₁ es = some s' :=
  Option.bind_eq_some_iff

/-- **What every step keeps** holds after every run that starts with it. -/
theorem kept {I : σ → Prop} (hstep : ∀ s e s', I s → step s e = some s' → I s') (hI : I s)
    (h : run step s es = some s') : I s' := by
  induction es generalizing s with
  | nil =>
    obtain rfl : s = s' := by simpa using h
    exact hI
  | cons e es ih =>
    obtain ⟨s₁, hs, hrun⟩ := run_cons_eq_some.mp h
    exact ih (hstep s e s₁ hI hs) hrun

end Runs

namespace Foreground

variable {σ τ α β : Type}

/-! ## Lenses -/

/-- A component `σ` of a larger state `τ`. What else a `set` changes is
left open, so that a history variable can follow the component. -/
structure Lens (τ σ : Type) where
  get : τ → σ
  set : σ → τ → τ
  get_set : ∀ s t, get (set s t) = s
  set_get : ∀ t, set (get t) t = t

attribute [simp] Lens.get_set Lens.set_get

namespace Lens

/-- The whole state as its own component. -/
def id (σ : Type) : Lens σ σ := ⟨fun s => s, fun s _ => s, fun _ _ => rfl, fun _ => rfl⟩

/-- A component of a component. -/
def comp {ρ : Type} (L : Lens ρ τ) (M : Lens τ σ) : Lens ρ σ where
  get r := M.get (L.get r)
  set s r := L.set (M.set s (L.get r)) r
  get_set _ _ := by simp
  set_get _ := by simp

end Lens

namespace Prog

/-- A program on a component, as a program on the whole state. -/
def zoom (L : Lens τ σ) : {α : Type} → Prog σ α → Prog τ α
  | _, .ret a => .ret a
  | _, .access f k => .access (fun t => ((f (L.get t)).1, L.set (f (L.get t)).2 t))
      fun b => zoom L (k b)
  | _, .loop body b k => .loop (fun b => zoom L (body b)) b (zoom L k)

/-- A component's program in sequence is the sequence of its parts on the
component. -/
@[simp] theorem zoom_bind (L : Lens τ σ) (p : Prog σ α) (g : α → Prog σ β) :
    zoom L (p.bind g) = (zoom L p).bind fun a => zoom L (g a) := by
  induction p with
  | ret a => rfl
  | access f k ih => simp only [bind, zoom, ih]
  | loop body b k _ ih => simp only [bind, zoom, ih]

@[simp] theorem zoom_ret (L : Lens τ σ) (a : α) : zoom L (ret a : Prog σ α) = ret a := rfl

/-- Reading on a component is reading the whole state through the lens. -/
@[simp] theorem zoom_read (L : Lens τ σ) (f : σ → β) :
    zoom L (read f) = read fun t => f (L.get t) := by
  simp [read, zoom]

/-- And writing on it sets the component, with whatever else the lens records.
-/
@[simp] theorem zoom_write (L : Lens τ σ) (f : σ → σ) :
    zoom L (write f) = write fun t => L.set (f (L.get t)) t := by
  simp [write, zoom]

/-- A program without loops has none when it is run on a component. -/
theorem Straight.zoom (L : Lens τ σ) {p : Prog σ α} (h : p.Straight) : (p.zoom L).Straight := by
  induction p with
  | ret a => trivial
  | access f k ih => exact fun b => ih b (h b)
  | loop body b k _ _ => exact h.elim

/-- The whole state is no component: a program on it is the program itself. -/
theorem zoom_id (p : Prog σ α) : zoom (Lens.id σ) p = p := by
  induction p with
  | ret a => rfl
  | access f k ih =>
    rw [zoom]
    exact congrArg _ (funext ih)
  | loop body b k ihb ihk =>
    rw [zoom, ihk]
    exact congrArg (fun body => loop body b k) (funext ihb)

/-- A loop on a component takes its turns there, and goes on there when it
is left. -/
theorem zoom_again (L : Lens τ σ) (body : β → Prog σ (Option β)) (k : Prog σ α) :
    (fun o => zoom L (again body k o)) = again (fun b => zoom L (body b)) (zoom L k) := by
  funext o
  rcases o with _ | b
  · rfl
  · rfl

/-- **A step of a zoomed program** is the component's step, in place. -/
theorem zoom_next (L : Lens τ σ) (p : Prog σ α) (t : τ) :
    (zoom L p).next t = (p.next (L.get t)).map fun r => (zoom L r.1, L.set r.2 t) := by
  rcases p with a | ⟨f, k⟩ | ⟨body, b, k⟩
  · rfl
  · rfl
  · simp only [zoom, next, Option.map_some, zoom_bind, zoom_again, Lens.set_get]

/-- Running a program on a component does not touch what it has returned. -/
@[simp] theorem zoom_result (L : Lens τ σ) (p : Prog σ α) : (zoom L p).result = p.result := by
  rcases p with _ | _ | _ <;> rfl

/-- **An access on a component** is one of the program, from the component of
the state, and sets just that. -/
theorem zoom_next_eq_some {L : Lens τ σ} {p : Prog σ α} {q : Prog τ α} {t t' : τ}
    (h : (zoom L p).next t = some (q, t')) :
    ∃ p' s', p.next (L.get t) = some (p', s') ∧ q = zoom L p' ∧ t' = L.set s' t := by
  rw [zoom_next, Option.map_eq_some_iff] at h
  obtain ⟨⟨p', s'⟩, hn, he⟩ := h
  obtain ⟨rfl, rfl⟩ := Prod.mk.inj he
  exact ⟨p', s', hn, rfl, rfl⟩

/-- A component of a component is reached by the two lenses in sequence. -/
theorem zoom_zoom {ρ : Type} (L : Lens ρ τ) (M : Lens τ σ) (p : Prog σ α) :
    zoom L (zoom M p) = zoom (L.comp M) p := by
  induction p with
  | ret a => rfl
  | access f k ih => simp only [zoom, ih]; rfl
  | loop body b k ihb ihk => simp only [zoom, ihb, ihk]

end Prog

/-- **A program on a component keeps what does not depend on it.** -/
theorem Triple.zoom {C : Contract τ} {I : τ → Prop} (L : Lens τ σ) (p : Prog σ α)
    (hstable : Stable C I) (hinv : ∀ t, I t → C.inv t)
    (hset : ∀ t s, I t → C.guar t (L.set s t) ∧ I (L.set s t)) :
    Triple C I (p.zoom L) fun _ => I := by
  intro t ht
  refine Safe.of_stages (R := fun q t => I t ∧ ∃ p : Prog σ α, q = p.zoom L) (fun _ _ h => h.1)
    (fun _ t _ h => hinv t h.1) (fun _ t t' _ h hr => ⟨hstable t t' h.1 hr, h.2⟩) ?_
    ⟨ht, p, rfl⟩
  rintro q t q' t' ⟨ht, p, rfl⟩ hn
  obtain ⟨p', s', -, rfl, rfl⟩ := Prog.zoom_next_eq_some hn
  obtain ⟨hg, ht'⟩ := hset t s' ht
  exact ⟨hg, ht', p', rfl⟩

/-- **A triple about a component**, on the whole state. What else the
whole state keeps, `F`, has to outlast the environment and the accesses of
the component. -/
theorem Triple.component {p : Prog σ α} {C : Contract τ} {K : Contract σ} {F : τ → Prop}
    {P : σ → Prop} {Q : α → σ → Prop} (L : Lens τ σ) (h : Triple K P p Q)
    (hrely : ∀ t t', F t → C.rely t t' → K.rely (L.get t) (L.get t') ∧ F t')
    (hguar : ∀ t s, F t → K.guar (L.get t) s → C.guar t (L.set s t) ∧ F (L.set s t))
    (hinv : ∀ t, F t → K.inv (L.get t) → C.inv t) :
    Triple C (fun t => F t ∧ P (L.get t)) (p.zoom L) fun a t => F t ∧ Q a (L.get t) := by
  rintro t ⟨hF, hP⟩ n
  have hsafe := h (L.get t) hP n
  clear h hP
  induction n generalizing p t with
  | zero => exact safe_zero
  | succ n ih =>
    rcases hp : p.result with _ | a
    · have hp' : (p.zoom L).result = none := by rw [Prog.zoom_result, hp]
      rw [safe_succ_iff hp] at hsafe
      rw [safe_succ_iff hp']
      obtain ⟨hK, henv, hstep⟩ := hsafe
      refine ⟨hinv t hF hK, fun t' hr => ?_, fun q t' hn => ?_⟩
      · obtain ⟨hr', hF'⟩ := hrely t t' hF hr
        exact ih t' hF' (henv _ hr')
      · obtain ⟨p', s', hn', rfl, rfl⟩ := Prog.zoom_next_eq_some hn
        obtain ⟨hg, hs⟩ := hstep p' s' hn'
        obtain ⟨hg', hF'⟩ := hguar t s' hF hg
        refine ⟨hg', ih _ hF' ?_⟩
        rw [Lens.get_set]
        exact hs
    · rcases p with b | _ | _
      · exact safe_ret ⟨hF, hsafe.post⟩
      · cases hp
      · cases hp

/-! ## Machines and their runs -/

/-- **A machine**: what each dispatch runs, when it may be dispatched, and
what the environment can do. -/
structure Machine (σ D ρ E : Type) where
  task : D → Prog σ ρ
  ready : D → σ → Bool
  env : E → σ → Option σ

/-- What can happen next: a dispatch, one foreground step, or an event of
the environment. -/
inductive Event (D E : Type) where
  | dispatch (d : D)
  | foreground
  | env (e : E)
  deriving DecidableEq, Repr

/-- Whether an event is the environment's. -/
def Event.isEnv {D E : Type} : Event D E → Bool
  | .env _ => true
  | _ => false

/-- Whether an event is a foreground step. -/
def Event.isForeground {D E : Type} : Event D E → Bool
  | .foreground => true
  | _ => false

/-- Whether an event is a dispatch. -/
def Event.isDispatch {D E : Type} : Event D E → Bool
  | .dispatch _ => true
  | _ => false

/-- A state, the dispatch in progress with what remains of it, and the
results of the dispatches that have returned, oldest first. -/
structure Config (σ D ρ : Type) where
  state : σ
  running : Option (D × Prog σ ρ)
  finished : List (D × ρ)

namespace Machine

variable {D ρ E : Type} (M : Machine σ D ρ E)

/-- A program that has returned leaves the machine idle and its result in
the log. -/
def settle (s : σ) (d : D) (p : Prog σ ρ) (fin : List (D × ρ)) : Config σ D ρ :=
  match p.result with
  | some r => ⟨s, none, fin ++ [(d, r)]⟩
  | none => ⟨s, some (d, p), fin⟩

/-- One step of the machine, where the event is possible. -/
def step (c : Config σ D ρ) : Event D E → Option (Config σ D ρ)
  | .dispatch d =>
    match c.running with
    | none => if M.ready d c.state then some (settle c.state d (M.task d) c.finished) else none
    | some _ => none
  | .foreground =>
    match c.running with
    | none => none
    | some (d, p) => (p.next c.state).map fun r => settle r.2 d r.1 c.finished
  | .env e => (M.env e c.state).map fun s => { c with state := s }

/-- A run, where every event is possible in its turn. -/
def run : Config σ D ρ → List (Event D E) → Option (Config σ D ρ)
  | c, [] => some c
  | c, e :: es => (M.step c e).bind fun c' => run c' es

variable {M}
variable {c c' c'' : Config σ D ρ} {e : Event D E} {es es' : List (Event D E)}

@[simp] theorem run_nil : M.run c [] = some c := rfl

theorem run_cons : M.run c (e :: es) = (M.step c e).bind fun c' => M.run c' es := rfl

/-- A run of one event and more is the step of that event and a run from where
it leads. -/
theorem run_cons_eq_some :
    M.run c (e :: es) = some c'' ↔ ∃ c', M.step c e = some c' ∧ M.run c' es = some c'' := by
  rw [run_cons, Option.bind_eq_some_iff]

/-- A run of two lists is the run of the second from where the first leads. -/
theorem run_append : M.run c (es ++ es') = (M.run c es).bind fun c' => M.run c' es' := by
  induction es generalizing c with
  | nil => rfl
  | cons e es ih =>
    rw [List.cons_append, run_cons, run_cons, Option.bind_assoc]
    exact congrArg _ (funext fun c' => ih)

/-- So a run of two lists passes through the configuration between them. -/
theorem run_append_eq_some :
    M.run c (es ++ es') = some c'' ↔ ∃ c', M.run c es = some c' ∧ M.run c' es' = some c'' := by
  rw [run_append, Option.bind_eq_some_iff]

/-- **The induction a run theorem rests on**: what holds at the start and is
kept by every step holds of the last configuration. -/
theorem run_induction {P : Config σ D ρ → Prop}
    (hstep : ∀ c e c', P c → M.step c e = some c' → P c') (hc : P c)
    (h : M.run c es = some c') : P c' := by
  induction es generalizing c with
  | nil =>
    obtain rfl : c = c' := by simpa using h
    exact hc
  | cons e es ih =>
    obtain ⟨d, hs, hr⟩ := run_cons_eq_some.mp h
    exact ih (hstep c e d hc hs) hr

/-- **A history variable**: what `record` makes of the steps of a run. It
is no part of the machine, and no step can read it. -/
def history {γ : Type*} (M : Machine σ D ρ E)
    (record : Event D E → Config σ D ρ → Config σ D ρ → γ → γ) :
    Config σ D ρ → List (Event D E) → γ → γ
  | _, [], g => g
  | c, e :: es, g =>
    match M.step c e with
    | none => g
    | some c' => history M record c' es (record e c c' g)

/-- The induction over a run together with what its history records. -/
theorem history_induction {γ : Type*}
    {record : Event D E → Config σ D ρ → Config σ D ρ → γ → γ} {P : γ → Config σ D ρ → Prop}
    {g : γ} (hstep : ∀ g c e c', P g c → M.step c e = some c' → P (record e c c' g) c')
    (hc : P g c) (h : M.run c es = some c') : P (M.history record c es g) c' := by
  induction es generalizing c g with
  | nil =>
    obtain rfl : c = c' := by simpa using h
    exact hc
  | cons e es ih =>
    obtain ⟨d, hs, hr⟩ := run_cons_eq_some.mp h
    have hd := ih (hstep g c e d hc hs) hr
    simpa only [history, hs] using hd

/-- The history of a run that goes on is that of its two parts, one after the
other. -/
theorem history_append {γ : Type*} {record : Event D E → Config σ D ρ → Config σ D ρ → γ → γ}
    {g : γ} (h : M.run c es = some c') :
    M.history record c (es ++ es') g = M.history record c' es' (M.history record c es g) := by
  induction es generalizing c g with
  | nil =>
    obtain rfl : c = c' := by simpa using h
    rfl
  | cons e es ih =>
    obtain ⟨d, hs, hr⟩ := run_cons_eq_some.mp h
    simp only [List.cons_append, history, hs]
    exact ih hr

/-- **What one step is**, by the event it answers: a dispatch of an idle
machine, an access of the program in progress, or an interrupt. -/
theorem step_cases (h : M.step c e = some c') :
    (∃ d, e = .dispatch d ∧ c.running = none ∧ M.ready d c.state = true ∧
      c' = settle c.state d (M.task d) c.finished) ∨
    (∃ d p p' s', e = .foreground ∧ c.running = some (d, p) ∧
      p.next c.state = some (p', s') ∧ c' = settle s' d p' c.finished) ∨
    (∃ x s', e = .env x ∧ M.env x c.state = some s' ∧ c' = { c with state := s' }) := by
  rcases e with d | _ | x
  · unfold step at h
    rcases hr : c.running with _ | q
    · simp only [hr] at h
      split at h
      · exact .inl ⟨d, rfl, rfl, ‹_›, by simpa using h.symm⟩
      · cases h
    · simp [hr] at h
  · unfold step at h
    rcases hr : c.running with _ | ⟨d, p⟩
    · simp [hr] at h
    · simp only [hr, Option.map_eq_some_iff] at h
      obtain ⟨⟨p', s'⟩, hn, rfl⟩ := h
      exact .inr (.inl ⟨d, p, p', s', rfl, rfl, hn, rfl⟩)
  · simp only [step, Option.map_eq_some_iff] at h
    obtain ⟨s', hs, rfl⟩ := h
    exact .inr (.inr ⟨x, s', rfl, hs, rfl⟩)

/-! ## Settling -/

theorem settle_ret {s : σ} {d : D} {r : ρ} {fin : List (D × ρ)} :
    settle s d (.ret r) fin = ⟨s, none, fin ++ [(d, r)]⟩ := rfl

/-- A program with an access left stays in progress, and the log is what
it was. -/
theorem settle_of_result_none {s : σ} {d : D} {p : Prog σ ρ} {fin : List (D × ρ)}
    (h : p.result = none) : settle s d p fin = ⟨s, some (d, p), fin⟩ := by
  rw [settle, h]

/-- Entering a return in the log leaves the state alone. -/
@[simp] theorem settle_state {s : σ} {d : D} {p : Prog σ ρ} {fin : List (D × ρ)} :
    (settle s d p fin).state = s := by
  unfold settle
  split <;> rfl

/-- Where a program that has just made a step stands: in the log, if it has
returned, and in progress otherwise. -/
theorem settle_cases (s : σ) (d : D) (p : Prog σ ρ) (fin : List (D × ρ)) :
    (∃ r, p = .ret r ∧ settle s d p fin = ⟨s, none, fin ++ [(d, r)]⟩) ∨
    (p.result = none ∧ settle s d p fin = ⟨s, some (d, p), fin⟩) := by
  rcases hp : p.result with _ | r
  · exact .inr ⟨rfl, settle_of_result_none hp⟩
  · rcases p with r' | _ | _
    · exact .inl ⟨r', rfl, rfl⟩
    · cases hp
    · cases hp

/-- A step only adds to the log: the return of the program in progress, if
that was its last access. -/
theorem finished_prefix_step (h : M.step c e = some c') : c.finished <+: c'.finished := by
  have hsettle : ∀ s d (p : Prog σ ρ), c.finished <+: (settle s d p c.finished).finished := by
    intro s d p
    obtain ⟨r, -, hs⟩ | ⟨-, hs⟩ := settle_cases s d p c.finished
    · simp only [hs, List.prefix_append]
    · simp only [hs, List.prefix_rfl]
  obtain ⟨d, -, -, -, rfl⟩ | ⟨d, p, p', s', -, -, -, rfl⟩ | ⟨x, s', -, -, rfl⟩ := step_cases h
  · exact hsettle ..
  · exact hsettle ..
  · exact List.prefix_rfl

/-- **The log only grows** over a run, so what has returned stays on record.
-/
theorem finished_prefix (h : M.run c es = some c') : c.finished <+: c'.finished :=
  run_induction (P := fun d => c.finished <+: d.finished)
    (fun _ _ _ hd hs => hd.trans (finished_prefix_step hs)) List.prefix_rfl h

/-- The dispatches among the events of a run, in order. -/
def dispatched (es : List (Event D E)) : List D :=
  es.filterMap fun e => match e with
    | .dispatch d => some d
    | _ => none

/-- The dispatches that have begun: those of the log, and the one in
progress. -/
def Config.begun (c : Config σ D ρ) : List D :=
  c.finished.map Prod.fst ++ (c.running.map Prod.fst).toList

/-- What was begun is the same whether or not the program has just returned.
-/
theorem begun_settle {s : σ} {d : D} {p : Prog σ ρ} {fin : List (D × ρ)} :
    Config.begun (settle s d p fin) = fin.map Prod.fst ++ [d] := by
  obtain ⟨r, -, hs⟩ | ⟨-, hs⟩ := settle_cases s d p fin
  · simp [hs, Config.begun]
  · simp [hs, Config.begun]

/-- **Every dispatch of a run has begun**, in its order: it is in the log or
in progress. -/
theorem begun_run (h : M.run c es = some c') :
    Config.begun c' = Config.begun c ++ dispatched es := by
  induction es generalizing c with
  | nil =>
    obtain rfl : c = c' := by simpa using h
    simp [dispatched]
  | cons e es ih =>
    obtain ⟨c₁, hs, hr⟩ := run_cons_eq_some.mp h
    rw [ih hr]
    obtain ⟨d, rfl, hidle, -, rfl⟩ | ⟨d, p, p', s', rfl, hp, -, rfl⟩ | ⟨x, s', rfl, -, rfl⟩ :=
      step_cases hs
    · rw [begun_settle]
      simp [Config.begun, hidle, dispatched]
    · rw [begun_settle]
      simp [Config.begun, hp, dispatched]
    · simp [Config.begun, dispatched]

/-- The induction over a run of whose events something is known. -/
theorem run_induction_mem {P : Config σ D ρ → Prop}
    (hstep : ∀ c e c', e ∈ es → P c → M.step c e = some c' → P c') (hc : P c)
    (h : M.run c es = some c') : P c' := by
  induction es generalizing c with
  | nil =>
    obtain rfl : c = c' := by simpa using h
    exact hc
  | cons e es ih =>
    obtain ⟨d, hs, hr⟩ := run_cons_eq_some.mp h
    refine ih (fun c e c' he => hstep c e c' (List.mem_cons_of_mem _ he)) ?_ hr
    exact hstep c e d List.mem_cons_self hc hs

/-- **An idle machine that is not dispatched** moves by its environment
alone, and whatever its log holds. -/
theorem run_idle (hidle : c.running = none) (hes : ∀ e ∈ es, e.isDispatch = false)
    (h : M.run c es = some c') :
    c' = { c with state := c'.state } ∧
      ∀ fin, M.run ⟨c.state, none, fin⟩ (es.filter Event.isEnv) = some ⟨c'.state, none, fin⟩ := by
  induction es generalizing c with
  | nil =>
    obtain rfl : c = c' := by simpa using h
    exact ⟨rfl, fun _ => rfl⟩
  | cons e es ih =>
    obtain ⟨c₁, hs, hr⟩ := run_cons_eq_some.mp h
    have htail : ∀ e ∈ es, e.isDispatch = false := fun e he =>
      hes e (List.mem_cons_of_mem _ he)
    obtain ⟨d, rfl, -⟩ | ⟨d, p, p', s', rfl, hp, -⟩ | ⟨x, s', rfl, hx, rfl⟩ := step_cases hs
    · have := hes (.dispatch d) List.mem_cons_self
      cases this
    · rw [hidle] at hp
      cases hp
    · obtain ⟨hc', henv⟩ := ih (c := { c with state := s' }) hidle htail hr
      refine ⟨hc', fun fin => ?_⟩
      rw [List.filter_cons_of_pos rfl, run_cons_eq_some]
      exact ⟨⟨s', none, fin⟩, by simp [step, hx], henv fin⟩

/-! ## Runs stage by stage -/

/-- **A staged invariant.** `I` relates the log and an idle state, and `R`
the log, the dispatch in progress and what remains of it to the state. -/
structure Staged (M : Machine σ D ρ E) (I : List (D × ρ) → σ → Prop)
    (R : List (D × ρ) → D → Prog σ ρ → σ → Prop) : Prop where
  start : ∀ fin d s, I fin s → M.ready d s = true → R fin d (M.task d) s
  step : ∀ fin d p s p' s', R fin d p s → p.next s = some (p', s') → R fin d p' s'
  finish : ∀ fin d r s, R fin d (.ret r) s → I (fin ++ [(d, r)]) s
  env_idle : ∀ fin x s s', I fin s → M.env x s = some s' → I fin s'
  env_running : ∀ fin d p x s s', p.result = none → R fin d p s → M.env x s = some s' →
    R fin d p s'

/-- What a staged invariant says of a configuration. -/
def StagedConfig (I : List (D × ρ) → σ → Prop) (R : List (D × ρ) → D → Prog σ ρ → σ → Prop)
    (c : Config σ D ρ) : Prop :=
  match c.running with
  | none => I c.finished c.state
  | some (d, p) => p.result = none ∧ R c.finished d p c.state

variable {I : List (D × ρ) → σ → Prop} {R : List (D × ρ) → D → Prog σ ρ → σ → Prop}

/-- Where nothing is in progress, the invariant of the idle machine holds. -/
theorem StagedConfig.idle (hc : StagedConfig I R c) (hr : c.running = none) :
    I c.finished c.state := by
  simpa [StagedConfig, hr] using hc

/-- And where a program is, it has an access left, and its relation to the
state holds. -/
theorem StagedConfig.running {d : D} {p : Prog σ ρ} (hc : StagedConfig I R c)
    (hr : c.running = some (d, p)) : p.result = none ∧ R c.finished d p c.state := by
  simpa [StagedConfig, hr] using hc

/-- **Settling** keeps the stages: a program that returns hands the state over
to the idle invariant. -/
theorem Staged.settle (hM : Staged M I R) {s : σ} {d : D} {p : Prog σ ρ}
    {fin : List (D × ρ)} (h : R fin d p s) : StagedConfig I R (settle s d p fin) := by
  obtain ⟨r, rfl, hs⟩ | ⟨hp, hs⟩ := settle_cases s d p fin
  · rw [hs]
    exact hM.finish fin d r s h
  · rw [hs]
    exact ⟨hp, h⟩

/-- **A step keeps the stages**, whether it dispatches, goes on, returns or
interrupts. -/
theorem Staged.step_config (hM : Staged M I R) (hc : StagedConfig I R c)
    (h : M.step c e = some c') : StagedConfig I R c' := by
  obtain ⟨d, rfl, hr, hrd, rfl⟩ | ⟨d, p, p', s', rfl, hr, hn, rfl⟩ | ⟨x, s', rfl, hs, rfl⟩ :=
    step_cases h
  · exact hM.settle (hM.start _ d _ (hc.idle hr) hrd)
  · exact hM.settle (hM.step _ d p _ p' s' (hc.running hr).2 hn)
  · rcases hr : c.running with _ | ⟨d, p⟩
    · have hI := hM.env_idle _ x _ s' (hc.idle hr) hs
      simpa [StagedConfig, hr] using hI
    · have hp := hc.running hr
      have hR := hM.env_running _ d p x _ s' hp.1 hp.2 hs
      simpa [StagedConfig, hr] using And.intro hp.1 hR

/-- **A staged invariant holds along every run**, whatever the order of
dispatches, accesses and interrupts. -/
theorem Staged.run (hM : Staged M I R) (hc : StagedConfig I R c) (h : M.run c es = some c') :
    StagedConfig I R c' :=
  run_induction (fun _ _ _ hc hs => hM.step_config hc hs) hc h

/-- **Where a dispatch returns**, its program has come to its result. -/
theorem Staged.completed (hM : Staged M I R) (hc : StagedConfig I R c)
    (h : M.step c e = some c') {d : D} {r : ρ} (hfin : c'.finished = c.finished ++ [(d, r)]) :
    R c.finished d (.ret r) c'.state := by
  have hlog : ∀ {fin : List (D × ρ)}, fin = c.finished → ¬ fin = c.finished ++ [(d, r)] := by
    intro fin hsame hgrown
    rw [hsame] at hgrown
    have := congrArg List.length hgrown
    simp at this
  -- a program that has settled in the log is its result
  have hsettle : ∀ {s : σ} {d' : D} {p : Prog σ ρ}, R c.finished d' p s →
      (Machine.settle s d' p c.finished).finished = c.finished ++ [(d, r)] →
      R c.finished d (.ret r) s := by
    intro s d' p hp hlast
    obtain ⟨r', rfl, hs⟩ | ⟨-, hs⟩ := settle_cases s d' p c.finished
    · rw [hs] at hlast
      obtain ⟨rfl, rfl⟩ : d' = d ∧ r' = r := by simpa using hlast
      exact hp
    · rw [hs] at hlast
      exact absurd hlast (hlog rfl)
  obtain ⟨d', -, hr, hrd, rfl⟩ | ⟨d', p, p', s', -, hr, hn, rfl⟩ | ⟨x, s', -, -, rfl⟩ :=
    step_cases h
  · rw [settle_state]
    exact hsettle (hM.start _ d' _ (hc.idle hr) hrd) hfin
  · rw [settle_state]
    exact hsettle (hM.step c.finished d' p _ p' s' (hc.running hr).2 hn) hfin
  · exact absurd hfin (hlog rfl)

/-! ## Runs of safe programs -/

/-- **A machine whose programs meet their triples**, each dispatch under a
contract of its own. The environment moves within the rely of every
contract and keeps the idle invariant `I`, and a dispatch that starts from
it returns with its own postcondition, which leads back to it. -/
structure SoundBy (M : Machine σ D ρ E) (C : D → Contract σ) (I : σ → Prop)
    (Q : D → ρ → σ → Prop) : Prop where
  env : ∀ d x s s', M.env x s = some s' → (C d).rely s s'
  stable : ∀ x s s', M.env x s = some s' → I s → I s'
  task : ∀ d, Triple (C d) (fun s => I s ∧ M.ready d s = true) (M.task d) (Q d)
  idle : ∀ d r s, Q d r s → I s

/-- What the configurations of such a machine meet. -/
abbrev SafeConfigBy (C : D → Contract σ) (I : σ → Prop) (Q : D → ρ → σ → Prop) :
    Config σ D ρ → Prop :=
  StagedConfig (fun _ => I) fun _ d p s => ∀ n, Safe (C d) (Q d) n p s

section

variable {C : D → Contract σ} {J : σ → Prop} {Q : D → ρ → σ → Prop}

/-- **Runs of safe programs are safe**: the induction of `Staged` with the
judgement of `Foreground` as its relation. -/
theorem SoundBy.staged (hM : SoundBy M C J Q) :
    Staged M (fun _ => J) fun _ d p s => ∀ n, Safe (C d) (Q d) n p s where
  start _ d s hJ hrd n := hM.task d s ⟨hJ, hrd⟩ n
  step _ d p s p' s' h hn n := by
    have hp : p.result = none := Prog.result_of_next hn
    exact (((safe_succ_iff hp).mp (h (n + 1))).2.2 p' s' hn).2
  finish _ d r s h := hM.idle d r s (h 1).post
  env_idle _ x s s' hJ hs := hM.stable x s s' hs hJ
  env_running _ d p x s s' hp h hs n :=
    ((safe_succ_iff hp).mp (h (n + 1))).2.1 s' (hM.env d x s s' hs)

/-- **A step of the foreground** is within the guarantee of the dispatch
in progress. -/
theorem SafeConfigBy.foreground {d : D} {p : Prog σ ρ} (hc : SafeConfigBy C J Q c)
    (hr : c.running = some (d, p)) (h : M.step c .foreground = some c') :
    (C d).guar c.state c'.state := by
  obtain ⟨_, he, -⟩ | ⟨d', p₀, p', s', -, hr', hn, rfl⟩ | ⟨_, _, he, -⟩ := step_cases h
  · cases he
  · obtain ⟨rfl, rfl⟩ : d = d' ∧ p = p₀ := by simpa [hr] using hr'
    obtain ⟨hp, hsafe⟩ := hc.running hr
    rw [settle_state]
    exact (((safe_succ_iff hp).mp (hsafe 1)).2.2 p' s' hn).1
  · cases he

/-- **Where a dispatch has just returned**, its postcondition holds, each
dispatch having its own contract. -/
theorem SoundBy.completed (hM : SoundBy M C J Q) (hc : SafeConfigBy C J Q c)
    (h : M.step c e = some c') {d : D} {r : ρ} (hfin : c'.finished = c.finished ++ [(d, r)]) :
    Q d r c'.state :=
  (hM.staged.completed hc h hfin 1).post

/-- The program in progress can always make its next step: a machine that
keeps its stages does not get stuck. -/
theorem StagedConfig.live {I : List (D × ρ) → σ → Prop}
    {R : List (D × ρ) → D → Prog σ ρ → σ → Prop} {d : D} {p : Prog σ ρ}
    (hc : StagedConfig I R c) (hr : c.running = some (d, p)) :
    ∃ c', M.step c .foreground = some c' := by
  obtain ⟨hp, -⟩ := hc.running hr
  have hnext : ∃ q, p.next c.state = some q := by
    rcases p with _ | _ | _
    · cases hp
    · exact ⟨_, rfl⟩
    · exact ⟨_, rfl⟩
  obtain ⟨⟨p', s'⟩, hn⟩ := hnext
  exact ⟨settle s' d p' c.finished, by simp only [step, hr, hn, Option.map_some]⟩

end

/-- **A machine whose programs meet their triples**, all of them under one
contract `C`. Its environment moves within the rely of `C`, which leaves the
idle invariant `I`, and a dispatch that starts from `I` returns with its own
postcondition, which leads back to it. -/
structure Sound (M : Machine σ D ρ E) (C : Contract σ) (I : σ → Prop)
    (Q : D → ρ → σ → Prop) : Prop where
  env : ∀ x s s', M.env x s = some s' → C.rely s s'
  stable : Stable C I
  task : ∀ d, Triple C (fun s => I s ∧ M.ready d s = true) (M.task d) (Q d)
  idle : ∀ d r s, Q d r s → I s

/-- **What a safe machine's configurations meet**: the invariant where it is
idle, and otherwise that the program in progress stays safe. -/
abbrev SafeConfig (C : Contract σ) (I : σ → Prop) (Q : D → ρ → σ → Prop) :
    Config σ D ρ → Prop :=
  SafeConfigBy (fun _ => C) I Q

variable {C : Contract σ} {J : σ → Prop} {Q : D → ρ → σ → Prop}

/-- A machine with one contract is one whose every dispatch has that same
contract. -/
theorem Sound.by_dispatch (hM : Sound M C J Q) : SoundBy M (fun _ => C) J Q where
  env _ := hM.env
  stable x s s' hs hJ := hM.stable s s' hJ (hM.env x s s' hs)
  task := hM.task
  idle := hM.idle

/-- Runs of safe programs are safe, where the contract is one. -/
theorem Sound.staged (hM : Sound M C J Q) :
    Staged M (fun _ => J) fun _ d p s => ∀ n, Safe C (Q d) n p s :=
  hM.by_dispatch.staged

/-- **What one step changes** is the environment's doing or within the
guarantee. -/
theorem Sound.moves (hM : Sound M C J Q) (hc : SafeConfig C J Q c) (h : M.step c e = some c') :
    c'.state = c.state ∨ C.rely c.state c'.state ∨ C.guar c.state c'.state := by
  obtain ⟨d, -, -, -, rfl⟩ | ⟨d, p, p', s', -, hr, hn, rfl⟩ | ⟨x, s', -, hs, rfl⟩ := step_cases h
  · exact .inl settle_state
  · obtain ⟨hp, hsafe⟩ := hc.running hr
    rw [settle_state]
    exact .inr (.inr (((safe_succ_iff hp).mp (hsafe 1)).2.2 p' s' hn).1)
  · exact .inr (.inl (hM.env x _ _ hs))

/-- A relation that holds across every such change holds across a run. -/
theorem Sound.run_rel (hM : Sound M C J Q) {R : σ → σ → Prop} (hrefl : ∀ s, R s s)
    (htrans : ∀ s s' s'', R s s' → R s' s'' → R s s'') (hrely : ∀ s s', C.rely s s' → R s s')
    (hguar : ∀ s s', C.guar s s' → R s s') (hc : SafeConfig C J Q c)
    (h : M.run c es = some c') : R c.state c'.state := by
  have hrun : SafeConfig C J Q c' ∧ R c.state c'.state := by
    refine run_induction (P := fun d => SafeConfig C J Q d ∧ R c.state d.state) ?_
      ⟨hc, hrefl _⟩ h
    rintro d e d' ⟨hd, hR⟩ hs
    refine ⟨hM.staged.step_config hd hs, htrans _ _ _ hR ?_⟩
    rcases hM.moves hd hs with he | hr | hg
    · rw [he]
      exact hrefl _
    · exact hrely _ _ hr
    · exact hguar _ _ hg
  exact hrun.2

/-- **Where a dispatch has just returned**, its postcondition holds. -/
theorem Sound.completed (hM : Sound M C J Q) (hc : SafeConfig C J Q c)
    (h : M.step c e = some c') {d : D} {r : ρ} (hfin : c'.finished = c.finished ++ [(d, r)]) :
    Q d r c'.state :=
  hM.by_dispatch.completed hc h hfin

/-! ## Runs accounted for by the log -/

/-- **A machine whose programs keep account.** The idle invariant `I`
speaks of the log too, and a dispatch that starts from it returns with it
for the log that its result is appended to. -/
structure Accounted (M : Machine σ D ρ E) (C : Contract σ) (I : List (D × ρ) → σ → Prop)
    (Q : D → ρ → σ → Prop) : Prop where
  env : ∀ x s s', M.env x s = some s' → C.rely s s'
  stable : ∀ fin, Stable C (I fin)
  task : ∀ fin d, Triple C (fun s => I fin s ∧ M.ready d s = true) (M.task d)
    fun r s => I (fin ++ [(d, r)]) s ∧ Q d r s

variable {A : List (D × ρ) → σ → Prop}

/-- What a program in progress meets: the log was accounted for when it
started, and it is safe to go on. -/
def Accounting (C : Contract σ) (A : List (D × ρ) → σ → Prop) (Q : D → ρ → σ → Prop)
    (fin : List (D × ρ)) (d : D) (p : Prog σ ρ) (s : σ) : Prop :=
  (∃ s₀, A fin s₀) ∧ ∀ n, Safe C (fun r s => A (fin ++ [(d, r)]) s ∧ Q d r s) n p s

/-- The stages of a machine that keeps account: the log is accounted for, and
the program in progress will be. -/
theorem Accounted.staged (hM : Accounted M C A Q) : Staged M A (Accounting C A Q) where
  start fin d s hA hrd := ⟨⟨s, hA⟩, fun n => hM.task fin d s ⟨hA, hrd⟩ n⟩
  step _ d p s p' s' h hn := by
    have hp : p.result = none := Prog.result_of_next hn
    exact ⟨h.1, fun n => (((safe_succ_iff hp).mp (h.2 (n + 1))).2.2 p' s' hn).2⟩
  finish _ d r s h := (h.2 1).post.1
  env_idle fin x s s' hA hs := hM.stable fin s s' hA (hM.env x s s' hs)
  env_running _ _ p x s s' hp h hs :=
    ⟨h.1, fun n => ((safe_succ_iff hp).mp (h.2 (n + 1))).2.1 s' (hM.env x s s' hs)⟩

/-- **What an accounted machine's configurations meet**: the log accounts for
the state where it is idle, and the program in progress is safe towards its
own account. -/
abbrev AccountedConfig (C : Contract σ) (A : List (D × ρ) → σ → Prop) (Q : D → ρ → σ → Prop) :
    Config σ D ρ → Prop :=
  StagedConfig A (Accounting C A Q)

/-- What a program that has just returned promised holds in the state it left.
-/
theorem Accounted.completed (hM : Accounted M C A Q) (hc : AccountedConfig C A Q c)
    (h : M.step c e = some c') {d : D} {r : ρ} (hfin : c'.finished = c.finished ++ [(d, r)]) :
    Q d r c'.state :=
  ((hM.staged.completed hc h hfin).2 1).post.2

/-- The invariant of the contract holds throughout, where it holds of an
idle machine. -/
theorem AccountedConfig.inv (hc : AccountedConfig C A Q c) (hinv : ∀ fin s, A fin s → C.inv s) :
    C.inv c.state := by
  rcases hr : c.running with _ | ⟨d, p⟩
  · exact hinv _ _ (hc.idle hr)
  · obtain ⟨hp, hsafe⟩ := hc.running hr
    exact ((safe_succ_iff hp).mp (hsafe.2 1)).1

/-- The log is accounted for throughout the run, also while a program is in
progress. -/
theorem AccountedConfig.log (hc : AccountedConfig C A Q c) : ∃ s, A c.finished s := by
  rcases hr : c.running with _ | ⟨d, p⟩
  · exact ⟨c.state, hc.idle hr⟩
  · exact (hc.running hr).2.1

/-! ## Progress -/

/-- **A program that ends** within `n` of its own steps, whatever the
accesses return. -/
def EndsWithin : ℕ → Prog σ ρ → Prop
  | _, .ret _ => True
  | n + 1, .access _ k => ∀ b, EndsWithin n (k b)
  | _, _ => False

/-- After one access the rest of a program ends within one less. -/
theorem EndsWithin.next {n : ℕ} {p p' : Prog σ ρ} {s s' : σ} (h : EndsWithin (n + 1) p)
    (hn : p.next s = some (p', s')) : EndsWithin n p' := by
  rcases p with _ | ⟨f, k⟩ | _
  · cases hn
  · cases hn
    exact h _
  · exact h.elim

/-- **A program that ends does so in a run that lets it**: once `n` of the
foreground's steps are made, its result is in the log. -/
theorem EndsWithin.finished {n : ℕ} {d : D} {p : Prog σ ρ} (h : EndsWithin n p)
    (hc : c.running = some (d, p)) (hlive : p.result = none)
    (hr : M.run c es = some c') (hes : n ≤ es.countP Event.isForeground) :
    ∃ r, c.finished ++ [(d, r)] <+: c'.finished := by
  induction es generalizing c p n with
  | nil =>
    obtain rfl : n = 0 := by simpa using hes
    rcases p with _ | _ | _
    · cases hlive
    · exact h.elim
    · exact h.elim
  | cons e es ih =>
    obtain ⟨c₁, hs, hr⟩ := run_cons_eq_some.mp hr
    obtain ⟨d', rfl, hr', -⟩ | ⟨d', p₀, p', s', rfl, hr', hn, rfl⟩ | ⟨x, s', rfl, -, rfl⟩ :=
      step_cases hs
    · rw [hc] at hr'
      cases hr'
    · obtain ⟨rfl, rfl⟩ : d = d' ∧ p = p₀ := by simpa [hc] using hr'
      obtain ⟨m, rfl⟩ : ∃ m, n = m + 1 := by
        rcases n with _ | m
        · rcases p with _ | _ | _
          · cases hlive
          · exact h.elim
          · exact h.elim
        · exact ⟨m, rfl⟩
      obtain ⟨r, -, hset⟩ | ⟨hp, hset⟩ := settle_cases s' d p' c.finished
      · refine ⟨r, ?_⟩
        rw [hset] at hr
        exact finished_prefix hr
      · rw [hset] at hr
        have hm : m ≤ es.countP Event.isForeground := by
          rw [List.countP_cons_of_pos rfl] at hes
          omega
        exact ih (c := ⟨s', some (d, p'), c.finished⟩) (h.next hn) rfl hp hr hm
    · have hm : n ≤ es.countP Event.isForeground := by
        simpa [Event.isForeground] using hes
      exact ih (c := { c with state := s' }) h hc hlive hr hm

/-- A program that ends within a bound ends within a larger one. -/
theorem EndsWithin.mono {m n : ℕ} {p : Prog σ ρ} (h : EndsWithin m p) (hmn : m ≤ n) :
    EndsWithin n p := by
  induction p generalizing m n with
  | ret r => cases n <;> trivial
  | access f k ih =>
    obtain ⟨m, rfl⟩ : ∃ m', m = m' + 1 := by
      rcases m with _ | m
      · exact h.elim
      · exact ⟨m, rfl⟩
    obtain ⟨n, rfl⟩ : ∃ n', n = n' + 1 := ⟨n - 1, by omega⟩
    exact fun b => ih b (h b) (by omega)
  | loop body b k _ _ =>
    rcases m with _ | m
    · exact h.elim
    · exact h.elim

/-- One part and then the other end within the sum of their bounds. -/
theorem EndsWithin.bind {m n : ℕ} {p : Prog σ ρ} {g : ρ → Prog σ α} (h : EndsWithin m p)
    (hg : ∀ r, EndsWithin n (g r)) : EndsWithin (m + n) (p.bind g) := by
  induction p generalizing m with
  | ret r => exact (hg r).mono (by omega)
  | access f k ih =>
    rcases m with _ | m
    · exact h.elim
    · rw [Nat.succ_add]
      exact fun b => ih b (h b) hg
  | loop body b k _ _ =>
    rcases m with _ | m
    · exact h.elim
    · exact h.elim

/-- A value that is read first costs one access, whatever follows from it. -/
theorem endsWithin_read_bind {n : ℕ} {f : σ → β} {g : β → Prog σ ρ}
    (h : ∀ b, EndsWithin n (g b)) : EndsWithin (n + 1) ((Prog.read f).bind g) :=
  fun b => h b

/-- A lens adds no access, so the bound is that of the component's program. -/
theorem EndsWithin.zoom {n : ℕ} (L : Lens τ σ) {p : Prog σ ρ} (h : EndsWithin n p) :
    EndsWithin n (p.zoom L) := by
  induction p generalizing n with
  | ret r => cases n <;> trivial
  | access f k ih =>
    rcases n with _ | n
    · exact h.elim
    · exact fun b => ih b (h b)
  | loop body b k _ _ =>
    rcases n with _ | n
    · exact h.elim
    · exact h.elim

/-- **A program that returns** with `Q` within `n` of its own steps, from a
state and whatever the environment does before each of them. `P` is what
the environment keeps until the next step is made. -/
def Returns (C : Contract σ) (Q : ρ → σ → Prop) : ℕ → Prog σ ρ → σ → Prop
  | _, .ret r, s => Q r s
  | 0, _, _ => False
  | n + 1, p, s => ∃ P : σ → Prop, P s ∧ Stable C P ∧
      ∀ s, P s → ∀ p' s', p.next s = some (p', s') → Returns C Q n p' s'

section

variable {C : Contract σ} {Q : ρ → σ → Prop} {p : Prog σ ρ} {s s' : σ} {n m : ℕ}

/-- What has returned as promised returns within any bound, from there. -/
theorem returns_ret {r : ρ} (h : Q r s) : Returns C Q n (.ret r) s := by
  rcases n with _ | n
  · exact h
  · exact h

/-- A program that has returned has kept its promise in that very state. -/
theorem Returns.post {r : ρ} (h : Returns C Q n (.ret r) s) : Q r s := by
  rcases n with _ | n
  · exact h
  · exact h

/-- A program that is not over has a step to make. -/
theorem returns_succ_iff (hp : p.result = none) :
    Returns C Q (n + 1) p s ↔ ∃ P : σ → Prop, P s ∧ Stable C P ∧
      ∀ s, P s → ∀ p' s', p.next s = some (p', s') → Returns C Q n p' s' := by
  rcases p with _ | _ | _
  · cases hp
  · exact Iff.rfl
  · exact Iff.rfl

/-- A program with an access left does not return within no steps. -/
theorem not_returns_zero (hp : p.result = none) : ¬ Returns C Q 0 p s := by
  rcases p with _ | _ | _
  · cases hp
  · exact id
  · exact id

/-- A program that returns within a bound returns within every larger one. -/
theorem Returns.mono (h : Returns C Q m p s) (hmn : m ≤ n) : Returns C Q n p s := by
  induction n generalizing m p s with
  | zero =>
    obtain rfl : m = 0 := by omega
    exact h
  | succ n ih =>
    rcases hp : p.result with _ | r
    · obtain ⟨m, rfl⟩ : ∃ m', m = m' + 1 := by
        rcases m with _ | m
        · exact absurd h (not_returns_zero hp)
        · exact ⟨m, rfl⟩
      obtain ⟨P, hs, hstable, hnext⟩ := (returns_succ_iff hp).mp h
      refine (returns_succ_iff hp).mpr ⟨P, hs, hstable, fun s hs p' s' hn => ?_⟩
      exact ih (hnext s hs p' s' hn) (by omega)
    · rcases p with r' | _ | _
      · exact returns_ret h.post
      · cases hp
      · cases hp

/-- A program that returns with one promise returns with every weaker one, in
as many steps. -/
theorem Returns.conseq {Q' : ρ → σ → Prop} (h : Returns C Q' n p s)
    (hQ : ∀ r s, Q' r s → Q r s) : Returns C Q n p s := by
  induction n generalizing p s with
  | zero =>
    rcases p with r | _ | _
    · exact hQ r s h
    · exact h.elim
    · exact h.elim
  | succ n ih =>
    rcases hp : p.result with _ | r
    · obtain ⟨P, hs, hstable, hnext⟩ := (returns_succ_iff hp).mp h
      exact (returns_succ_iff hp).mpr
        ⟨P, hs, hstable, fun s hs p' s' hn => ih (hnext s hs p' s' hn)⟩
    · rcases p with r' | _ | _
      · exact returns_ret (hQ r' s h.post)
      · cases hp
      · cases hp

/-- The environment may move in between: it does not keep a program from
returning, nor use up its bound. -/
theorem Returns.rely (h : Returns C Q n p s) (hp : p.result = none) (hr : C.rely s s') :
    Returns C Q n p s' := by
  rcases n with _ | n
  · exact absurd h (not_returns_zero hp)
  · obtain ⟨P, hs, hstable, hnext⟩ := (returns_succ_iff hp).mp h
    exact (returns_succ_iff hp).mpr ⟨P, hstable s s' hs hr, hstable, hnext⟩

/-- **Safe, and over after so many steps**: a triple and a bound on the
accesses together say that the program returns as promised. -/
theorem returns_of_endsWithin (h : EndsWithin n p) (hsafe : ∀ k, Safe C Q k p s) :
    Returns C Q n p s := by
  induction n generalizing p s with
  | zero =>
    rcases p with r | _ | _
    · exact (hsafe 1).post
    · exact h.elim
    · exact h.elim
  | succ n ih =>
    rcases hp : p.result with _ | r
    · refine (returns_succ_iff hp).mpr ⟨fun s => ∀ k, Safe C Q k p s, hsafe, ?_, ?_⟩
      · intro s s' hs hr k
        exact ((safe_succ_iff hp).mp (hs (k + 1))).2.1 s' hr
      · intro s hs p' s' hn
        exact ih (h.next hn) fun k => (((safe_succ_iff hp).mp (hs (k + 1))).2.2 p' s' hn).2
    · rcases p with r' | _ | _
      · exact returns_ret (hsafe 1).post
      · cases hp
      · cases hp

/-- A program whose accesses are bounded returns from every state, where
nothing is promised. -/
theorem EndsWithin.returns (h : EndsWithin n p) : Returns C (fun _ _ => True) n p s := by
  induction n generalizing p s with
  | zero =>
    rcases p with r | _ | _
    · trivial
    · exact h.elim
    · exact h.elim
  | succ n ih =>
    rcases hp : p.result with _ | r
    · exact (returns_succ_iff hp).mpr
        ⟨fun _ => True, trivial, .const True, fun s _ p' s' hn => ih (h.next hn)⟩
    · rcases p with r' | _ | _
      · exact returns_ret trivial
      · cases hp
      · cases hp

/-- **One part and then the other**: the second has to return from every state
that the first may return in, and the bounds add up. -/
theorem Returns.bind {B : α → σ → Prop} {q : Prog σ α} {g : α → Prog σ ρ}
    (h : Returns C B n q s) (hg : ∀ a s, B a s → Returns C Q m (g a) s) :
    Returns C Q (n + m) (q.bind g) s := by
  induction n generalizing q s with
  | zero =>
    rcases q with a | _ | _
    · rw [Nat.zero_add]
      exact hg a s h
    · exact h.elim
    · exact h.elim
  | succ n ih =>
    have hcount : n + 1 + m = n + m + 1 := by omega
    rcases q with a | ⟨f, k⟩ | ⟨body, b, k⟩
    · exact (hg a s h.post).mono (by omega)
    · obtain ⟨P, hs, hstable, hnext⟩ := (returns_succ_iff rfl).mp h
      rw [hcount]
      refine (returns_succ_iff rfl).mpr ⟨P, hs, hstable, fun s hs p' s' hn => ?_⟩
      cases hn
      exact ih (hnext s hs _ _ rfl)
    · obtain ⟨P, hs, hstable, hnext⟩ := (returns_succ_iff rfl).mp h
      rw [hcount]
      refine (returns_succ_iff rfl).mpr ⟨P, hs, hstable, fun s hs p' s' hn => ?_⟩
      cases hn
      have hbody := ih (hnext s hs _ _ rfl)
      rwa [Prog.bind_assoc, Prog.again_bind] at hbody

/-- **One access**, from an assertion that the environment keeps: where it
leads, the rest has to return within one step less. -/
theorem returns_access {P : σ → Prop} {B : α → σ → Prop} {f : σ → α × σ} {k : α → Prog σ ρ}
    (hstable : Stable C P) (hs : P s) (hstep : ∀ s, P s → B (f s).1 (f s).2)
    (hk : ∀ a s, B a s → Returns C Q n (k a) s) : Returns C Q (n + 1) (.access f k) s := by
  refine (returns_succ_iff rfl).mpr ⟨P, hs, hstable, fun s hs p' s' hn => ?_⟩
  cases hn
  exact hk _ _ (hstep s hs)

/-- **The loop rule**, with a bound `m` that each run of the body lowers:
the body has `w` steps each time, and what follows the loop has `n`. -/
theorem returns_loop {body : β → Prog σ (Option β)} {k : Prog σ ρ} {I : ℕ → β → σ → Prop}
    {E : σ → Prop} {w : ℕ} (hstable : ∀ m b, Stable C (I m b))
    (hbody : ∀ m b s, I m b s → Returns C (fun o s => match o with
      | some b' => ∃ m' < m, I m' b' s
      | none => E s) w (body b) s)
    (hk : ∀ s, E s → Returns C Q n k s) {b : β} (h : I m b s) :
    Returns C Q ((m + 1) * (w + 1) + n) (.loop body b k) s := by
  induction m using Nat.strongRecOn generalizing b s with
  | _ m ih =>
    have hcount : (m + 1) * (w + 1) + n = w + (m * (w + 1) + n) + 1 := by
      rw [Nat.succ_mul]
      omega
    rw [hcount]
    refine (returns_succ_iff rfl).mpr ⟨I m b, h, hstable m b, fun s hs p' s' hn => ?_⟩
    cases hn
    refine (hbody m b s hs).bind fun o s ho => ?_
    rcases o with _ | b'
    · exact (hk s ho).mono (by omega)
    · obtain ⟨m', hlt, hI⟩ := ho
      refine (ih m' hlt hI).mono ?_
      have hmul : (m' + 1) * (w + 1) ≤ m * (w + 1) := Nat.mul_le_mul_right _ hlt
      omega

end

/-- **It is over in a run that lets it make its steps.** -/
theorem Returns.finished {n : ℕ} {d : D} {p : Prog σ ρ} {C : Contract σ} {Q : ρ → σ → Prop}
    (henv : ∀ x s s', M.env x s = some s' → C.rely s s') (h : Returns C Q n p c.state)
    (hc : c.running = some (d, p)) (hlive : p.result = none)
    (hr : M.run c es = some c') (hes : n ≤ es.countP Event.isForeground) :
    ∃ r, c.finished ++ [(d, r)] <+: c'.finished := by
  induction es generalizing c p n with
  | nil =>
    obtain rfl : n = 0 := by simpa using hes
    exact absurd h (not_returns_zero hlive)
  | cons e es ih =>
    obtain ⟨c₁, hs, hr⟩ := run_cons_eq_some.mp hr
    obtain ⟨d', rfl, hr', -⟩ | ⟨d', p₀, p', s', rfl, hr', hn, rfl⟩ | ⟨x, s', rfl, hx, rfl⟩ :=
      step_cases hs
    · rw [hc] at hr'
      cases hr'
    · obtain ⟨rfl, rfl⟩ : d = d' ∧ p = p₀ := by simpa [hc] using hr'
      obtain ⟨m, rfl⟩ : ∃ m, n = m + 1 := by
        rcases n with _ | m
        · exact absurd h (not_returns_zero hlive)
        · exact ⟨m, rfl⟩
      obtain ⟨P, hP, -, hnext⟩ := (returns_succ_iff hlive).mp h
      obtain ⟨r, -, hset⟩ | ⟨hp, hset⟩ := settle_cases s' d p' c.finished
      · refine ⟨r, ?_⟩
        rw [hset] at hr
        exact finished_prefix hr
      · rw [hset] at hr
        have hm : m ≤ es.countP Event.isForeground := by
          rw [List.countP_cons_of_pos rfl] at hes
          omega
        exact ih (c := ⟨s', some (d, p'), c.finished⟩) (hnext _ hP p' s' hn) rfl hp hr hm
    · have hm : n ≤ es.countP Event.isForeground := by
        simpa [Event.isForeground] using hes
      exact ih (c := { c with state := s' }) (h.rely hlive (henv x _ s' hx)) hc hlive hr hm

/-! ## Results forgotten -/

section

variable {ρ' : Type} {f : D → ρ → ρ'}

/-- A machine that logs less of each result. -/
def mapResults (M : Machine σ D ρ E) (f : D → ρ → ρ') : Machine σ D ρ' E where
  task d := (M.task d).bind fun r => .ret (f d r)
  ready := M.ready
  env := M.env

/-- A configuration with the results renamed: those in the log, and the one
still to come. -/
def mapConfig (f : D → ρ → ρ') (c : Config σ D ρ) : Config σ D ρ' where
  state := c.state
  running := c.running.map fun q => (q.1, q.2.bind fun r => .ret (f q.1 r))
  finished := c.finished.map fun q => (q.1, f q.1 q.2)

/-- Changing what a program will return changes none of its accesses. -/
theorem next_bind_ret {p : Prog σ ρ} {g : ρ → ρ'} {s : σ} :
    (p.bind fun r => .ret (g r)).next s =
      (p.next s).map fun q => (q.1.bind fun r => .ret (g r), q.2) := by
  rcases p with _ | _ | ⟨body, b, k⟩
  · rfl
  · rfl
  · simp only [Prog.bind, Prog.next, Option.map_some, Prog.bind_assoc, Prog.again_bind]

/-- The log then holds the changed results, and nothing else is different. -/
theorem settle_bind_ret {s : σ} {d : D} {p : Prog σ ρ} {fin : List (D × ρ)} :
    settle s d (p.bind fun r => .ret (f d r)) (fin.map fun q => (q.1, f q.1 q.2)) =
      mapConfig f (settle s d p fin) := by
  rcases p with _ | _ | _
  · simp [settle, Prog.bind, Prog.result, mapConfig]
  · rfl
  · rfl

/-- **A machine whose results are renamed** takes the same steps, with the
results renamed in its log. -/
theorem step_mapResults :
    (M.mapResults f).step (mapConfig f c) e = (M.step c e).map (mapConfig f) := by
  rcases e with d | _ | x
  · rcases hr : c.running with _ | q
    · by_cases hrd : M.ready d c.state = true
      · simp only [step, mapConfig, hr, Option.map_none, mapResults, hrd, if_true, Option.map_some]
        exact congrArg some settle_bind_ret
      · simp [step, mapConfig, hr, mapResults, hrd]
    · simp [step, mapConfig, hr]
  · rcases hr : c.running with _ | ⟨d, p⟩
    · simp [step, mapConfig, hr]
    · simp only [step, mapConfig, hr, Option.map_some, next_bind_ret, Option.map_map]
      exact congrArg (fun g => (p.next c.state).map g) (funext fun q => settle_bind_ret)
  · simp only [step, mapConfig, mapResults, Option.map_map]
    rfl

/-- **What is logged of a result does not change the run.** -/
theorem run_mapResults :
    (M.mapResults f).run (mapConfig f c) es = (M.run c es).map (mapConfig f) := by
  induction es generalizing c with
  | nil => rfl
  | cons e es ih =>
    rw [run_cons, run_cons, step_mapResults, Option.bind_map, Option.map_bind]
    exact congrArg _ (funext fun c' => ih)

end

end Machine

end Foreground
