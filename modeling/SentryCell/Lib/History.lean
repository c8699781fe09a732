import SentryCell.Lib.Machine
/-!
# History variables

A history variable is a component that follows the state and that no
program can read: `recording` is the lens onto the state beside it, whose
`set` also records the change. A machine beside its history takes the same
steps (`run_beside`), so a triple of the lifted programs is a fact about
the history of the machine itself (`Sound.history`).
-/

namespace Foreground

variable {σ τ α β γ D ρ E : Type}

/-- **The state beside a history variable.** What is recorded is a
function of the change, and no change records nothing. -/
def Lens.recording (record : σ → σ → γ → γ) (hrefl : ∀ s g, record s s g = g) :
    Lens (σ × γ) σ where
  get := Prod.fst
  set s t := (s, record t.1 s t.2)
  get_set _ _ := rfl
  set_get t := by rw [hrefl]

namespace Machine

/-- A machine on a component of a larger state. -/
def along (M : Machine σ D ρ E) (L : Lens τ σ) : Machine τ D ρ E where
  task d := (M.task d).zoom L
  ready d t := M.ready d (L.get t)
  env x t := (M.env x (L.get t)).map fun s => L.set s t

/-- **A machine beside a history variable** that also sees the events of
the environment. A foreground step that changes nothing records nothing. -/
def beside (M : Machine σ D ρ E) (record : Event D E → σ → σ → γ → γ)
    (hrefl : ∀ e : Event D E, e.isEnv = false → ∀ s g, record e s s g = g) :
    Machine (σ × γ) D ρ E where
  task d := (M.task d).zoom (.recording (record .foreground) (hrefl .foreground rfl))
  ready d t := M.ready d t.1
  env x t := (M.env x t.1).map fun s => (s, record (.env x) t.1 s t.2)

/-- A configuration on a component of a larger state. -/
def liftConfig (L : Lens τ σ) (t : τ) (c : Config σ D ρ) : Config τ D ρ where
  state := t
  running := c.running.map fun q => (q.1, q.2.zoom L)
  finished := c.finished

variable {M : Machine σ D ρ E} {L : Lens τ σ} {t : τ}
variable {c c' : Config σ D ρ} {e : Event D E} {es : List (Event D E)}

/-- Settling a component's program beside its history leaves the history as it
was set. -/
theorem settle_zoom {s : σ} {d : D} {p : Prog σ ρ} {fin : List (D × ρ)} :
    settle t d (p.zoom L) fin = liftConfig L t (settle s d p fin) := by
  unfold settle
  rw [Prog.zoom_result]
  rcases p.result with _ | r
  · rfl
  · rfl

section

variable {record : Event D E → σ → σ → γ → γ}
variable (hrefl : ∀ e : Event D E, e.isEnv = false → ∀ s g, record e s s g = g) {g : γ}

/-- **The machine beside its history takes the same steps**, and records each
as it is taken. -/
theorem step_beside (h : M.step c e = some c') :
    (M.beside record hrefl).step
        (liftConfig (.recording (record .foreground) (hrefl .foreground rfl)) (c.state, g) c) e =
      some (liftConfig (.recording (record .foreground) (hrefl .foreground rfl))
        (c'.state, record e c.state c'.state g) c') := by
  obtain ⟨d, rfl, hr, hrd, rfl⟩ | ⟨d, p, p', s', rfl, hr, hn, rfl⟩ | ⟨x, s', rfl, hx, rfl⟩ :=
    step_cases h
  · simp only [step, liftConfig, hr, Option.map_none, beside, hrd, if_true, settle_state]
    rw [hrefl (.dispatch d) rfl, settle_zoom]
    rfl
  · simp only [step, liftConfig, hr, Option.map_some, Prog.zoom_next, Lens.recording, hn,
      settle_state]
    exact congrArg some settle_zoom
  · simp only [step, liftConfig, beside, hx, Option.map_some]

/-- **And so it makes the same runs**: beside the state stands the history of
the run, computed from its events. -/
theorem run_beside (h : M.run c es = some c') :
    (M.beside record hrefl).run
        (liftConfig (.recording (record .foreground) (hrefl .foreground rfl)) (c.state, g) c) es =
      some (liftConfig (.recording (record .foreground) (hrefl .foreground rfl))
        (c'.state, M.history (fun e c c' => record e c.state c'.state) c es g) c') := by
  induction es generalizing c g with
  | nil =>
    obtain rfl : c = c' := by simpa using h
    rfl
  | cons e es ih =>
    obtain ⟨d, hs, hr⟩ := run_cons_eq_some.mp h
    rw [run_cons_eq_some]
    refine ⟨_, step_beside hrefl hs, ?_⟩
    simp only [history, hs]
    exact ih hr

end

/-- **What the triples of the lifted programs say of every run** and of
its history. -/
theorem Sound.history {record : σ → σ → γ → γ} {hrefl : ∀ s g, record s s g = g} {g : γ}
    {C : Contract (σ × γ)} {I : σ × γ → Prop} {Q : D → ρ → σ × γ → Prop}
    (hM : Sound (M.along (.recording record hrefl)) C I Q) (hinv : ∀ t, I t → C.inv t)
    (hidle : c.running = none) (hI : I (c.state, g)) (h : M.run c es = some c') :
    C.inv (c'.state, M.history (fun _ c c' => record c.state c'.state) c es g) ∧
      (c'.running = none →
        I (c'.state, M.history (fun _ c c' => record c.state c'.state) c es g)) := by
  have hc : SafeConfig C I Q
      (liftConfig (.recording record hrefl) (c.state, g) c) := by
    simp only [StagedConfig, liftConfig, hidle, Option.map_none]
    exact hI
  have hrun := run_beside (fun _ _ => hrefl) (g := g) h
  have hc' := hM.staged.run hc hrun
  rcases hr : c'.running with _ | ⟨d, p⟩
  · have hI' := hc'.idle (by simp only [liftConfig, hr, Option.map_none])
    exact ⟨hinv _ hI', fun _ => hI'⟩
  · obtain ⟨hp, hsafe⟩ := hc'.running (d := d) (p := p.zoom (.recording record hrefl))
      (by simp only [liftConfig, hr, Option.map_some])
    refine ⟨((safe_succ_iff hp).mp (hsafe 1)).1, ?_⟩
    intro hnone
    cases hnone

end Machine

end Foreground
