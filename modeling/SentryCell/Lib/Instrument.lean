import SentryCell.Lib.Machine
/-!
# Instrumented programs

An instrumented program does what the program does and writes beside it
what a statement about it speaks of. `Prog.Over` relates the two, access
by access, and `Instruments` their machines: every run of the machine is a
run of the instrumented one (`Instruments.lift`), so what holds of every
instrumented run is a fact about every run.
-/

namespace Foreground

variable {σ τ γ α β D ρ E : Type}

/-- The state, with something beside it that is left alone. -/
def Lens.first : Lens (σ × γ) σ where
  get := Prod.fst
  set s t := (s, t.2)
  get_set _ _ := rfl
  set_get _ := rfl

namespace Prog

/-- **A program over another**: the same accesses, as far as `π` shows
them, and the same results. -/
inductive Over (π : τ → σ) : {α : Type} → Prog τ α → Prog σ α → Prop
  | ret {α : Type} (a : α) : Over π (.ret a) (.ret a)
  | access {α β : Type} {f : τ → β × τ} {g : σ → β × σ} {k : β → Prog τ α} {l : β → Prog σ α}
      (h : ∀ t, ((f t).1, π (f t).2) = g (π t)) (hk : ∀ b, Over π (k b) (l b)) :
      Over π (.access f k) (.access g l)
  | loop {α β : Type} {body : β → Prog τ (Option β)} {base : β → Prog σ (Option β)}
      {k : Prog τ α} {l : Prog σ α} (b : β) (hbody : ∀ b, Over π (body b) (base b))
      (hk : Over π k l) : Over π (.loop body b k) (.loop base b l)

variable {π : τ → σ} {p p' : Prog τ α} {q q' : Prog σ α} {t t' : τ} {s' : σ}

/-- **Sequencing**: the second parts have to be related for every value that
the first return. -/
theorem Over.bind {g : α → Prog τ β} {l : α → Prog σ β} (h : Over π p q)
    (hg : ∀ a, Over π (g a) (l a)) : Over π (p.bind g) (q.bind l) := by
  induction h with
  | ret a => exact hg a
  | access h _ ih => exact .access h fun b => ih b hg
  | loop b hbody _ _ ih => exact .loop b hbody (ih hg)

/-- Writes are related if they do the same to the state below. -/
theorem Over.write {f : τ → τ} {g : σ → σ} (h : ∀ t, π (f t) = g (π t)) :
    Over π (write f) (write g) :=
  .access (fun t => by rw [h]) fun b => .ret b

/-- A program run on a component is over the program itself, by the lens's
`get`. -/
theorem over_zoom (L : Lens τ σ) (q : Prog σ α) : Over L.get (q.zoom L) q := by
  induction q with
  | ret a => exact .ret a
  | access f k ih => exact .access (fun t => by rw [L.get_set]) ih
  | loop body b k ihb ihk => exact .loop b ihb ihk

/-- Of two related programs both have returned or neither, and with the same
result. -/
theorem Over.result (h : Over π p q) : p.result = q.result := by
  rcases h with _ | _ | _
  · rfl
  · rfl
  · rfl

/-- Related loops take their turns together, and leave them together for
related programs. -/
theorem Over.again {body : β → Prog τ (Option β)} {base : β → Prog σ (Option β)}
    (hbody : ∀ b, Over π (body b) (base b)) (h : Over π p q) (o : Option β) :
    Over π (Prog.again body p o) (Prog.again base q o) := by
  rcases o with _ | b
  · exact h
  · exact .loop b hbody h

/-- And a step of the program is one of the instrumented program. -/
theorem Over.lift (h : Over π p q) (hn : q.next (π t) = some (q', s')) :
    ∃ p' t', p.next t = some (p', t') ∧ π t' = s' ∧ Over π p' q' := by
  rcases h with _ | ⟨h, hk⟩ | ⟨b, hbody, hk⟩
  · cases hn
  · rename_i f g k l
    rw [Prog.next, ← h t] at hn
    cases hn
    exact ⟨k (f t).1, (f t).2, rfl, rfl, hk _⟩
  · cases hn
    exact ⟨_, t, rfl, rfl, (hbody b).bind (Over.again hbody hk)⟩

end Prog

namespace Machine

/-- **A machine over another**: its tasks, dispatches and interrupts are those
of the other under `π`, and what else its state has decides none of them. -/
structure Instruments (N : Machine τ D ρ E) (M : Machine σ D ρ E) (π : τ → σ) : Prop where
  task : ∀ d, Prog.Over π (N.task d) (M.task d)
  ready : ∀ d t, N.ready d t = M.ready d (π t)
  env : ∀ x t, (N.env x t).map π = M.env x (π t)

/-- A configuration over another: the states are related by `π`, the programs
in progress are, and the logs agree. -/
structure ConfigOver (π : τ → σ) (d : Config τ D ρ) (c : Config σ D ρ) : Prop where
  state : π d.state = c.state
  finished : d.finished = c.finished
  running : Option.Rel (fun q q' => q.1 = q'.1 ∧ Prog.Over π q.2 q'.2) d.running c.running

variable {N : Machine τ D ρ E} {M : Machine σ D ρ E} {π : τ → σ}
variable {d d' : Config τ D ρ} {c c' : Config σ D ρ} {e : Event D E} {es : List (Event D E)}

/-- Entering the return in the log keeps two configurations related. -/
theorem ConfigOver.settle {p : Prog τ ρ} {q : Prog σ ρ} (h : Prog.Over π p q) (t : τ) (x : D)
    (fin : List (D × ρ)) :
    ConfigOver π (Machine.settle t x p fin) (Machine.settle (π t) x q fin) := by
  have hres := h.result
  obtain ⟨r, rfl, hp⟩ | ⟨hp₀, hp⟩ := settle_cases t x p fin
  · obtain ⟨r', rfl, hq⟩ | ⟨hq₀, -⟩ := settle_cases (π t) x q fin
    · obtain rfl : r = r' := Option.some.inj hres
      rw [hp, hq]
      exact ⟨rfl, rfl, .none⟩
    · rw [hq₀] at hres
      cases hres
  · have hq₀ : q.result = none := hres.symm.trans hp₀
    rw [hp, settle_of_result_none hq₀]
    exact ⟨rfl, rfl, .some ⟨rfl, h⟩⟩

/-- **Every step of the machine** is one of the instrumented machine. -/
theorem Instruments.lift_step (hM : Instruments N M π) (h : ConfigOver π d c)
    (hs : M.step c e = some c') : ∃ d', N.step d e = some d' ∧ ConfigOver π d' c' := by
  obtain ⟨t, run, fin⟩ := d
  obtain ⟨s, run', fin'⟩ := c
  obtain ⟨rfl, rfl, hrun⟩ := h
  obtain ⟨x, rfl, hr, hrd, rfl⟩ | ⟨x, q, q', s', rfl, hr, hn, rfl⟩ | ⟨x, s', rfl, hx, rfl⟩ :=
    step_cases hs
  · obtain rfl : run' = none := hr
    rcases hrun with _ | _
    have hrd' := (hM.ready x t).trans hrd
    exact ⟨_, by simp [Machine.step, hrd'], .settle (hM.task x) t x fin⟩
  · obtain rfl : run' = some (x, q) := hr
    rcases hrun with ⟨hd, hp⟩ | _
    rename_i p
    obtain ⟨y, p⟩ := p
    obtain rfl : y = x := hd
    obtain ⟨p', t', hn', rfl, hp'⟩ := hp.lift hn
    exact ⟨_, by simp [Machine.step, hn'], .settle hp' t' y fin⟩
  · have henv := (hM.env x t).trans hx
    obtain ⟨t', ht', rfl⟩ := Option.map_eq_some_iff.mp henv
    exact ⟨⟨t', run, fin⟩, by simp [Machine.step, ht'], rfl, rfl, hrun⟩

/-- **Every run of the machine** is one of the instrumented machine, which
ends in the configuration over it. -/
theorem Instruments.lift (hM : Instruments N M π) (h : ConfigOver π d c)
    (hr : M.run c es = some c') : ∃ d', N.run d es = some d' ∧ ConfigOver π d' c' := by
  induction es generalizing d c with
  | nil =>
    obtain rfl : c = c' := by simpa using hr
    exact ⟨d, rfl, h⟩
  | cons e es ih =>
    obtain ⟨c₁, hs, hr⟩ := run_cons_eq_some.mp hr
    obtain ⟨d₁, hs', h₁⟩ := hM.lift_step h hs
    obtain ⟨d', hr', h'⟩ := ih h₁ hr
    exact ⟨d', run_cons_eq_some.mpr ⟨d₁, hs', hr'⟩, h'⟩

end Machine

end Foreground
