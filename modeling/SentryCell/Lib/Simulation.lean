import SentryCell.Lib.Machine
/-!
# Simulation by a smaller machine

`Prog.Sim V Q` relates two programs access by access: related states go to
related states, and of what an access returns only so much need agree as
the rest depends on. `Simulation` relates machines. An event of the larger
one is an event of the smaller one, or is not shown to it at all; what is
shown of a run is then a run of the smaller machine (`Simulation.run`), and
two runs that show the same end in states related to one (`agree`).
-/

namespace Foreground

variable {τ σ ρ α β γ : Type}

namespace Prog

/-- **A program simulated by another**, without loops. -/
inductive Sim (V : τ → σ → Prop) {α β : Type} (Q : α → β → Prop) : Prog τ α → Prog σ β → Prop
  | ret {a : α} {b : β} (h : Q a b) : Sim V Q (.ret a) (.ret b)
  | access {γ δ : Type} {f : τ → γ × τ} {g : σ → δ × σ} {k : γ → Prog τ α} {l : δ → Prog σ β}
      (S : γ → δ → Prop) (h : ∀ t s, V t s → S (f t).1 (g s).1 ∧ V (f t).2 (g s).2)
      (hk : ∀ c d, S c d → Sim V Q (k c) (l d)) : Sim V Q (.access f k) (.access g l)

variable {V : τ → σ → Prop} {Q : α → β → Prop} {p p' : Prog τ α} {q : Prog σ β} {t t' : τ} {s : σ}

/-- **Sequencing**: the second parts have to be related for every two results
that the first may end with. -/
theorem Sim.bind {α' β' : Type} {Q' : α' → β' → Prop} {g : α → Prog τ α'} {l : β → Prog σ β'}
    (h : Sim V Q p q) (hg : ∀ a b, Q a b → Sim V Q' (g a) (l b)) :
    Sim V Q' (p.bind g) (q.bind l) := by
  induction h with
  | ret h => exact hg _ _ h
  | access S h _ ih => exact .access S h ih

/-- Writes are related if they lead from related states to related ones. -/
theorem sim_write {f : τ → τ} {g : σ → σ} (h : ∀ t s, V t s → V (f t) (g s)) :
    Sim V (fun _ _ => True) (write f) (write g) :=
  .access (fun _ _ => True) (fun t s hV => ⟨trivial, h t s hV⟩) fun _ _ _ => .ret trivial

/-- **A program on a component** is simulated by what simulates it there. -/
theorem Sim.zoom {W : ρ → σ → Prop} (L : Lens ρ τ) (h : Sim V Q p q)
    (hget : ∀ r s, W r s → V (L.get r) s)
    (hset : ∀ r s t s', W r s → V t s' → W (L.set t r) s') : Sim W Q (p.zoom L) q := by
  induction h with
  | ret h => exact .ret h
  | access S h _ ih =>
    refine .access S (fun r s hW => ?_) ih
    obtain ⟨hS, hV⟩ := h _ _ (hget r s hW)
    exact ⟨hS, hset r s _ _ hW hV⟩

/-- A step of the program is a step of what simulates it. -/
theorem Sim.next (h : Sim V Q p q) (hV : V t s) (hn : p.next t = some (p', t')) :
    ∃ q' s', q.next s = some (q', s') ∧ V t' s' ∧ Sim V Q p' q' := by
  rcases h with _ | ⟨S, h, hk⟩
  · cases hn
  · cases hn
    obtain ⟨hS, hV'⟩ := h t s hV
    exact ⟨_, _, rfl, hV', hk _ _ hS⟩

end Prog

namespace Machine

variable {D D' E E' ρ' : Type}

/-- **What is shown of a run**, by what is shown of each step. -/
def trace (N : Machine τ D ρ E) (shown : Config τ D ρ → Event D E → Option (Event D' E')) :
    Config τ D ρ → List (Event D E) → List (Event D' E')
  | _, [] => []
  | c, e :: es =>
    match N.step c e with
    | none => []
    | some c' => (shown c e).toList ++ trace N shown c' es

/-- **A simulation** of one machine by another, up to the first state that
is not `good`. `I` is what every step keeps, and from no state with it can
a step lead back to a good one. -/
structure Simulation (N : Machine τ D ρ E) (M : Machine σ D' ρ' E')
    (shown : Config τ D ρ → Event D E → Option (Event D' E')) (I good : Config τ D ρ → Prop)
    (R : Config τ D ρ → Config σ D' ρ' → Prop) : Prop where
  keep : ∀ c e c', I c → N.step c e = some c' → I c'
  back : ∀ c e c', I c → N.step c e = some c' → good c' → good c
  hidden : ∀ c k e c', R c k → N.step c e = some c' → good c → shown c e = none → R c' k
  step : ∀ c k e c' x, R c k → N.step c e = some c' → good c → shown c e = some x →
    ∃ k', M.step k x = some k' ∧ R c' k'

variable {N : Machine τ D ρ E} {M : Machine σ D' ρ' E'}
variable {shown : Config τ D ρ → Event D E → Option (Event D' E')}
variable {I good : Config τ D ρ → Prop}
variable {R : Config τ D ρ → Config σ D' ρ' → Prop} {c c' d d' : Config τ D ρ}
variable {k : Config σ D' ρ'} {es es' : List (Event D E)}

/-- Where a run ends well, it was well at the start: what is lost on the way
does not come back. -/
theorem Simulation.good_of_run (h : Simulation N M shown I good R) (hI : I c)
    (hr : N.run c es = some c') (hgood : good c') : good c := by
  induction es generalizing c with
  | nil =>
    obtain rfl : c = c' := by simpa using hr
    exact hgood
  | cons e es ih =>
    obtain ⟨d, hs, hr⟩ := run_cons_eq_some.mp hr
    exact h.back c e d hI hs (ih (h.keep c e d hI hs) hr)

/-- **What is shown of a run is a run** of the smaller machine. -/
theorem Simulation.run (h : Simulation N M shown I good R) (hI : I c) (hR : R c k)
    (hr : N.run c es = some c') (hgood : good c') :
    ∃ k', M.run k (N.trace shown c es) = some k' ∧ R c' k' := by
  induction es generalizing c k with
  | nil =>
    obtain rfl : c = c' := by simpa using hr
    exact ⟨k, rfl, hR⟩
  | cons e es ih =>
    have hc := h.good_of_run hI hr hgood
    obtain ⟨d, hs, hr⟩ := run_cons_eq_some.mp hr
    have hd := h.keep c e d hI hs
    simp only [trace, hs]
    rcases hx : shown c e with _ | x
    · exact ih hd (h.hidden c k e d hR hs hc hx) hr
    · obtain ⟨k₁, hk, hR₁⟩ := h.step c k e d x hR hs hc hx
      obtain ⟨k', hrun, hR'⟩ := ih hd hR₁ hr
      exact ⟨k', run_cons_eq_some.mpr ⟨k₁, hk, hrun⟩, hR'⟩

/-- **Runs that show the same** end in states related to one. -/
theorem Simulation.agree (h : Simulation N M shown I good R) (hI : I c) (hI' : I d)
    (hc : R c k) (hd : R d k) (hr : N.run c es = some c') (hr' : N.run d es' = some d')
    (hgood : good c') (hgood' : good d')
    (htrace : N.trace shown c es = N.trace shown d es') : ∃ k', R c' k' ∧ R d' k' := by
  obtain ⟨k₁, hrun, hR⟩ := h.run hI hc hr hgood
  obtain ⟨k₂, hrun', hR'⟩ := h.run hI' hd hr' hgood'
  rw [htrace, hrun'] at hrun
  obtain rfl := Option.some.inj hrun
  exact ⟨k₂, hR, hR'⟩

end Machine

end Foreground
