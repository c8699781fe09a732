import SentryCell.Lib.Machine
/-!
# What a program leaves alone

`Prog.Within R` says that every access a program can make is within `R`,
whatever the reads before it returned. It is a fact about the text of the
program, with one rule for each construct, and `Within.triple` turns it
into a triple. `run_execution` carries a triple over one dispatch of a
machine, from the event that starts it to any moment after its return.
-/

namespace Foreground

variable {σ τ α β : Type}

namespace Prog

/-- **Every access is within `R`.** -/
def Within (R : σ → σ → Prop) : {α : Type} → Prog σ α → Prop
  | _, .ret _ => True
  | _, .access f k => (∀ s, R s (f s).2) ∧ ∀ b, (k b).Within R
  | _, .loop body _ k => (∀ b, (body b).Within R) ∧ k.Within R

variable {R : σ → σ → Prop}

/-- A return makes no access, so that it is within any relation. -/
theorem within_ret (a : α) : (ret a : Prog σ α).Within R := trivial

/-- **Sequencing**: what every access of both parts keeps, every access of the
whole keeps. -/
theorem Within.bind {p : Prog σ α} {g : α → Prog σ β} (h : p.Within R)
    (hg : ∀ a, (g a).Within R) : (p.bind g).Within R := by
  induction p with
  | ret a => exact hg a
  | access f k ih => exact ⟨h.1, fun b => ih b (h.2 b) hg⟩
  | loop body b k _ ih => exact ⟨h.1, ih h.2 hg⟩

/-- A read leaves the state, so standing still has to be within `R`. -/
theorem within_read (hrefl : ∀ s, R s s) (f : σ → β) : (read f).Within R :=
  ⟨hrefl, fun b => within_ret b⟩

/-- A write is one access, and has to be within the relation from any
state. -/
theorem within_write {f : σ → σ} (h : ∀ s, R s (f s)) : (write f).Within R :=
  ⟨h, fun b => within_ret b⟩

/-- A read, and what follows it for any value that was read. -/
theorem Within.read_bind {f : σ → β} {g : β → Prog σ α} (hrefl : ∀ s, R s s)
    (hg : ∀ b, (g b).Within R) : ((read f).bind g).Within R :=
  (within_read hrefl f).bind hg

/-- A write that is within the relation, and then what follows it. -/
theorem Within.write_bind {f : σ → σ} {g : Unit → Prog σ α} (h : ∀ s, R s (f s))
    (hg : (g ()).Within R) : ((write f).bind g).Within R :=
  (within_write h).bind fun _ => hg

/-- A choice is within the relation if either branch is. -/
theorem Within.ite {c : Prop} [Decidable c] {p q : Prog σ α} (hp : p.Within R)
    (hq : q.Within R) : (if c then p else q).Within R := by
  split
  · exact hp
  · exact hq

/-- What a program does to a component, as what it does to the whole. -/
theorem Within.zoom {S : τ → τ → Prop} (L : Lens τ σ) {p : Prog σ α} (h : p.Within R)
    (hset : ∀ t s, R (L.get t) s → S t (L.set s t)) : (p.zoom L).Within S := by
  induction p with
  | ret a => exact within_ret a
  | access f k ih => exact ⟨fun t => hset t _ (h.1 _), fun b => ih b (h.2 b)⟩
  | loop body b k ihb ihk => exact ⟨fun b => ihb b (h.1 b), ihk h.2⟩

/-- Any program on a component is within a relation that lets this component
change freely. -/
theorem within_zoom (L : Lens τ σ) (p : Prog σ α) {S : τ → τ → Prop}
    (hset : ∀ t s, S t (L.set s t)) : (p.zoom L).Within S := by
  induction p with
  | ret a => exact within_ret a
  | access f k ih => exact ⟨fun t => hset t _, ih⟩
  | loop body b k ihb ihk => exact ⟨ihb, ihk⟩

/-- One step of the program is within `R`, and so is what remains. -/
theorem Within.next {p p' : Prog σ α} {s s' : σ} (hrefl : ∀ s, R s s) (h : p.Within R)
    (hn : p.next s = some (p', s')) : R s s' ∧ p'.Within R := by
  rcases p with _ | ⟨f, k⟩ | ⟨body, b, k⟩
  · cases hn
  · cases hn
    exact ⟨h.1 s, h.2 _⟩
  · cases hn
    refine ⟨hrefl s, (h.1 b).bind fun o => ?_⟩
    rcases o with _ | b'
    · exact h.2
    · exact h

end Prog

/-- **What every access keeps, the program keeps**: a relation that holds of
each access carries an assertion from the start to the end. -/
theorem Prog.Within.triple {C : Contract σ} {R : σ → σ → Prop} {P : σ → Prop} {p : Prog σ α}
    (h : p.Within R) (hrefl : ∀ s, R s s) (hstable : Stable C P) (hinv : ∀ s, P s → C.inv s)
    (hstep : ∀ s s', P s → R s s' → C.guar s s' ∧ P s') : Triple C P p fun _ => P := by
  intro s hs n
  refine Safe.of_stages (R := fun (q : Prog σ α) s => P s ∧ q.Within R) (fun _ _ h => h.1)
    (fun _ s _ h => hinv s h.1) (fun _ s s' _ h hr => ⟨hstable s s' h.1 hr, h.2⟩) ?_ ⟨hs, h⟩ n
  rintro q s q' s' ⟨hs, hq⟩ hn
  obtain ⟨hR, hq'⟩ := hq.next hrefl hn
  obtain ⟨hg, hs'⟩ := hstep s s' hs hR
  exact ⟨hg, hs', hq'⟩

namespace Machine

variable {D ρ E : Type} {M : Machine σ D ρ E} {C : Contract σ} {P : σ → Prop}
variable {Q : ρ → σ → Prop} {c c' : Config σ D ρ} {d : D} {es : List (Event D E)}

/-- What remains of the program in progress makes accesses within `R`. -/
def RunsWithin (R : σ → σ → Prop) (c : Config σ D ρ) : Prop :=
  ∀ d p, c.running = some (d, p) → p.Within R

/-- With no program in progress there is nothing to keep within. -/
theorem runsWithin_of_idle {R : σ → σ → Prop} (h : c.running = none) : RunsWithin R c := by
  intro d p hr
  rw [h] at hr
  cases hr

/-- **A step of a machine whose tasks and interrupts are within `R`** is
within `R`. -/
theorem step_within {R : σ → σ → Prop} {e : Event D E} (hrefl : ∀ s, R s s)
    (htask : ∀ d, (M.task d).Within R) (henv : ∀ x s s', M.env x s = some s' → R s s')
    (hc : RunsWithin R c) (h : M.step c e = some c') : R c.state c'.state ∧ RunsWithin R c' := by
  have hsettle : ∀ s (d : D) (p : Prog σ ρ) fin, p.Within R →
      RunsWithin R (settle s d p fin) := by
    intro s d p fin hp
    obtain ⟨r, rfl, hq⟩ | ⟨-, hq⟩ := settle_cases s d p fin
    · rw [hq]
      exact runsWithin_of_idle rfl
    · rw [hq]
      intro d' p' hr
      cases hr
      exact hp
  obtain ⟨d, -, -, -, rfl⟩ | ⟨d, p, p', s', -, hr, hn, rfl⟩ | ⟨x, s', -, hx, rfl⟩ := step_cases h
  · rw [settle_state]
    exact ⟨hrefl _, hsettle _ _ _ _ (htask d)⟩
  · obtain ⟨hR, hp'⟩ := (hc d p hr).next hrefl hn
    rw [settle_state]
    exact ⟨hR, hsettle _ _ _ _ hp'⟩
  · exact ⟨henv x _ _ hx, hc⟩

/-- **What every access and every interrupt keeps, a run keeps**, whatever is
dispatched and however they interleave. -/
theorem run_within {R : σ → σ → Prop} (hrefl : ∀ s, R s s) (htask : ∀ d, (M.task d).Within R)
    (henv : ∀ x s s', M.env x s = some s' → R s s') (hkeep : ∀ s s', P s → R s s' → P s')
    (hidle : c.running = none) (hP : P c.state) (h : M.run c es = some c') : P c'.state := by
  have hend : P c'.state ∧ RunsWithin R c' := by
    refine run_induction (P := fun q => P q.state ∧ RunsWithin R q) ?_
      ⟨hP, runsWithin_of_idle hidle⟩ h
    rintro q e q' ⟨hq, hrun⟩ hs
    obtain ⟨hR, hrun'⟩ := step_within hrefl htask henv hrun hs
    exact ⟨hkeep _ _ hq hR, hrun'⟩
  exact hend.1

/-- **One execution.** A dispatch that has returned left its result in the
log, and its postcondition outlasts the environment. -/
theorem run_execution (henv : ∀ x s s', M.env x s = some s' → C.rely s s')
    (htask : Triple C P (M.task d) Q) (hstable : ∀ r, Stable C (Q r)) (hP : P c.state)
    (hes : ∀ e ∈ es, e.isDispatch = false) (h : M.run c (.dispatch d :: es) = some c')
    (hdone : c'.running = none) :
    ∃ r, c'.finished = c.finished ++ [(d, r)] ∧ Q r c'.state := by
  -- what a configuration is while the dispatch is in progress, and once it has returned
  let Inv : Config σ D ρ → Prop :=
    StagedConfig (fun fin s => ∃ r, fin = c.finished ++ [(d, r)] ∧ Q r s)
      fun fin d' p s => d' = d ∧ fin = c.finished ∧ ∀ n, Safe C Q n p s
  have hsettle : ∀ s p, (∀ n, Safe C Q n p s) → Inv (settle s d p c.finished) := by
    intro s p hsafe
    obtain ⟨r, rfl, hs⟩ | ⟨hp, hs⟩ := settle_cases s d p c.finished
    · rw [hs]
      exact ⟨r, rfl, (hsafe 1).post⟩
    · rw [hs]
      exact ⟨hp, rfl, rfl, hsafe⟩
  obtain ⟨c₁, hs, hr⟩ := run_cons_eq_some.mp h
  have hstart : Inv c₁ := by
    obtain ⟨d', he, -, -, rfl⟩ | ⟨d', p, p', s', he, -⟩ | ⟨x, s', he, -⟩ := step_cases hs
    · obtain rfl : d = d' := by simpa using he
      exact hsettle _ _ fun n => htask _ hP n
    · cases he
    · cases he
  have hend : Inv c' := by
    refine run_induction_mem (P := Inv) ?_ hstart hr
    intro q e q' he hq hqs
    obtain ⟨d', rfl, -⟩ | ⟨d', p, p', s', -, hp, hn, rfl⟩ | ⟨x, s', -, hx, rfl⟩ := step_cases hqs
    · have := hes _ he
      cases this
    · obtain ⟨hlive, rfl, hfin, hsafe⟩ := hq.running hp
      rw [hfin]
      exact hsettle s' p' fun n => (((safe_succ_iff hlive).mp (hsafe (n + 1))).2.2 p' s' hn).2
    · have hrely := henv x _ _ hx
      rcases hrun : q.running with _ | ⟨d', p⟩
      · obtain ⟨r, hfin, hQ⟩ := hq.idle hrun
        simp only [Inv, StagedConfig]
        exact ⟨r, hfin, hstable r _ _ hQ hrely⟩
      · obtain ⟨hlive, hd, hfin, hsafe⟩ := hq.running hrun
        simp only [Inv, StagedConfig]
        exact ⟨hlive, hd, hfin, fun n =>
          ((safe_succ_iff hlive).mp (hsafe (n + 1))).2.1 s' hrely⟩
  exact StagedConfig.idle hend hdone

end Machine

end Foreground
