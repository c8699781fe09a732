import SentryCell.Firmware.Button
import Mathlib.Tactic.IntervalCases
/-!
# The stepper over whole runs

`actuator_service_task` drives the stepper's four coils in half steps.
`StepperView.service` is that automaton, with the coils, the position and
the time of the last mark; `actuatorOutcome` is the task with what each
execution came to. No access of any task ever energises two opposite coils
(`coils_never_opposed`), and over a run each step is the next half step of
the sequence, at least 5 ms after the one before it (`steps_spaced`).
-/

namespace SentryCell

open Foreground Word Machine

/-! ## The coils -/

/-- The four coils. -/
structure Coils where
  in1 : Bool
  in2 : Bool
  in3 : Bool
  in4 : Bool
  deriving DecidableEq, Repr

namespace Coils

/-- What the pins of `PORTD` drive them with. -/
def ofPins (pins : ℕ → Bool) : Coils where
  in1 := pins stepperIn1Bit
  in2 := pins stepperIn2Bit
  in3 := pins stepperIn3Bit
  in4 := pins stepperIn4Bit

/-- The coils of a state of the sequence. -/
def ofState (state : Byte) : Coils where
  in1 := state &&& stepperIn1Mask ≠ 0
  in2 := state &&& stepperIn2Mask ≠ 0
  in3 := state &&& stepperIn3Mask ≠ 0
  in4 := state &&& stepperIn4Mask ≠ 0

/-- No coil is energised. -/
def off : Coils := ⟨false, false, false, false⟩

/-- One pin of `PORTD` is written. -/
def drive (k : Coils) (i : ℕ) (on : Bool) : Coils where
  in1 := if i = stepperIn1Bit then on else k.in1
  in2 := if i = stepperIn2Bit then on else k.in2
  in3 := if i = stepperIn3Bit then on else k.in3
  in4 := if i = stepperIn4Bit then on else k.in4

/-- **Two opposite coils are energised.** -/
def Opposed (k : Coils) : Prop := (k.in1 ∧ k.in3) ∨ (k.in2 ∧ k.in4)

instance (k : Coils) : Decidable k.Opposed := inferInstanceAs (Decidable (_ ∨ _))

/-- Energised only where others are. -/
def Within (k l : Coils) : Prop :=
  (k.in1 → l.in1) ∧ (k.in2 → l.in2) ∧ (k.in3 → l.in3) ∧ (k.in4 → l.in4)

/-- Whether the field at the `n`-th of the eight positions of a turn is at
most one away from a position. -/
def near (n position : ℕ) : Bool := (n + 9 - position) % 8 ≤ 2

/-- **The coils of the `n`-th half step** of a turn. The coils stand at
every second of eight positions, and the field is at the `n`-th: a coil is
energised if the field is at it or next to it. -/
def halfStep (n : ℕ) : Coils where
  in1 := near n 0
  in2 := near n 2
  in3 := near n 4
  in4 := near n 6

/-- The index before, in the sequence. -/
def stepBefore (n : ℕ) : ℕ := (n + 7) % 8

variable {k l m : Coils} {pins : ℕ → Bool} {i : ℕ} {on : Bool}

/-- Writing one pin of the port drives the coil on it, if there is one. -/
theorem ofPins_update : ofPins (Function.update pins i on) = (ofPins pins).drive i on := by
  simp only [ofPins, drive, Function.update_apply, eq_comm]

/-- **The `switch` of `stepper_step_forward`** has the half steps in their
order. -/
theorem ofState_stepperState {index : Byte} (h : index.toNat < 8) :
    ofState (stepperState index) = halfStep index.toNat := by
  have hall : ∀ n < 8, ofState (stepperState (BitVec.ofNat 8 n)) = halfStep n := by decide
  have hindex := hall index.toNat h
  rwa [BitVec.ofNat_toNat, BitVec.setWidth_eq] at hindex

theorem within_refl (k : Coils) : k.Within k := ⟨id, id, id, id⟩

theorem Within.trans (h : k.Within l) (h' : l.Within m) : k.Within m :=
  ⟨fun hk => h'.1 (h.1 hk), fun hk => h'.2.1 (h.2.1 hk), fun hk => h'.2.2.1 (h.2.2.1 hk),
    fun hk => h'.2.2.2 (h.2.2.2 hk)⟩

/-- No coil at all is within anything. -/
theorem off_within (k : Coils) : off.Within k :=
  ⟨Bool.noConfusion, Bool.noConfusion, Bool.noConfusion, Bool.noConfusion⟩

/-- What is within no coil is no coil. -/
theorem Within.eq_off (h : k.Within off) : k = off := by
  obtain ⟨k1, k2, k3, k4⟩ := k
  simp only [Within, off, Bool.false_eq_true, imp_false, Bool.not_eq_true] at h
  obtain ⟨rfl, rfl, rfl, rfl⟩ := h
  rfl

/-- What is switched off stays within. -/
theorem drive_off_within : (k.drive i false).Within k := by
  unfold drive Within
  dsimp only
  refine ⟨?_, ?_, ?_, ?_⟩
  · by_cases h : i = stepperIn1Bit <;> simp [h]
  · by_cases h : i = stepperIn2Bit <;> simp [h]
  · by_cases h : i = stepperIn3Bit <;> simp [h]
  · by_cases h : i = stepperIn4Bit <;> simp [h]

/-- The same write leaves fewer coils where there were fewer. -/
theorem Within.drive (h : k.Within l) : (k.drive i on).Within (l.drive i on) := by
  obtain ⟨h1, h2, h3, h4⟩ := h
  unfold Coils.drive Within
  dsimp only
  refine ⟨?_, ?_, ?_, ?_⟩
  · split <;> [exact id; exact h1]
  · split <;> [exact id; exact h2]
  · split <;> [exact id; exact h3]
  · split <;> [exact id; exact h4]

/-- Fewer coils are not opposed, either. -/
theorem Within.not_opposed (h : k.Within l) (hl : ¬ l.Opposed) : ¬ k.Opposed := by
  rintro (⟨h1, h3⟩ | ⟨h2, h4⟩)
  · exact hl (.inl ⟨h.1 h1, h.2.2.1 h3⟩)
  · exact hl (.inr ⟨h.2.1 h2, h.2.2.2 h4⟩)

/-- The writes of `stepper_apply_state`, in their order. -/
def writes (t : Coils) : List (ℕ × Bool) :=
  [(stepperIn1Bit, t.in1), (stepperIn2Bit, t.in2), (stepperIn3Bit, t.in3), (stepperIn4Bit, t.in4)]

/-- The coils after some writes. -/
def driveAll (k : Coils) (ws : List (ℕ × Bool)) : Coils := ws.foldl (fun k w => k.drive w.1 w.2) k

/-- Driving the same pins in the same way keeps the order. -/
theorem Within.driveAll (h : k.Within l) (ws : List (ℕ × Bool)) :
    (k.driveAll ws).Within (l.driveAll ws) := by
  induction ws generalizing k l with
  | nil => exact h
  | cons w ws ih => exact ih h.drive

/-- **Going from one half step to the next**, coil by coil, no pair is ever
opposed: the two differ in one coil. -/
theorem not_opposed_driveAll {n : ℕ} (hn : n < 8) (hk : k.Within (halfStep (stepBefore n)))
    {j : ℕ} (hj : j ≤ 4) : ¬ (k.driveAll ((halfStep n).writes.take j)).Opposed := by
  refine (hk.driveAll ((halfStep n).writes.take j)).not_opposed ?_
  interval_cases n <;> interval_cases j <;> decide

end Coils

/-! ## The automaton -/

/-- What the actuator task keeps from one execution to the next, and the
state it reads. -/
structure StepperView where
  coils : Coils
  index : Byte
  lastStepMs : Word32
  state : SystemState
  deriving DecidableEq, Repr

def Control.stepperView (c : Control) : StepperView :=
  ⟨.ofPins (isSet c.portd), c.stepIndex, c.lastStepMs, c.systemState⟩

/-- **What an execution of `actuator_service_task` came to**: a step, none
before its time, or a stop. -/
inductive StepOutcome where
  | stepped
  | waited
  | stopped
  deriving DecidableEq, Repr

/-- `actuatorService`, and what it came to. -/
def actuatorOutcome (nowMs : Word32) : Prog Control StepOutcome := do
  let state ← systemFsmGetState
  if state = .active then do
    let lastStepMs ← Prog.read Control.lastStepMs
    if nowMs - lastStepMs ≥ stepperStepPeriodMs then do
      Prog.write fun c => { c with lastStepMs := nowMs }
      stepperStepForward
      pure .stepped
    else pure .waited
  else do
    stepperStop
    Prog.write fun c => { c with lastStepMs := nowMs }
    pure .stopped

/-- The outcome is read off, and changes nothing. -/
theorem actuatorService_eq (nowMs : Word32) :
    actuatorService nowMs = (actuatorOutcome nowMs).bind fun _ => .ret () := by
  simp only [actuatorService, actuatorOutcome, Prog.bind_eq, Prog.bind_assoc, Prog.pure_eq]
  refine congrArg _ (funext fun state => ?_)
  split
  · simp only [Prog.bind_assoc]
    refine congrArg _ (funext fun lastStepMs => ?_)
    split
    · simp only [Prog.bind_assoc, Prog.bind, Prog.bind_ret_unit]
    · rfl
  · simp only [Prog.bind_assoc, Prog.bind, Prog.bind_ret_unit]

namespace StepperView

/-- The index that the next execution finds: eight half steps are a turn. -/
def nextIndex (index : Byte) : Byte := if index + 1 ≥ 8 then 0 else index + 1

/-- **One execution of the task.** -/
def service (v : StepperView) (nowMs : Word32) : StepOutcome × StepperView :=
  if v.state = .active then
    if nowMs - v.lastStepMs ≥ stepperStepPeriodMs then
      (.stepped, { v with
        coils := .ofState (stepperState v.index), index := nextIndex v.index,
        lastStepMs := nowMs })
    else (.waited, v)
  else (.stopped, { v with coils := .off, lastStepMs := nowMs })

/-- One pin of `PORTD` is written. -/
def drive (v : StepperView) (i : ℕ) (on : Bool) : StepperView :=
  { v with coils := v.coils.drive i on }

/-- The same position, and no coil more; the state may be another. -/
structure Lowers (v w : StepperView) : Prop where
  coils : w.coils.Within v.coils
  index : w.index = v.index
  lastStepMs : w.lastStepMs = v.lastStepMs

/-- **The coils are within those of the last half step.** -/
structure Phased (v : StepperView) : Prop where
  index : v.index.toNat < 8
  coils : v.coils.Within (Coils.halfStep (Coils.stepBefore v.index.toNat))

variable {v w x : StepperView} {i : ℕ}

theorem lowers_refl (v : StepperView) : v.Lowers v := ⟨Coils.within_refl _, rfl, rfl⟩

theorem Lowers.trans (h : v.Lowers w) (h' : w.Lowers x) : v.Lowers x :=
  ⟨h'.coils.trans h.coils, h'.index.trans h.index, h'.lastStepMs.trans h.lastStepMs⟩

theorem lowers_drive_off (v : StepperView) (i : ℕ) : v.Lowers (v.drive i false) :=
  ⟨Coils.drive_off_within, rfl, rfl⟩

/-- Switching coils off leaves a phased view phased, for it asks for no more
than that. -/
theorem Lowers.phased (h : v.Lowers w) (hv : v.Phased) : w.Phased := by
  obtain ⟨hcoils, hindex, -⟩ := h
  refine ⟨hindex ▸ hv.index, ?_⟩
  rw [hindex]
  exact hcoils.trans hv.coils

/-- **A phased view has no opposite coils**, for no half step energises them
together. -/
theorem Phased.not_opposed (h : v.Phased) : ¬ v.coils.Opposed :=
  Coils.not_opposed_driveAll (j := 0) h.index h.coils (Nat.zero_le 4)

end StepperView

/-! ## Accesses, through what they show -/

/-- The control side among its interrupts, which write neither `PORTD` nor
the stepper's variables; `ok` is what the coils meet throughout. -/
def coilContract (ok : Coils → Prop) : Contract Control where
  rely c c' := c'.portd = c.portd ∧ c'.stepperView = c.stepperView
  guar _ _ := True
  inv c := ok c.stepperView.coils

/-- **A program turns the stepper** from `v` to `w`. -/
def Turns (ok : Coils → Prop) (p : Prog Control Unit) (v w : StepperView) : Prop :=
  Triple (coilContract ok) (fun c => c.stepperView = v) p fun _ c => c.stepperView = w

/-- **A program leaves the stepper where it is**, and energises no coil. -/
def Unstepped {α : Type} (ok : Coils → Prop) (p : Prog Control α) : Prop :=
  ∀ v : StepperView, ok v.coils →
    Triple (coilContract ok) (fun c => v.Lowers c.stepperView) p fun _ c => v.Lowers c.stepperView

/-- What fewer coils meet, too. -/
def Lowered (ok : Coils → Prop) : Prop := ∀ k l : Coils, k.Within l → ok l → ok k

section

variable {ok : Coils → Prop} {α β : Type} {v w x : StepperView} {i : ℕ} {on : Bool}
variable {p q : Prog Control Unit} {P : StepperView → Prop} {Q : α → Control → Prop}

/-- No handler touches the stepper's coils or its index, so every assertion on
them is stable. -/
theorem stable_stepper (P : StepperView → Prop) :
    Stable (coilContract ok) fun c => P c.stepperView := by
  intro c c' h hr
  rw [hr.2]
  exact h

/-- A value read is any value. -/
theorem stepper_read_bind {f : Control → β} {g : β → Prog Control α} {b : β → Prop}
    (hP : ∀ v, P v → ok v.coils) (hf : ∀ c, P c.stepperView → b (f c))
    (hg : ∀ a, b a → Triple (coilContract ok) (fun c => P c.stepperView) (g a) Q) :
    Triple (coilContract ok) (fun c => P c.stepperView) ((Prog.read f).bind g) Q := by
  refine Triple.read_bind (B := fun a c => b a ∧ P c.stepperView) (stable_stepper P)
    (fun c hc => hP _ hc) (fun _ => trivial) (fun c hc => ⟨hf c hc, hc⟩) fun a => ?_
  rintro c ⟨ha, hc⟩ n
  exact hg a ha c hc n

/-- A write that shows as a change from `v` to `w`. -/
theorem turns_write {f : Control → Control} (hv : ok v.coils)
    (hf : ∀ c, c.stepperView = v → (f c).stepperView = w) : Turns ok (Prog.write f) v w := by
  refine Triple.write (stable_stepper (· = v)) ?_ fun c hc => ⟨trivial, hf c hc⟩
  rintro c rfl
  exact hv

/-- One turn after another is a turn, from the first view to the last one. -/
theorem Turns.bind (hp : Turns ok p v w) (hq : Turns ok q w x) :
    Turns ok (p.bind fun _ => q) v x := Triple.bind hp fun _ => hq

/-- **A pin of `PORTD`**: no interrupt comes between the two accesses that
writes it. -/
theorem portd_triple {f : Byte → Byte} {W : StepperView → Prop}
    (hf : ∀ r, isSet (f r) = Function.update (isSet r) i on) (hP : ∀ v, P v → ok v.coils)
    (hW : ∀ v, P v → W (v.drive i on)) :
    Triple (coilContract ok) (fun c => P c.stepperView)
      ((Prog.read Control.portdLens.get).bind fun r =>
        Prog.write (Control.portdLens.set (f r))) fun _ c => W c.stepperView := by
  refine Triple.read_bind (B := fun r c => P c.stepperView ∧ c.portd = r) (stable_stepper P)
    (fun c hc => hP _ hc) (fun _ => trivial) (fun c hc => ⟨hc, rfl⟩) fun r => ?_
  refine Triple.write ?_ (fun c hc => hP _ hc.1) ?_
  · rintro c c' ⟨hc, hr⟩ hrely
    exact ⟨stable_stepper P c c' hc hrely, hrely.1.trans hr⟩
  · rintro c ⟨hc, rfl⟩
    have hset : (Control.portdLens.set (f c.portd) c).stepperView = c.stepperView.drive i on := by
      show (⟨.ofPins (isSet (f c.portd)), _, _, _⟩ : StepperView) = _
      rw [hf, Coils.ofPins_update]
      rfl
    rw [hset]
    exact ⟨trivial, hW _ hc⟩

/-- Switching a pin off is a turn from every view that is allowed. -/
theorem turns_low (hi : i < 8) (hv : ok v.coils) :
    Turns ok (gpioWriteLow Control.portdLens i) v (v.drive i false) :=
  portd_triple (P := (· = v)) (W := (· = v.drive i false)) (isSet_and_not_bit_eq hi)
    (fun _ h => h ▸ hv) fun _ h => h ▸ rfl

/-- Writing one phase of the sequence drives the coil of that pin. -/
theorem turns_phase {enabled : Byte} (hi : i < 8) (hv : ok v.coils) :
    Turns ok (stepperWritePhase i enabled) v (v.drive i (enabled ≠ 0)) := by
  unfold stepperWritePhase
  split
  · rename_i h
    rw [decide_eq_true h]
    exact portd_triple (P := (· = v)) (W := (· = v.drive i true)) (isSet_or_bit_eq hi)
      (fun _ hw => hw ▸ hv) fun _ hw => hw ▸ rfl
  · rename_i h
    rw [decide_eq_false h]
    exact turns_low hi hv

/-- What each of the four writes of a half step leaves. -/
def StepperView.after (v : StepperView) (j : ℕ) : StepperView :=
  { v with coils := v.coils.driveAll ((Coils.ofState (stepperState v.index)).writes.take j) }

/-- `stepper_apply_state`, on the state of the index. -/
theorem turns_applyState (hv : ∀ j ≤ 4, ok (v.after j).coils) :
    Turns ok (stepperApplyState (stepperState v.index)) v (v.after 4) := by
  have h1 : Turns ok (stepperWritePhase _ _) v (v.after 1) :=
    turns_phase (show stepperIn1Bit < 8 by decide) (hv 0 (by omega))
  have h2 : Turns ok (stepperWritePhase _ _) (v.after 1) (v.after 2) :=
    turns_phase (show stepperIn2Bit < 8 by decide) (hv 1 (by omega))
  have h3 : Turns ok (stepperWritePhase _ _) (v.after 2) (v.after 3) :=
    turns_phase (show stepperIn3Bit < 8 by decide) (hv 2 (by omega))
  have h4 : Turns ok (stepperWritePhase _ _) (v.after 3) (v.after 4) :=
    turns_phase (show stepperIn4Bit < 8 by decide) (hv 3 (by omega))
  exact h1.bind (h2.bind (h3.bind h4))

/-- `stepper_stop` turns any allowed view into the one with no coil. -/
theorem turns_stop (hok : Lowered ok) (hv : ok v.coils) :
    Turns ok stepperStop v { v with coils := .off } := by
  have hlow : ∀ {w : StepperView} {i : ℕ}, ok w.coils → ok (w.drive i false).coils :=
    fun hw => hok _ _ Coils.drive_off_within hw
  exact (turns_low (by decide) hv).bind <| (turns_low (by decide) (hlow hv)).bind <|
    (turns_low (by decide) (hlow (hlow hv))).bind <|
      turns_low (by decide) (hlow (hlow (hlow hv)))

/-- `stepper_step_forward`: the four phases, and the next index. -/
theorem turns_stepForward (hv : ∀ j ≤ 4, ok (v.after j).coils) :
    Turns ok stepperStepForward v { v.after 4 with index := StepperView.nextIndex v.index } := by
  refine stepper_read_bind (P := (· = v)) (b := (· = v.index)) (fun _ h => h ▸ hv 0 (by omega)) ?_
    fun index hindex => ?_
  · rintro c rfl
    rfl
  subst hindex
  refine Triple.bind (turns_applyState hv) fun _ => turns_write (hv 4 (by omega)) fun c hc => ?_
  have hindex : c.stepIndex = v.index := congrArg StepperView.index hc
  show { c.stepperView with index := StepperView.nextIndex c.stepIndex } = _
  rw [hindex, hc]

/-- **An execution of the task is one of the automaton**, and no write of
it energises opposite coils. -/
theorem actuatorOutcome_triple (hok : Lowered ok) (nowMs : Word32) (hv : ok v.coils)
    (hstep : ∀ j ≤ 4, ok (v.after j).coils) :
    Triple (coilContract ok) (fun c => c.stepperView = v) (actuatorOutcome nowMs)
      fun o c => (o, c.stepperView) = v.service nowMs := by
  have hret : ∀ (w : StepperView) (o : StepOutcome), (o, w) = v.service nowMs →
      Triple (coilContract ok) (fun c => c.stepperView = w) (.ret o) fun o c =>
        (o, c.stepperView) = v.service nowMs := fun w o h =>
    Triple.ret fun c hc => by rw [hc]; exact h
  unfold actuatorOutcome
  refine stepper_read_bind (P := (· = v)) (b := (· = v.state)) (fun _ h => h ▸ hv) ?_
    fun state hstate => ?_
  · rintro c rfl
    rfl
  subst hstate
  split
  · rename_i hactive
    refine stepper_read_bind (P := (· = v)) (b := (· = v.lastStepMs)) (fun _ h => h ▸ hv) ?_
      fun lastStepMs hlast => ?_
    · rintro c rfl
      rfl
    subst hlast
    split
    · rename_i hdue
      have hmark : Turns ok (Prog.write fun c => { c with lastStepMs := nowMs }) v
          { v with lastStepMs := nowMs } := turns_write hv fun c hc => by rw [← hc]; rfl
      have hforward : Turns ok stepperStepForward { v with lastStepMs := nowMs }
          { v.after 4 with index := StepperView.nextIndex v.index, lastStepMs := nowMs } :=
        turns_stepForward (v := { v with lastStepMs := nowMs }) hstep
      refine Triple.bind hmark fun _ => Triple.bind hforward fun _ => hret _ _ ?_
      rw [StepperView.service, if_pos hactive, if_pos hdue]
      rfl
    · rename_i hdue
      refine hret v .waited ?_
      rw [StepperView.service, if_pos hactive, if_neg hdue]
  · rename_i hactive
    refine Triple.bind (turns_stop hok hv) fun _ => Triple.bind
      (turns_write (w := { v with coils := .off, lastStepMs := nowMs })
        (hok _ _ (Coils.off_within v.coils) hv) fun c hc => ?_) fun _ => hret _ .stopped ?_
    · show { c.stepperView with lastStepMs := nowMs } = _
      rw [hc]
    · rw [StepperView.service, if_neg hactive]

/-! ## The other tasks -/

theorem unstepped_ret (a : α) : Unstepped ok (.ret a : Prog Control α) :=
  fun _ _ => Triple.ret fun _ h => h

/-- A program that takes no step, followed by one that takes none. -/
theorem Unstepped.bind {p : Prog Control β} {g : β → Prog Control α} (hp : Unstepped ok p)
    (hg : ∀ b, Unstepped ok (g b)) : Unstepped ok (p.bind g) :=
  fun v hv => Triple.bind (hp v hv) fun b => hg b v hv

theorem Unstepped.ite {c : Prop} [Decidable c] {p q : Prog Control α} (hp : Unstepped ok p)
    (hq : Unstepped ok q) : Unstepped ok (if c then p else q) := by
  split
  · exact hp
  · exact hq

/-- An access that does not show in the stepper's view takes no step. -/
theorem unstepped_access (hok : Lowered ok) {f : Control → β × Control}
    (hf : ∀ c, (f c).2.stepperView.index = c.stepperView.index ∧
      (f c).2.stepperView.lastStepMs = c.stepperView.lastStepMs ∧
      (f c).2.stepperView.coils = c.stepperView.coils) : Unstepped ok (.access f .ret) := by
  intro v hv
  refine Triple.access (B := fun _ c => v.Lowers c.stepperView) (stable_stepper _)
    (fun c hc => hok _ _ hc.coils hv) (fun c hc => ⟨trivial, ?_⟩) fun _ => Triple.ret fun _ h => h
  obtain ⟨hindex, hlast, hcoils⟩ := hf c
  exact ⟨hcoils ▸ hc.coils, hindex.trans hc.index, hlast.trans hc.lastStepMs⟩

theorem unstepped_read (hok : Lowered ok) (f : Control → β) : Unstepped ok (Prog.read f) :=
  unstepped_access hok fun _ => ⟨rfl, rfl, rfl⟩

/-- A write is no step if it leaves the coils' port and the stepper's
variables alone. -/
theorem unstepped_write (hok : Lowered ok) {f : Control → Control}
    (hf : ∀ c, ((f c).portd, (f c).stepIndex, (f c).lastStepMs) =
      (c.portd, c.stepIndex, c.lastStepMs)) : Unstepped ok (Prog.write f) := by
  refine unstepped_access hok fun c => ?_
  obtain ⟨hport, hindex, hlast⟩ : (f c).portd = c.portd ∧ (f c).stepIndex = c.stepIndex ∧
      (f c).lastStepMs = c.lastStepMs := by simpa using hf c
  exact ⟨hindex, hlast, congrArg (fun r => Coils.ofPins (isSet r)) hport⟩

/-- PORTB has no coil on it. -/
theorem unstepped_portb (hok : Lowered ok) (i : ℕ) :
    Unstepped ok (gpioWriteHigh Control.portbLens i) ∧ Unstepped ok (gpioWriteLow Control.portbLens i) :=
  ⟨(unstepped_read hok _).bind fun _ => unstepped_write hok fun _ => rfl,
    (unstepped_read hok _).bind fun _ => unstepped_write hok fun _ => rfl⟩

/-- Switching a pin of PORTD off may take a coil away, and that is no step. -/
theorem unstepped_low (hok : Lowered ok) (hi : i < 8) :
    Unstepped ok (gpioWriteLow Control.portdLens i) := fun _ hv =>
  portd_triple (isSet_and_not_bit_eq hi) (fun _ h => hok _ _ h.coils hv) fun w h =>
    h.trans (w.lowers_drive_off i)

/-- The trigger is not a coil. -/
theorem unstepped_trigger (hok : Lowered ok) :
    Unstepped ok (gpioWriteHigh Control.portdLens hcsr04TriggerBit) := fun _ hv =>
  portd_triple (isSet_or_bit_eq (by decide)) (fun _ h => hok _ _ h.coils hv) fun _ h => h

theorem unstepped_stepperStop (hok : Lowered ok) : Unstepped ok stepperStop :=
  (unstepped_low hok (by decide)).bind fun _ => (unstepped_low hok (by decide)).bind fun _ =>
    (unstepped_low hok (by decide)).bind fun _ => unstepped_low hok (by decide)

theorem unstepped_dcMotorStop (hok : Lowered ok) : Unstepped ok dcMotorStop :=
  (unstepped_portb hok _).2.bind fun _ => (unstepped_portb hok _).2

theorem unstepped_servo (hok : Lowered ok) (pulseMs : Byte) :
    Unstepped ok (servoSetPulseMs pulseMs) :=
  .ite (unstepped_write hok fun _ => rfl) (unstepped_ret ())

theorem unstepped_setSafeOutputs (hok : Lowered ok) : Unstepped ok setSafeOutputs :=
  (unstepped_stepperStop hok).bind fun _ => (unstepped_dcMotorStop hok).bind fun _ =>
    (unstepped_portb hok _).2.bind fun _ => (unstepped_servo hok _).bind fun _ =>
      (unstepped_portb hok _).2

theorem unstepped_controlOutputs (hok : Lowered ok) (nowMs : Word32) (state : SystemState) :
    Unstepped ok (controlOutputs nowMs state) := by
  have hrest : ∀ led : Prog Control Unit, Unstepped ok led →
      Unstepped ok (relayOff.bind fun _ => dcMotorStop.bind fun _ =>
        (servoSetPulseMs 1).bind fun _ => led) := fun led hled =>
    (unstepped_portb hok _).2.bind fun _ => (unstepped_dcMotorStop hok).bind fun _ =>
      (unstepped_servo hok 1).bind fun _ => hled
  have hled := unstepped_portb hok ledBit
  rcases state with _ | _ | _ | _
  · exact unstepped_setSafeOutputs hok
  · exact hrest _ hled.2
  · exact (unstepped_portb hok _).1.bind fun _ => ((unstepped_portb hok _).1.bind fun _ =>
      (unstepped_portb hok _).2).bind fun _ => (unstepped_servo hok 2).bind fun _ => hled.1
  · refine hrest _ ((unstepped_read hok _).bind fun lastFault => ?_)
    exact .ite (.ite hled.1 hled.2) (.ite hled.1 hled.2)

/-- **The control task takes no step**: it may only stop the stepper. -/
theorem unstepped_controlStep (hok : Lowered ok) (pind : Byte) (nowMs : Word32) :
    Unstepped ok (controlStep pind nowMs) := by
  refine (unstepped_read hok _).bind fun state => Unstepped.bind ?_ fun state =>
    unstepped_controlOutputs hok nowMs _
  refine .ite ?_ (.ite ?_ ?_)
  · exact Unstepped.bind (unstepped_write hok fun _ => rfl) fun _ => unstepped_ret _
  · exact Unstepped.bind (unstepped_write hok fun _ => rfl) fun _ => unstepped_ret _
  · refine (unstepped_read hok _).bind fun buttonArmed => .ite ?_ (unstepped_ret _)
    refine Unstepped.bind (unstepped_write hok fun _ => rfl) fun _ =>
      .ite ?_ (unstepped_ret _)
    exact Unstepped.bind (unstepped_write hok fun _ => rfl) fun _ => unstepped_read hok _

theorem unstepped_judgePulse (hok : Lowered ok) (pulseTicks : Word16) :
    Unstepped ok (judgePulse pulseTicks) := by
  refine (unstepped_read hok _).bind fun state =>
    .ite (Unstepped.bind ?_ fun _ => ?_) (unstepped_ret _)
  · refine unstepped_write hok fun c => ?_
    split
    · rfl
    · rfl
  · exact unstepped_write hok fun _ => rfl

/-- **The sensor task takes no step**, whatever it makes of the echo. -/
theorem unstepped_sensorSafety (hok : Lowered ok) (adc : Word16) :
    Unstepped ok (sensorSafety adc) := by
  have hactive : ∀ active,
      Unstepped ok (Prog.write fun c => { c with measurementActive := active }) :=
    fun _ => unstepped_write hok fun _ => rfl
  refine Unstepped.bind (unstepped_write hok fun _ => rfl) fun _ =>
    (unstepped_read hok _).bind fun active => .ite ?_ ?_
  · refine Unstepped.bind ?_ fun started => hactive started
    refine Unstepped.bind (unstepped_access hok fun c => ?_) fun started =>
      .ite ?_ (unstepped_ret _)
    · dsimp only
      split
      · exact ⟨rfl, rfl, rfl⟩
      · exact ⟨rfl, rfl, rfl⟩
    · exact (unstepped_trigger hok).bind fun _ => (unstepped_low hok (by decide)).bind fun _ =>
        unstepped_ret _
  · refine Unstepped.bind ?_ fun _ => hactive 0
    refine (unstepped_read hok _).bind fun ready => .ite ?_ ?_
    · exact (unstepped_read hok _).bind fun pulseTicks => unstepped_judgePulse hok pulseTicks
    · exact Unstepped.bind (unstepped_write hok fun _ => rfl) fun _ =>
        unstepped_low hok (by decide)

end

/-! ## The machine -/

/-- The body of a task, and the outcome of the one that steps. -/
def Task.stepper (r : Readings) : Task → Prog Firmware (Option StepOutcome)
  | .actuatorService => ((actuatorOutcome r.nowMs).zoom Firmware.controlLens).bind fun o =>
      .ret (some o)
  | .control => (Task.control.body r).bind fun _ => .ret none
  | .sensorSafety => (Task.sensorSafety.body r).bind fun _ => .ret none
  | .communication => (Task.communication.body r).bind fun _ => .ret none

/-- One execution of a task, and its outcome. -/
def Dispatch.stepper (d : Dispatch) : Prog Firmware (Option StepOutcome) := do
  (recordStart d.task.id d.task.periodMs d.readings).zoom Firmware.profilerLens
  let outcome ← d.task.stepper d.readings
  (recordEnd d.task.id d.task.periodMs d.readings).zoom Firmware.profilerLens
  pure outcome

/-- **The firmware, with the stepper's outcomes in its log.** -/
def steppers : Machine Firmware Dispatch (Option StepOutcome) Interrupt where
  task := Dispatch.stepper
  ready _ _ := true
  env x s := x.handler s

abbrev StepperConfig := Config Firmware Dispatch (Option StepOutcome)

/-- The body that tells what it did to the stepper is the body, once that is
forgotten. -/
theorem Task.body_stepper (r : Readings) (task : Task) :
    task.body r = (task.stepper r).bind fun _ => .ret () := by
  rcases task with _ | _ | _ | _
  · simp only [Task.stepper, Task.body, actuatorService_eq, Prog.zoom_bind, Prog.bind_assoc,
      Prog.bind, Prog.zoom_ret]
  · simp only [Task.stepper, Prog.bind_assoc, Prog.bind, Prog.bind_ret_unit]
  · simp only [Task.stepper, Prog.bind_assoc, Prog.bind, Prog.bind_ret_unit]
  · simp only [Task.stepper, Prog.bind_assoc, Prog.bind, Prog.bind_ret_unit]

/-- **The runs of the firmware** are those of `steppers`, with the outcomes
forgotten. -/
theorem run_steppers (c : StepperConfig) (es : List FirmwareEvent) :
    firmware.run (mapConfig (fun _ _ => ()) c) es =
      (steppers.run c es).map (mapConfig fun _ _ => ()) := by
  have htask : Dispatch.program = fun d => d.stepper.bind fun _ => .ret () := by
    funext d
    simp only [Dispatch.program, Dispatch.stepper, Task.body_stepper, Prog.bind_eq,
      Prog.bind_assoc, Prog.bind, Prog.pure_eq, Prog.bind_ret_unit]
  have hfirmware : firmware = steppers.mapResults fun _ _ => () := by
    show (⟨Dispatch.program, _, _⟩ : Machine Firmware Dispatch Unit Interrupt) = _
    rw [htask]
    rfl
  rw [hfirmware]
  exact run_mapResults

/-! ## The account -/

/-- How many steps a log has. -/
def steps (fin : List (Dispatch × Option StepOutcome)) : ℕ :=
  fin.countP fun r => r.2 = some .stepped

/-- The time the last step or stop of a log marked, `m₀` if there is none. -/
def lastMark (m₀ : Word32) (fin : List (Dispatch × Option StepOutcome)) : Word32 :=
  fin.foldl (fun m r => if r.2 = some .stepped ∨ r.2 = some .stopped then r.1.readings.nowMs else m)
    m₀

/-- **What an execution comes to** after those of a log: a step only if one
is due, a wait only if none is, and another task's none. -/
def Serviced (m₀ : Word32) (before : List (Dispatch × Option StepOutcome)) (d : Dispatch)
    (o : Option StepOutcome) : Prop :=
  (o = some .stepped → d.readings.nowMs - lastMark m₀ before ≥ stepperStepPeriodMs) ∧
    (o = some .waited → d.readings.nowMs - lastMark m₀ before < stepperStepPeriodMs) ∧
    (o.isSome ↔ d.task = .actuatorService)

/-- So does every execution of a log. -/
def ServicedOnTime (m₀ : Word32) (fin : List (Dispatch × Option StepOutcome)) : Prop :=
  ∀ before d o after, fin = before ++ (d, o) :: after → Serviced m₀ before d o

/-- What an execution leaves of the coils. -/
def StepOutcome.Leaves (o : StepOutcome) (v : StepperView) : Prop :=
  (o = .stepped → v.coils = Coils.halfStep (Coils.stepBefore v.index.toNat)) ∧
    (o = .stopped → v.coils = .off)

/-- **What ties the log to the stepper's variables** where no task runs. -/
structure StepAccount (m₀ : Word32) (fin : List (Dispatch × Option StepOutcome))
    (v : StepperView) : Prop where
  index : v.index.toNat = steps fin % 8
  coils : v.coils.Within (Coils.halfStep (Coils.stepBefore v.index.toNat))
  mark : v.lastStepMs = lastMark m₀ fin
  serviced : ServicedOnTime m₀ fin

section

variable {m₀ : Word32} {fin : List (Dispatch × Option StepOutcome)} {v w : StepperView}
variable {d : Dispatch} {o : Option StepOutcome}

/-- One more execution adds at most one step. -/
theorem steps_append :
    steps (fin ++ [(d, o)]) = steps fin + if o = some .stepped then 1 else 0 := by
  by_cases h : o = some .stepped <;> simp [steps, h]

/-- Only an execution that stepped or stopped moves the mark from which the
next step is due. -/
theorem lastMark_append : lastMark m₀ (fin ++ [(d, o)]) =
    if o = some .stepped ∨ o = some .stopped then d.readings.nowMs else lastMark m₀ fin := by
  simp only [lastMark, List.foldl_append, List.foldl_cons, List.foldl_nil]

/-- Executions stay on time if the new one was, judged against the last mark
before it. -/
theorem ServicedOnTime.append (h : ServicedOnTime m₀ fin) (hd : Serviced m₀ fin d o) :
    ServicedOnTime m₀ (fin ++ [(d, o)]) := by
  intro before d' o' after hfin
  rcases List.eq_nil_or_concat after with rfl | ⟨after, last, rfl⟩
  · obtain ⟨rfl, hlast⟩ := List.append_inj' hfin rfl
    obtain ⟨rfl, rfl⟩ := Prod.mk.inj (List.singleton_inj.mp hlast)
    exact hd
  · have hsplit : fin ++ [(d, o)] = (before ++ (d', o') :: after) ++ [last] := by
      rw [hfin, List.concat_eq_append, List.append_assoc, List.cons_append]
    obtain ⟨rfl, -⟩ := List.append_inj' hsplit rfl
    exact h before d' o' after rfl

/-- The executions of a run's beginning. -/
theorem ServicedOnTime.before {fin' : List (Dispatch × Option StepOutcome)}
    (h : ServicedOnTime m₀ (fin ++ fin')) : ServicedOnTime m₀ fin := by
  intro before d o after hfin
  refine h before d o (after ++ fin') ?_
  rw [hfin, List.append_assoc, List.cons_append]

/-- The account says which half step the coils are within. -/
theorem StepAccount.phased (h : StepAccount m₀ fin v) : v.Phased := by
  refine ⟨?_, h.coils⟩
  rw [h.index]
  exact Nat.mod_lt _ (by omega)

theorem StepAccount.lowers (h : StepAccount m₀ fin v) (hw : v.Lowers w) : StepAccount m₀ fin w := by
  refine ⟨hw.index ▸ h.index, ?_, hw.lastStepMs.trans h.mark, h.serviced⟩
  rw [hw.index]
  exact hw.coils.trans h.coils

/-- Another task's execution is no step. -/
theorem StepAccount.other (h : StepAccount m₀ fin v) (htask : d.task ≠ .actuatorService) :
    StepAccount m₀ (fin ++ [(d, none)]) v := by
  refine ⟨?_, h.coils, ?_, h.serviced.append ⟨?_, ?_, ?_⟩⟩
  · rw [steps_append]
    exact h.index
  · rw [lastMark_append]
    exact h.mark
  · exact nofun
  · exact nofun
  · simp [htask]

/-- The next index, as a number. -/
theorem toNat_nextIndex {index : Byte} {n : ℕ} (h : index.toNat = n % 8) :
    (StepperView.nextIndex index).toNat = (n + 1) % 8 := by
  have hsucc : (index + 1).toNat = n % 8 + 1 := by
    rw [BitVec.toNat_add, h]
    simp
    omega
  unfold StepperView.nextIndex
  split
  · rename_i hge
    have hge' : 8 ≤ (index + 1).toNat := hge
    simp
    omega
  · rename_i hge
    have hlt : (index + 1).toNat < 8 := Nat.lt_of_not_le hge
    omega

/-- **The account of one more execution** of the task. -/
theorem StepAccount.service (h : StepAccount m₀ fin v) (htask : d.task = .actuatorService) :
    StepAccount m₀ (fin ++ [(d, some (v.service d.readings.nowMs).1)])
      (v.service d.readings.nowMs).2 ∧
    (v.service d.readings.nowMs).1.Leaves (v.service d.readings.nowMs).2 := by
  have hserviced : ∀ {outcome : StepOutcome},
      (outcome = .stepped → d.readings.nowMs - v.lastStepMs ≥ stepperStepPeriodMs) →
      (outcome = .waited → d.readings.nowMs - v.lastStepMs < stepperStepPeriodMs) →
      ServicedOnTime m₀ (fin ++ [(d, some outcome)]) := by
    intro outcome hstepped hwaited
    rw [h.mark] at hstepped hwaited
    exact h.serviced.append ⟨fun ho => hstepped (Option.some.inj ho),
      fun ho => hwaited (Option.some.inj ho), by simp [htask]⟩
  unfold StepperView.service
  by_cases hactive : v.state = .active
  · rw [if_pos hactive]
    by_cases hdue : d.readings.nowMs - v.lastStepMs ≥ stepperStepPeriodMs
    · rw [if_pos hdue]
      have hindex := toNat_nextIndex h.index
      have hbefore : Coils.stepBefore ((steps fin + 1) % 8) = v.index.toNat := by
        rw [h.index, Coils.stepBefore]
        omega
      have hcoils : Coils.halfStep (Coils.stepBefore (StepperView.nextIndex v.index).toNat) =
          .ofState (stepperState v.index) := by
        have hlt : v.index.toNat < 8 := by
          rw [h.index]
          exact Nat.mod_lt _ (by decide)
        rw [hindex, hbefore, Coils.ofState_stepperState hlt]
      refine ⟨⟨?_, ?_, ?_, hserviced (fun _ => hdue) nofun⟩,
        ⟨fun _ => hcoils.symm, nofun⟩⟩
      · rw [steps_append, if_pos rfl]
        exact hindex
      · rw [hcoils]
        exact Coils.within_refl _
      · rw [lastMark_append, if_pos (.inl rfl)]
    · rw [if_neg hdue]
      refine ⟨⟨?_, h.coils, ?_, hserviced nofun fun _ => BitVec.not_le.mp hdue⟩,
        ⟨nofun, nofun⟩⟩
      · rw [steps_append]
        exact h.index
      · rw [lastMark_append]
        exact h.mark
  · rw [if_neg hactive]
    refine ⟨⟨?_, Coils.off_within _, ?_, hserviced nofun nofun⟩,
      ⟨nofun, fun _ => rfl⟩⟩
    · rw [steps_append]
      exact h.index
    · rw [lastMark_append, if_pos (.inr rfl)]

end

/-! ## Whole runs -/

/-- No two opposite coils. -/
def Unopposed (k : Coils) : Prop := ¬ k.Opposed

/-- Switching a coil off cannot bring opposite coils together. -/
theorem lowered_unopposed : Lowered Unopposed := fun _ _ hkl hl => hkl.not_opposed hl

/-- The firmware among its interrupts, for the stepper. -/
def stepContract : Contract Firmware where
  rely s s' := ∃ x : Interrupt, x.handler s = some s'
  guar _ _ := True
  inv s := Unopposed s.control.stepperView.coils

section

variable {s s' : Firmware} {v : StepperView} {α : Type}

/-- **No interrupt writes `PORTD`**, or the stepper's variables. -/
theorem stepper_of_handler {x : Interrupt} (h : x.handler s = some s') :
    s'.control.portd = s.control.portd ∧ s'.control.stepperView = s.control.stepperView := by
  obtain ⟨byte, rfl⟩ | rfl | rfl | ⟨tick, rfl⟩ | rfl := handler_cases h
  · exact ⟨rfl, rfl⟩
  · exact ⟨rfl, rfl⟩
  · show (timer1CompaVect s.control).portd = _ ∧ (timer1CompaVect s.control).stepperView = _
    unfold timer1CompaVect
    split <;> exact ⟨rfl, rfl⟩
  · show (timer1CaptVect tick s.control).portd = _ ∧ (timer1CaptVect tick s.control).stepperView = _
    unfold timer1CaptVect
    split <;> exact ⟨rfl, rfl⟩
  · exact ⟨rfl, rfl⟩

/-- No interrupt touches the view of the stepper, and each keeps the indices
of the rings in bounds. -/
theorem stable_step (P : StepperView → Prop) :
    Stable stepContract fun s => s.Indexed ∧ P s.control.stepperView := by
  rintro s s' ⟨hs, hp⟩ ⟨x, hx⟩
  rw [(stepper_of_handler hx).2]
  exact ⟨indexed_of_handler hx hs, hp⟩

/-- A program of the control side, in the firmware. -/
theorem step_component {p : Prog Control α} {P : StepperView → Prop}
    {Q : α → StepperView → Prop}
    (h : Triple (coilContract Unopposed) (fun c => P c.stepperView) p
      fun a c => Q a c.stepperView) :
    Triple stepContract (fun s => s.Indexed ∧ P s.control.stepperView)
      (p.zoom Firmware.controlLens) fun a s => s.Indexed ∧ Q a s.control.stepperView := by
  refine h.component (F := Firmware.Indexed) Firmware.controlLens ?_ (fun _ _ hs _ => ⟨trivial, hs⟩)
    fun _ _ hinv => hinv
  rintro s s' hs ⟨x, hx⟩
  exact ⟨stepper_of_handler hx, indexed_of_handler hx hs⟩

/-- The stepper is at `v`, or with fewer coils. -/
def AtStep (v : StepperView) (s : Firmware) : Prop := s.Indexed ∧ v.Lowers s.control.stepperView

/-- The communication task keeps it throughout. -/
def stepCommInvariant (v : StepperView) : CommInvariant Firmware where
  drain := AtStep v
  held _ := AtStep v
  drained _ := True
  serve _ := AtStep v
  published _ _ := AtStep v

theorem step_kept (hv : Unopposed v.coils) (r : Readings) :
    (stepCommInvariant v).Kept (Lens.id Firmware) stepContract r where
  guar_refl _ := trivial
  protocol_rely := fun _ _ ⟨_, hx⟩ => protocol_of_handler hx
  tx_rely := fun _ _ ⟨_, hx⟩ => tx_of_handler hx
  rx_rely := fun _ _ ⟨_, hx⟩ => rx_of_handler hx
  reports_rely := fun _ _ ⟨_, hx⟩ => keepsReports_of_handler hx
  stable_drain := stable_step _
  stable_held _ := stable_step _
  stable_drained := .const True
  stable_serve _ := stable_step _
  stable_published _ _ := stable_step _
  inv_drain _ h := lowered_unopposed _ _ h.2.coils hv
  inv_held _ _ h := lowered_unopposed _ _ h.2.coils hv
  inv_serve _ _ h := lowered_unopposed _ _ h.2.coils hv
  inv_published _ _ _ h := lowered_unopposed _ _ h.2.coils hv
  rxIndexed _ h := h.1.1
  txIndexed _ _ h := h.1.2
  checkTimeout _ h := ⟨trivial, h⟩
  receive _ _ _ h _ hu _ _ := ⟨trivial, ⟨hu, h.1.2⟩, h.2⟩
  process _ _ _ h := ⟨trivial, h⟩
  seen_empty _ _ _ := trivial
  serve_all _ h _ := h
  block := by
    rw [Prog.zoom_id]
    exact (step_component (unstepped_setSafeOutputs lowered_unopposed v hv)).conseq
      (fun s h => h.1) fun _ s h => h
  scan _ _ _ h := ⟨trivial, h⟩
  skip _ _ _ h _ := h
  noRoom _ _ _ _ h _ _ := h
  fill _ _ _ _ h _ := ⟨trivial, h⟩
  publish _ _ _ _ _ h _ _ hlt _ := ⟨trivial, ⟨h.1.1, hlt, h.1.2.2⟩, h.2⟩
  enable _ _ _ _ h _ _ := ⟨trivial, h⟩
  clear _ _ _ h := ⟨trivial, h⟩

/-- **The other tasks leave the stepper where it is**. -/
theorem atStep_body {task : Task} (htask : task ≠ .actuatorService) (r : Readings)
    (hv : Unopposed v.coils) : Triple stepContract (AtStep v) (task.body r) fun _ => AtStep v := by
  rcases task with _ | _ | _ | _
  · exact absurd rfl htask
  · exact step_component (unstepped_controlStep lowered_unopposed r.pind r.nowMs v hv)
  · exact step_component (unstepped_sensorSafety lowered_unopposed r.adc v hv)
  · have h := communication_triple (step_kept hv r)
    rw [Prog.zoom_id] at h
    exact h

/-- **Every execution keeps the account**, and leaves the coils of its
outcome. -/
theorem steppers_accounted (m₀ : Word32) : Accounted steppers stepContract
    (fun fin s => s.Indexed ∧ StepAccount m₀ fin s.control.stepperView)
    fun _ o s => ∀ outcome, o = some outcome → outcome.Leaves s.control.stepperView where
  env x s s' h := ⟨x, h⟩
  stable fin := stable_step _
  task := by
    intro fin d
    have hinv : ∀ {fin : List (Dispatch × Option StepOutcome)} {s : Firmware},
        s.Indexed ∧ StepAccount m₀ fin s.control.stepperView → stepContract.inv s :=
      fun h => h.2.phased.not_opposed
    have hprofiler : ∀ (P : StepperView → Prop) (p : Prog Profiler Unit),
        (∀ v, P v → Unopposed v.coils) →
        Triple stepContract (fun s => s.Indexed ∧ P s.control.stepperView)
          (p.zoom Firmware.profilerLens) fun _ s => s.Indexed ∧ P s.control.stepperView :=
      fun P p hP => Triple.zoom _ p (stable_step P) (fun s h => hP _ h.2)
        fun s q h => ⟨trivial, h⟩
    have hother : d.task ≠ .actuatorService → Triple stepContract
        (fun s => s.Indexed ∧ StepAccount m₀ fin s.control.stepperView)
        ((d.task.body d.readings).bind fun _ => .ret (none : Option StepOutcome))
        fun o s => s.Indexed ∧ StepAccount m₀ (fin ++ [(d, o)]) s.control.stepperView ∧
          ∀ outcome, o = some outcome → outcome.Leaves s.control.stepperView := by
      intro hd s hs
      refine Triple.bind (atStep_body hd d.readings (hinv hs)) (fun _ => Triple.ret fun t ht => ?_)
        s ⟨hs.1, StepperView.lowers_refl _⟩
      exact ⟨ht.1, (hs.2.lowers ht.2).other hd, nofun⟩
    have hbody : Triple stepContract
        (fun s => s.Indexed ∧ StepAccount m₀ fin s.control.stepperView)
        (d.task.stepper d.readings)
        fun o s => s.Indexed ∧ StepAccount m₀ (fin ++ [(d, o)]) s.control.stepperView ∧
          ∀ outcome, o = some outcome → outcome.Leaves s.control.stepperView := by
      rcases hd : d with ⟨_ | _ | _ | _, r⟩
      · -- one execution of the automaton, from whatever the task finds
        intro s hs
        have hphased := hs.2.phased
        have hstep : ∀ j ≤ 4, Unopposed (s.control.stepperView.after j).coils := by
          intro j hj
          have h := Coils.not_opposed_driveAll hphased.index hphased.coils hj
          rwa [← Coils.ofState_stepperState hphased.index] at h
        have hrun := step_component (P := (· = s.control.stepperView))
          (Q := fun o w => (o, w) = s.control.stepperView.service r.nowMs)
          (actuatorOutcome_triple lowered_unopposed r.nowMs hphased.not_opposed hstep)
        refine Triple.bind hrun (fun o => Triple.ret fun t ht => ?_) s ⟨hs.1, rfl⟩
        obtain ⟨haccount, hleaves⟩ := hs.2.service (d := ⟨.actuatorService, r⟩) rfl
        rw [← ht.2] at haccount hleaves
        refine ⟨ht.1, haccount, ?_⟩
        rintro outcome ⟨rfl⟩
        exact hleaves
      · rw [hd] at hother
        exact hother Task.noConfusion
      · rw [hd] at hother
        exact hother Task.noConfusion
      · rw [hd] at hother
        exact hother Task.noConfusion
    show Triple stepContract _ d.stepper _
    simp only [Dispatch.stepper, Prog.bind_eq]
    refine Triple.bind ((hprofiler (StepAccount m₀ fin) _ fun v h =>
      h.phased.not_opposed).conseq (fun s h => h.1) fun _ _ h => h) fun _ =>
        Triple.bind hbody fun o => ?_
    refine Triple.bind (hprofiler (fun v => StepAccount m₀ (fin ++ [(d, o)]) v ∧
      ∀ outcome, o = some outcome → outcome.Leaves v) _ fun v h => h.1.phased.not_opposed)
      fun _ => Triple.ret fun _ h => ⟨⟨h.1, h.2.1⟩, h.2.2⟩

/-! ### From reset -/

/-- Whatever the coils were, `stepper_init` switches them off. -/
theorem stepperInit_triple (v : StepperView) :
    Triple (coilContract fun _ => True) (fun c => v.Lowers c.stepperView) stepperInit
      fun _ c => StepperView.Lowers ⟨.off, 0, v.lastStepMs, v.state⟩ c.stepperView := by
  intro c hc n
  have hindex : Turns (fun _ => True) (Prog.write fun c => { c with stepIndex := 0 })
      c.stepperView { c.stepperView with index := 0 } :=
    turns_write trivial fun c' hc' => by rw [← hc']; rfl
  have hstop : Turns (fun _ => True) stepperStop { c.stepperView with index := 0 }
      { c.stepperView with index := 0, coils := .off } :=
    turns_stop (fun _ _ _ _ => trivial) trivial
  refine ((hindex.bind hstop).conseq (fun _ h => h) ?_) c rfl n
  rintro - c' h
  rw [h]
  exact ⟨Coils.within_refl _, rfl, hc.lastStepMs⟩

/-- After `main` has initialised the drivers no coil is energised, and the
sequence is at its start. -/
theorem stepper_boot (b : Boot) (s : Firmware) :
    (s.boot b).control.stepperView.coils = .off ∧ (s.boot b).control.stepIndex = 0 ∧
      (s.boot b).control.lastStepMs = s.control.lastStepMs := by
  let v := s.control.stepperView
  let u : StepperView := ⟨.off, 0, v.lastStepMs, v.state⟩
  have hok : Lowered fun _ => True := fun _ _ _ _ => trivial
  have hbutton : Unstepped (fun _ => True) (gpioWriteHigh Control.portdLens buttonBit) := fun v _ =>
    portd_triple (isSet_or_bit_eq (by decide)) (fun _ _ => trivial) fun _ h => h
  have hhcsr04 : Unstepped (fun _ => True) hcsr04Init :=
    (unstepped_low hok (by decide)).bind fun _ => (unstepped_portb hok _).2.bind fun _ =>
      unstepped_write hok fun _ => rfl
  have hservo : Unstepped (fun _ => True) (servoInit b.tcnt1) :=
    (unstepped_portb hok _).2.bind fun _ => unstepped_write hok fun _ => rfl
  have hrest : Unstepped (fun _ => True) (dcMotorStop.bind fun _ => relayOff.bind fun _ =>
      hcsr04Init.bind fun _ => (servoInit b.tcnt1).bind fun _ => setSafeOutputs.bind fun _ =>
      (Prog.write fun c =>
        { c with systemState := .boot, lastFault := .none, faultCount := 0 }).bind fun _ =>
        systemFsmEvent .initDone) :=
    (unstepped_dcMotorStop hok).bind fun _ => (unstepped_portb hok _).2.bind fun _ =>
      hhcsr04.bind fun _ => hservo.bind fun _ => (unstepped_setSafeOutputs hok).bind fun _ =>
        Unstepped.bind (unstepped_write hok fun _ => rfl) fun _ =>
          unstepped_write hok fun _ => rfl
  have hcontrol : Triple (coilContract fun _ => True) (fun c => v.Lowers c.stepperView)
      (controlInit b.tcnt1) fun _ c => u.Lowers c.stepperView :=
    Triple.bind ((unstepped_portb hok _).2 v trivial) fun _ =>
      Triple.bind (hbutton v trivial) fun _ =>
        Triple.bind (stepperInit_triple v) fun _ => hrest u trivial
  -- before `sei()` nothing interrupts
  let C : Contract Firmware := ⟨Eq, fun _ _ => True, fun _ => True⟩
  have hmain : Triple C (fun t => True ∧ v.Lowers t.control.stepperView) (mainInit b)
      fun _ t => u.Lowers t.control.stepperView := by
    simp only [mainInit, Prog.bind_eq]
    refine Triple.bind (hcontrol.component (F := fun _ => True) Firmware.controlLens ?_
      (fun _ _ _ _ => ⟨trivial, trivial⟩) fun _ _ _ => trivial) fun _ => ?_
    · rintro t t' - rfl
      exact ⟨⟨rfl, rfl⟩, trivial⟩
    · refine Triple.write ?_ (fun _ _ => trivial) fun t h => ⟨trivial, h.2⟩
      rintro t t' h rfl
      exact h
  have hboot := hmain.uninterrupted ⟨trivial, StepperView.lowers_refl v⟩
    (uninterrupted_mainInit b s)
  obtain ⟨hcoils, hindex, hlast⟩ := hboot
  exact ⟨hcoils.eq_off, hindex, hlast⟩

end

section

variable {b : Boot} {s₀ : Firmware} {c c' : StepperConfig} {es : List FirmwareEvent} {ts : List ℕ}

/-- The firmware after `main` has initialised. -/
def steppersStart (b : Boot) (s : Firmware) : StepperConfig := ⟨s.boot b, none, []⟩

/-- **The account of a run from reset.** -/
theorem stepAccount_run (h : steppers.run (steppersStart b s₀) es = some c) :
    AccountedConfig stepContract
      (fun fin s => s.Indexed ∧ StepAccount s₀.control.lastStepMs fin s.control.stepperView)
      (fun _ o s => ∀ outcome, o = some outcome → outcome.Leaves s.control.stepperView) c := by
  refine (steppers_accounted s₀.control.lastStepMs).staged.run ?_ h
  obtain ⟨hcoils, hindex, hlast⟩ := stepper_boot b s₀
  refine ⟨(safe_start b s₀).1, ?_, ?_, hlast, ?_⟩
  · show (s₀.boot b).control.stepIndex.toNat = _
    rw [hindex]
    rfl
  · rw [show (steppersStart b s₀).state.control.stepperView.coils = .off from hcoils]
    exact Coils.off_within _
  · intro before d o after hfin
    simp [steppersStart] at hfin

/-- **No two opposite coils are ever energised**: from reset, whatever the
tasks, the interrupts and the bytes received do, after every single access
the coils that `PORTD` drives hold no opposite pair. -/
theorem coils_never_opposed {c : FirmwareConfig}
    (h : firmware.run (firmwareStart b s₀) es = some c) :
    ¬ (Coils.ofPins (isSet c.state.control.portd)).Opposed := by
  have hrun := run_steppers (steppersStart b s₀) es
  rw [show mapConfig (fun _ _ => ()) (steppersStart b s₀) = firmwareStart b s₀ from rfl, h] at hrun
  obtain ⟨c', hc', rfl⟩ := Option.map_eq_some_iff.mp hrun.symm
  exact AccountedConfig.inv (stepAccount_run hc') fun fin s hs => hs.2.phased.not_opposed

/-! ### Time -/

/-- The times of the steps in a log, where `ts` are those of its
executions. -/
def stepTimes (fin : List (Dispatch × Option StepOutcome)) (ts : List ℕ) : List ℕ :=
  (fin.zip ts).filterMap fun r => if r.1.2 = some .stepped then some r.2 else none

/-- **Steps are spaced.** On a clock that the readings are taken from,
truncated, and that does not go back, a step comes 5 ms after the last mark
before it, and every step is one. -/
theorem stepTimes_spaced {fin : List (Dispatch × Option StepOutcome)}
    (hclock : fin.map (fun r => r.1.readings.nowMs) = ts.map (BitVec.ofNat 32))
    (hsorted : ts.Pairwise (· ≤ ·)) (h : ServicedOnTime 0 fin) :
    ∃ mark : ℕ, lastMark 0 fin = BitVec.ofNat 32 mark ∧ (∀ t ∈ stepTimes fin ts, t ≤ mark) ∧
      (∀ t, (∀ t' ∈ ts, t' ≤ t) → mark ≤ t) ∧
      (stepTimes fin ts).Pairwise fun t t' => t + 5 ≤ t' := by
  induction fin using List.reverseRecOn generalizing ts with
  | nil => exact ⟨0, rfl, by simp [stepTimes], fun _ _ => Nat.zero_le _, by simp [stepTimes]⟩
  | append_singleton fin r ih =>
    obtain ⟨d, o⟩ := r
    rcases List.eq_nil_or_concat ts with rfl | ⟨ts, t, rfl⟩
    · simp at hclock
    rw [List.concat_eq_append] at hclock hsorted ⊢
    rw [List.map_append, List.map_append] at hclock
    obtain ⟨hclock, hnow⟩ := List.append_inj' hclock rfl
    have hnow : d.readings.nowMs = BitVec.ofNat 32 t := List.singleton_inj.mp hnow
    rw [List.pairwise_append] at hsorted
    obtain ⟨hsorted, -, hlast⟩ := hsorted
    have hbefore : ∀ t' ∈ ts, t' ≤ t := fun t' ht' => hlast t' ht' t (List.mem_singleton_self t)
    obtain ⟨mark, hmark, hle, hbound, hspaced⟩ := ih hclock hsorted h.before
    have hlength : fin.length = ts.length := by simpa using congrArg List.length hclock
    have htimes : stepTimes (fin ++ [(d, o)]) (ts ++ [t]) =
        stepTimes fin ts ++ if o = some .stepped then [t] else [] := by
      rw [stepTimes, List.zip_append hlength, List.filterMap_append]
      by_cases ho : o = some .stepped <;> simp [stepTimes, ho]
    have hmt : mark ≤ t := hbound t hbefore
    have hserviced := (h fin d o [] (by simp)).1
    rw [hmark, hnow] at hserviced
    rw [lastMark_append, htimes]
    by_cases hstep : o = some .stepped
    · -- the mark is five milliseconds back, or more
      have hdue : mark + 5 ≤ t := by
        have hge : 5 ≤ (BitVec.ofNat 32 t - BitVec.ofNat 32 mark).toNat := hserviced hstep
        rw [toNat_ofNat_sub hmt] at hge
        have hmod := Nat.mod_le (t - mark) (2 ^ 32)
        omega
      rw [if_pos (.inl hstep), if_pos hstep]
      refine ⟨t, hnow, ?_, fun t' ht' => ht' t (by simp), ?_⟩
      · intro t' ht'
        rcases List.mem_append.mp ht' with ht' | ht'
        · exact (hle t' ht').trans hmt
        · exact (List.mem_singleton.mp ht').le
      · rw [List.pairwise_append]
        refine ⟨hspaced, List.pairwise_singleton _ _, fun t₁ h₁ t₂ h₂ => ?_⟩
        have := hle t₁ h₁
        rw [List.mem_singleton.mp h₂]
        omega
    · rw [if_neg hstep, List.append_nil]
      by_cases hstop : o = some .stopped
      · rw [if_pos (.inr hstop)]
        exact ⟨t, hnow, fun t' ht' => (hle t' ht').trans hmt, fun t' ht' => ht' t (by simp),
          hspaced⟩
      · rw [if_neg (by simp [hstep, hstop])]
        exact ⟨mark, hmark, hle, fun t' ht' => hbound t' fun x hx => ht' x (by simp [hx]), hspaced⟩

/-- The executions that a run has finished took their readings first. -/
theorem finished_clock {c₀ : StepperConfig} (h : steppers.run c₀ es = some c)
    (hidle : c₀.running = none) (hempty : c₀.finished = [])
    (hclock : (dispatched es).map (fun d => d.readings.nowMs) = ts.map (BitVec.ofNat 32)) :
    c.finished.map (fun r => r.1.readings.nowMs) =
      (ts.take c.finished.length).map (BitVec.ofNat 32) := by
  have hbegun := begun_run h
  have hstart : Config.begun c₀ = [] := by simp [Config.begun, hidle, hempty]
  rw [hstart, List.nil_append] at hbegun
  rw [← hbegun, Config.begun, List.map_append, List.map_map] at hclock
  have htake := congrArg (List.take c.finished.length) hclock
  rw [List.take_append_of_le_length (by simp), List.take_of_length_le (by simp),
    ← List.map_take] at htake
  exact htake

/-- **The stepper steps in sequence, and no faster than every 5 ms.** In any
run from reset, where the readings come from a clock that does not go back:
the `n`-th step leaves exactly the coils of the `n`-th half step energised,
whatever came between it and the one before; a stop leaves none; the index
counts the steps; and any two steps are 5 ms apart or more. -/
theorem steps_spaced (hstatic : s₀.control.lastStepMs = 0) (hsorted : ts.Pairwise (· ≤ ·))
    (hclock : (dispatched es).map (fun d => d.readings.nowMs) = ts.map (BitVec.ofNat 32))
    (h : steppers.run (steppersStart b s₀) es = some c) :
    (stepTimes c.finished ts).Pairwise (fun t t' => t + 5 ≤ t') ∧
    (∀ e c₁ d, steppers.step c e = some c₁ →
      c₁.finished = c.finished ++ [(d, some .stepped)] →
      Coils.ofPins (isSet c₁.state.control.portd) = Coils.halfStep (steps c.finished % 8)) ∧
    (∀ e c₁ d, steppers.step c e = some c₁ →
      c₁.finished = c.finished ++ [(d, some .stopped)] →
      Coils.ofPins (isSet c₁.state.control.portd) = .off) ∧
    (c.running = none → c.state.control.stepIndex.toNat = steps c.finished % 8) ∧
    ServicedOnTime 0 c.finished := by
  have hc := stepAccount_run h
  have hleaves : ∀ e c₁ d o, steppers.step c e = some c₁ →
      c₁.finished = c.finished ++ [(d, some o)] →
      c₁.state.control.stepIndex.toNat = steps (c.finished ++ [(d, some o)]) % 8 ∧
        o.Leaves c₁.state.control.stepperView := by
    intro e c₁ d o hstep hfin
    have hpost := ((steppers_accounted _).staged.completed hc hstep hfin).2 1
    exact ⟨hpost.post.1.2.index, hpost.post.2 o rfl⟩
  obtain ⟨s, -, haccount⟩ := hc.log
  have hserviced := haccount.serviced
  rw [hstatic] at hserviced
  refine ⟨?_, ?_, ?_, fun hidle => (hc.idle hidle).2.index, hserviced⟩
  · have hfinished := finished_clock h rfl rfl hclock
    obtain ⟨-, -, -, -, hspaced⟩ := stepTimes_spaced hfinished
      (hsorted.sublist (List.take_sublist _ _)) hserviced
    have hlength : c.finished.length ≤ ts.length := by
      have := congrArg List.length hfinished
      simp only [List.length_map, List.length_take] at this
      omega
    have htimes : stepTimes c.finished ts = stepTimes c.finished (ts.take c.finished.length) := by
      rw [stepTimes, List.zip_eq_zip_take_min, List.take_of_length_le (by omega),
        Nat.min_eq_left hlength]
      rfl
    rw [htimes]
    exact hspaced
  · intro e c₁ d hstep hfin
    obtain ⟨hindex, hcoils⟩ := hleaves e c₁ d .stepped hstep hfin
    have hbefore : Coils.stepBefore c₁.state.control.stepIndex.toNat = steps c.finished % 8 := by
      rw [hindex, steps_append, if_pos rfl, Coils.stepBefore]
      omega
    rw [← hbefore]
    exact hcoils.1 rfl
  · intro e c₁ d hstep hfin
    exact (hleaves e c₁ d .stopped hstep hfin).2.2 rfl

end

/-- An execution of `actuator_service_task`, and its accesses. -/
def actuatorRun (nowMs : Word32) (n : ℕ) : List FirmwareEvent :=
  .dispatch ⟨.actuatorService, { Readings.zeroed with nowMs := nowMs }⟩ ::
    List.replicate n .foreground

/-- The button is pressed, and the stepper serviced at 5, 7 and 12 ms. -/
def stepperRun : List FirmwareEvent :=
  pressRun ++ .foreground :: actuatorRun 5 16 ++ actuatorRun 7 5 ++ actuatorRun 12 16

/-- Between two coils of its second half step the stepper is not opposed. -/
theorem coils_never_opposed_turning :
    ∃ c, firmware.run (firmwareStart ⟨0, 0, 0, 0⟩ .zeroed) (stepperRun.take 65) = some c ∧
      c.running.isSome ∧ ¬ (Coils.ofPins (isSet c.state.control.portd)).Opposed := by
  have hrun : (firmware.run (firmwareStart ⟨0, 0, 0, 0⟩ .zeroed) (stepperRun.take 65)).map
      (fun c => c.running.isSome) = some true := by
    decide +kernel
  obtain ⟨c, hc, hrunning⟩ := Option.map_eq_some_iff.mp hrun
  exact ⟨c, hc, hrunning, coils_never_opposed hc⟩

/-- It steps at 5 and 12 ms, and waits at 7. -/
theorem steps_spaced_twice :
    ∃ c, steppers.run (steppersStart ⟨0, 0, 0, 0⟩ .zeroed) stepperRun = some c ∧
      stepTimes c.finished [0, 0, 5, 7, 12] = [5, 12] ∧
      (stepTimes c.finished [0, 0, 5, 7, 12]).Pairwise (fun t t' => t + 5 ≤ t') ∧
      c.state.control.stepIndex.toNat = steps c.finished % 8 := by
  have hrun : (steppers.run (steppersStart ⟨0, 0, 0, 0⟩ .zeroed) stepperRun).map (fun c =>
      (c.running.isNone, stepTimes c.finished [0, 0, 5, 7, 12])) = some (true, [5, 12]) := by
    decide +kernel
  obtain ⟨c, hc, hend⟩ := Option.map_eq_some_iff.mp hrun
  simp only [Prod.mk.injEq] at hend
  obtain ⟨hidle, htimes⟩ := hend
  have hsorted : [0, 0, 5, 7, 12].Pairwise fun t t' : ℕ => t ≤ t' := by decide
  obtain ⟨hspaced, -, -, hindex, -⟩ := steps_spaced rfl hsorted (by decide +kernel) hc
  exact ⟨c, hc, htimes, hspaced, hindex (Option.isNone_iff_eq_none.mp hidle)⟩

end SentryCell
