import SentryCell.Firmware.ControlFrame
import SentryCell.Firmware.Execution
import SentryCell.Firmware.SafeState
import Mathlib.Algebra.Ring.Parity
import Mathlib.Data.List.Induction
/-!
# The start/stop button over whole runs

`control_task` arms the button where it samples it released, and delivers
`START_STOP` at the first pressed sample after that. `ButtonView.press` is
that automaton, `controlOutcome` the task with what each execution came to,
and `one_transition_per_press` the account of every run from reset, among
the other tasks and the interrupts.
-/

namespace SentryCell

open Foreground Word Machine

/-! ## Outcomes -/

/-- **What an execution of `control_task` came to**: the state it read, and
whether it delivered `START_STOP`. -/
structure ButtonOutcome where
  state : SystemState
  delivered : Bool
  deriving DecidableEq, Repr

/-- `controlButton`, and whether it delivered `START_STOP`. -/
def controlButtonOutcome (buttonPressed : Byte) (state : SystemState) :
    Prog Control (SystemState × Bool) :=
  if state = .safeState then do
    Prog.write fun c => { c with buttonArmed := 0 }
    pure (state, false)
  else if buttonPressed = 0 then do
    Prog.write fun c => { c with buttonArmed := 1 }
    pure (state, false)
  else do
    let buttonArmed ← Prog.read Control.buttonArmed
    if buttonArmed ≠ 0 then do
      Prog.write fun c => { c with buttonArmed := 0 }
      if state = .idle ∨ state = .active then do
        systemFsmEvent .startStop
        let state ← systemFsmGetState
        pure (state, true)
      else pure (state, false)
    else pure (state, false)

/-- `controlStep`, and what it came to. -/
def controlOutcome (pind : Byte) (nowMs : Word32) : Prog Control ButtonOutcome := do
  let state ← systemFsmGetState
  let pressed ← controlButtonOutcome (buttonIsPressed pind) state
  controlOutputs nowMs pressed.1
  pure ⟨state, pressed.2⟩

/-- Asking what became of the sample changes nothing in what the code does. -/
theorem controlButton_eq (buttonPressed : Byte) (state : SystemState) :
    controlButton buttonPressed state =
      (controlButtonOutcome buttonPressed state).bind fun o => .ret o.1 := by
  unfold controlButton controlButtonOutcome
  split
  · rfl
  split
  · rfl
  simp only [Prog.bind_eq, Prog.bind_assoc]
  refine congrArg _ (funext fun buttonArmed => ?_)
  split
  · simp only [Prog.bind_assoc]
    refine congrArg _ (funext fun _ => ?_)
    split
    · simp only [Prog.bind_assoc, Prog.pure_eq, Prog.bind, Prog.bind_ret]
    · rfl
  · rfl

/-- The outcome is read off, and changes nothing. -/
theorem controlStep_eq (pind : Byte) (nowMs : Word32) :
    controlStep pind nowMs = (controlOutcome pind nowMs).bind fun _ => .ret () := by
  simp only [controlStep, controlOutcome, controlButton_eq, Prog.bind_eq, Prog.bind_assoc,
    Prog.pure_eq, Prog.bind, Prog.bind_ret_unit]

/-- The body of a task, and the outcome of the one that has any. -/
def Task.button (r : Readings) : Task → Prog Firmware (Option ButtonOutcome)
  | .actuatorService => (Task.actuatorService.body r).bind fun _ => .ret none
  | .control => ((controlOutcome r.pind r.nowMs).zoom Firmware.controlLens).bind fun o =>
      .ret (some o)
  | .sensorSafety => (Task.sensorSafety.body r).bind fun _ => .ret none
  | .communication => (Task.communication.body r).bind fun _ => .ret none

/-- One execution of a task, and its outcome. -/
def Dispatch.button (d : Dispatch) : Prog Firmware (Option ButtonOutcome) := do
  (recordStart d.task.id d.task.periodMs d.readings).zoom Firmware.profilerLens
  let outcome ← d.task.button d.readings
  (recordEnd d.task.id d.task.periodMs d.readings).zoom Firmware.profilerLens
  pure outcome

/-- **The firmware, with the button's outcomes in its log.** -/
def buttons : Machine Firmware Dispatch (Option ButtonOutcome) Interrupt where
  task := Dispatch.button
  ready _ _ := true
  env x s := x.handler s

abbrev ButtonConfig := Config Firmware Dispatch (Option ButtonOutcome)

/-- An execution that tells of the button is the execution, once that is
forgotten. -/
theorem Dispatch.program_button (d : Dispatch) :
    d.program = d.button.bind fun _ => .ret () := by
  have hbody : d.task.body d.readings = (d.task.button d.readings).bind fun _ => .ret () := by
    rcases d with ⟨_ | _ | _ | _, r⟩
    · simp only [Task.button, Prog.bind_assoc, Prog.bind, Prog.bind_ret_unit]
    · simp only [Task.button, Task.body, controlStep_eq, Prog.zoom_bind, Prog.bind_assoc,
        Prog.bind, Prog.zoom_ret]
    · simp only [Task.button, Prog.bind_assoc, Prog.bind, Prog.bind_ret_unit]
    · simp only [Task.button, Prog.bind_assoc, Prog.bind, Prog.bind_ret_unit]
  simp only [Dispatch.program, Dispatch.button, hbody, Prog.bind_eq, Prog.bind_assoc,
    Prog.bind, Prog.pure_eq, Prog.bind_ret_unit]

/-- **The runs of the firmware** are those of `buttons`, with the outcomes
forgotten. -/
theorem run_buttons (c : ButtonConfig) (es : List FirmwareEvent) :
    firmware.run (mapConfig (fun _ _ => ()) c) es =
      (buttons.run c es).map (mapConfig fun _ _ => ()) := by
  have htask : Dispatch.program = fun d => d.button.bind fun _ => .ret () :=
    funext Dispatch.program_button
  have hfirmware : firmware = buttons.mapResults fun _ _ => () := by
    show (⟨Dispatch.program, _, _⟩ : Machine Firmware Dispatch Unit Interrupt) = _
    rw [htask]
    rfl
  rw [hfirmware]
  exact run_mapResults

/-! ## The automaton -/

/-- What the button's task keeps from one execution to the next. -/
structure ButtonView where
  state : SystemState
  armed : Bool
  deriving DecidableEq, Repr

def Control.buttonView (c : Control) : ButtonView := ⟨c.systemState, c.buttonArmed ≠ 0⟩

/-- **One sample of the button.** -/
def ButtonView.press (v : ButtonView) (pressed : Bool) : ButtonOutcome × ButtonView :=
  if v.state = .safeState then (⟨v.state, false⟩, ⟨v.state, false⟩)
  else if pressed = false then (⟨v.state, false⟩, ⟨v.state, true⟩)
  else if v.armed = false then (⟨v.state, false⟩, v)
  else if v.state = .idle ∨ v.state = .active then
    (⟨v.state, true⟩, ⟨systemFsmHandleEvent .startStop v.state, false⟩)
  else (⟨v.state, false⟩, ⟨v.state, false⟩)

/-- Whether `PIND` shows the button pressed. -/
def buttonSample (pind : Byte) : Bool := buttonIsPressed pind ≠ 0

/-- The control side among its interrupts, for the button. -/
def buttonContract : Contract Control where
  rely c c' := c'.buttonView = c.buttonView
  guar _ _ := True
  inv _ := True

variable {v w : ButtonView} {α : Type} {o : ButtonOutcome}

/-- No handler touches the latch or the state machine. -/
theorem stable_button (P : ButtonView → Prop) :
    Stable buttonContract fun c => P c.buttonView := by
  intro c c' h hr
  rw [show c'.buttonView = c.buttonView from hr]
  exact h

/-- A write that shows as a change from `v` to `w`. -/
theorem button_write_bind {f : Control → Control} {q : Prog Control α}
    {Q : α → Control → Prop} (hf : ∀ c, c.buttonView = v → (f c).buttonView = w)
    (hq : Triple buttonContract (fun c => c.buttonView = w) q Q) :
    Triple buttonContract (fun c => c.buttonView = v) ((Prog.write f).bind fun _ => q) Q :=
  Triple.write_bind (B := fun c => c.buttonView = w) (stable_button (· = v))
    (fun _ _ => trivial) (fun c hc => ⟨trivial, hf c hc⟩) hq

/-- A read of what the view shows gives what the view says, for what
follows. -/
theorem button_read_bind {β : Type} {f : Control → β} {g : β → Prog Control α} {b : β → Prop}
    {Q : α → Control → Prop} (hf : ∀ c, c.buttonView = v → b (f c))
    (hg : ∀ x, b x → Triple buttonContract (fun c => c.buttonView = v) (g x) Q) :
    Triple buttonContract (fun c => c.buttonView = v) ((Prog.read f).bind g) Q := by
  refine Triple.read_bind (B := fun x c => b x ∧ c.buttonView = v) (stable_button (· = v))
    (fun _ _ => trivial) (fun _ => trivial) (fun c hc => ⟨hf c hc, hc⟩) fun x => ?_
  rintro c ⟨hx, hc⟩ n
  exact hg x hx c hc n

/-- What a program returns without an access. -/
theorem button_ret {a : α} {Q : α → ButtonView → Prop} (h : Q a v) :
    Triple buttonContract (fun c => c.buttonView = v) (.ret a) fun a c => Q a c.buttonView :=
  Triple.ret fun c hc => by rw [hc]; exact h

/-- The button shows only these two variables. -/
theorem drivable_button : Drivable fun c c' => c'.buttonView = c.buttonView where
  refl _ := rfl
  portb _ _ := rfl
  portd _ _ := rfl
  pulse _ _ := rfl
  stepIndex _ _ := rfl
  lastStep _ _ := rfl

/-- **The arming is the automaton's**: what the code does with one sample is
what `press` does to the view. -/
theorem controlButtonOutcome_triple (buttonPressed : Byte) (v : ButtonView) :
    Triple buttonContract (fun c => c.buttonView = v)
      (controlButtonOutcome buttonPressed v.state)
      fun o c => (⟨v.state, o.2⟩, c.buttonView) = v.press (decide (buttonPressed ≠ 0)) := by
  have hret : ∀ (w : ButtonView) (st : SystemState) (delivered : Bool),
      (⟨v.state, delivered⟩, w) = v.press (decide (buttonPressed ≠ 0)) →
      Triple buttonContract (fun c => c.buttonView = w) (.ret (st, delivered)) fun o c =>
        (⟨v.state, o.2⟩, c.buttonView) = v.press (decide (buttonPressed ≠ 0)) :=
    fun w st delivered h => button_ret
      (Q := fun (o : SystemState × Bool) w =>
        (⟨v.state, o.2⟩, w) = v.press (decide (buttonPressed ≠ 0))) h
  unfold controlButtonOutcome
  split
  · rename_i hsafe
    refine button_write_bind (w := ⟨v.state, false⟩) ?_ (hret _ _ _ ?_)
    · rintro c rfl
      rfl
    · simp [ButtonView.press, hsafe]
  split
  · rename_i hsafe hreleased
    refine button_write_bind (w := ⟨v.state, true⟩) ?_ (hret _ _ _ ?_)
    · rintro c rfl
      rfl
    · simp [ButtonView.press, hsafe, hreleased]
  rename_i hsafe hpressed
  have hsample : decide (buttonPressed ≠ 0) = true := decide_eq_true hpressed
  refine button_read_bind (b := fun armed => v.armed = decide (armed ≠ 0)) ?_
    fun buttonArmed harmed => ?_
  · rintro c rfl
    rfl
  split
  · rename_i hne
    refine button_write_bind (w := ⟨v.state, false⟩) ?_ ?_
    · rintro c rfl
      rfl
    have hpress : v.press (decide (buttonPressed ≠ 0)) =
        if v.state = .idle ∨ v.state = .active then
          (⟨v.state, true⟩, ⟨systemFsmHandleEvent .startStop v.state, false⟩)
        else (⟨v.state, false⟩, ⟨v.state, false⟩) := by
      rw [decide_eq_true hne] at harmed
      rw [hsample]
      simp [ButtonView.press, hsafe, harmed]
    split
    · rename_i hstate
      rw [if_pos hstate] at hpress
      refine button_write_bind
        (w := ⟨systemFsmHandleEvent .startStop v.state, false⟩) ?_ ?_
      · intro c hc
        have hst : c.systemState = v.state := congrArg ButtonView.state hc
        have har : decide (c.buttonArmed ≠ 0) = false := congrArg ButtonView.armed hc
        show (⟨systemFsmHandleEvent .startStop c.systemState, _⟩ : ButtonView) = _
        rw [hst, har]
      · exact button_read_bind (b := fun _ => True) (fun _ _ => trivial)
          fun st _ => hret _ _ _ hpress.symm
    · rename_i hstate
      rw [if_neg hstate] at hpress
      exact hret _ _ _ hpress.symm
  · rename_i hne
    rw [decide_eq_false hne] at harmed
    refine hret _ _ _ ?_
    rw [hsample]
    simp [ButtonView.press, hsafe, harmed]

/-- **An execution of the task is a sample of the automaton.** -/
theorem controlOutcome_triple (pind : Byte) (nowMs : Word32) (v : ButtonView) :
    Triple buttonContract (fun c => c.buttonView = v) (controlOutcome pind nowMs)
      fun o c => (o, c.buttonView) = v.press (buttonSample pind) := by
  refine button_read_bind (b := (· = v.state)) ?_ fun state hstate => ?_
  · rintro c rfl
    rfl
  subst hstate
  refine Triple.bind (controlButtonOutcome_triple (buttonIsPressed pind) v) fun o => ?_
  refine Triple.bind ((drivable_button.controlOutputs nowMs o.1).triple (fun _ => rfl)
    (stable_button fun w => (⟨v.state, o.2⟩, w) = v.press _) (fun _ _ => trivial) ?_)
    fun _ => Triple.ret fun c hc => hc
  intro c c' hc hR
  refine ⟨trivial, ?_⟩
  rw [hR]
  exact hc

/-! ## The account -/

/-- The samples of the button in a log, oldest first; whether each shows it
pressed. -/
def samples (fin : List (Dispatch × Option ButtonOutcome)) : List Bool :=
  fin.filterMap fun r =>
    if r.1.task = .control then some (buttonSample r.1.readings.pind) else none

/-- The changes from released to pressed. -/
def presses : List Bool → ℕ
  | [] => 0
  | [_] => 0
  | a :: b :: l => (if a = false ∧ b = true then 1 else 0) + presses (b :: l)

/-- How often a log has `START_STOP` delivered. -/
def deliveries (fin : List (Dispatch × Option ButtonOutcome)) : ℕ :=
  fin.countP fun r => (r.2.map ButtonOutcome.delivered).getD false

/-- **What an execution delivers** after those of a log: one of
`control_task` by its own sample and the one before it, outside
`SAFE_STATE`, and another task's nothing. -/
def Delivers (before : List (Dispatch × Option ButtonOutcome)) (d : Dispatch)
    (o : Option ButtonOutcome) : Prop :=
  if d.task = .control then
    ∃ outcome, o = some outcome ∧
      (outcome.delivered = true ↔ buttonSample d.readings.pind = true ∧
        (samples before).getLast? = some false ∧ outcome.state ≠ .safeState)
  else o = none

/-- So delivers every execution of a log. -/
def DeliversOnPress (fin : List (Dispatch × Option ButtonOutcome)) : Prop :=
  ∀ before d o after, fin = before ++ (d, o) :: after → Delivers before d o

variable {fin : List (Dispatch × Option ButtonOutcome)} {d : Dispatch}

/-- One more sample is one more press where it is down and the one before
was up. -/
theorem presses_append (l : List Bool) (b : Bool) :
    presses (l ++ [b]) = presses l + if l.getLast? = some false ∧ b = true then 1 else 0 := by
  induction l with
  | nil => simp [presses]
  | cons a l ih =>
    rcases l with _ | ⟨a', l⟩
    · simp [presses]
    · have ih' : presses (a' :: (l ++ [b])) = _ := ih
      have hlast : (a :: a' :: l).getLast? = (a' :: l).getLast? := List.getLast?_cons_cons
      simp only [List.cons_append, presses, ih', hlast]
      omega

/-- Only the control task samples the button. -/
theorem samples_append (o : Option ButtonOutcome) : samples (fin ++ [(d, o)]) =
    samples fin ++ if d.task = .control then [buttonSample d.readings.pind] else [] := by
  by_cases h : d.task = .control
  · simp [samples, h]
  · simp [samples, h]

theorem samples_concat (fin fin' : List (Dispatch × Option ButtonOutcome)) :
    samples (fin ++ fin') = samples fin ++ samples fin' := List.filterMap_append

/-- Delivery on each press goes on if the new execution delivers. -/
theorem DeliversOnPress.append {o : Option ButtonOutcome} (h : DeliversOnPress fin)
    (hd : Delivers fin d o) : DeliversOnPress (fin ++ [(d, o)]) := by
  intro before d' o' after hfin
  rcases List.eq_nil_or_concat after with rfl | ⟨after, last, rfl⟩
  · obtain ⟨rfl, hlast⟩ := List.append_inj' hfin rfl
    obtain ⟨rfl, rfl⟩ := Prod.mk.inj (List.singleton_inj.mp hlast)
    exact hd
  · have hsplit : fin ++ [(d, o)] = (before ++ (d', o') :: after) ++ [last] := by
      rw [hfin, List.concat_eq_append, List.append_assoc, List.cons_append]
    obtain ⟨rfl, -⟩ := List.append_inj' hsplit rfl
    exact h before d' o' after rfl

/-- The executions of a run's beginning. -/
theorem DeliversOnPress.before {fin' : List (Dispatch × Option ButtonOutcome)}
    (h : DeliversOnPress (fin ++ fin')) : DeliversOnPress fin := by
  intro before d o after hfin
  refine h before d o (after ++ fin') ?_
  rw [hfin, List.append_assoc, List.cons_append]

/-- An execution of `control_task` delivers as it should if it does so exactly
on a press outside `SAFE_STATE`. -/
theorem delivers_control {outcome : ButtonOutcome} (htask : d.task = .control)
    (h : outcome.delivered = true ↔ buttonSample d.readings.pind = true ∧
      (samples fin).getLast? = some false ∧ outcome.state ≠ .safeState) :
    Delivers fin d (some outcome) := by
  rw [Delivers, if_pos htask]
  exact ⟨outcome, rfl, h⟩

/-- **What ties the log to the button's variables** where no task runs. -/
structure ButtonAccount (fin : List (Dispatch × Option ButtonOutcome)) (v : ButtonView) :
    Prop where
  booted : v.state ≠ .boot
  delivers : DeliversOnPress fin
  armed : v.state ≠ .safeState → (v.armed = true ↔ (samples fin).getLast? = some false)
  parity : v.state ≠ .safeState → (v.state = .active ↔ Odd (presses (samples fin)))

/-- The account of one more sample. -/
theorem ButtonAccount.press (h : ButtonAccount fin v) (htask : d.task = .control) :
    ButtonAccount (fin ++ [(d, some (v.press (buttonSample d.readings.pind)).1)])
      (v.press (buttonSample d.readings.pind)).2 := by
  have hsamples : ∀ o, samples (fin ++ [(d, o)]) =
      samples fin ++ [buttonSample d.readings.pind] := by
    intro o
    rw [samples_append, if_pos htask]
  by_cases hsafe : v.state = .safeState
  · have hpress : v.press (buttonSample d.readings.pind) =
        (⟨v.state, false⟩, ⟨v.state, false⟩) := if_pos hsafe
    rw [hpress]
    refine ⟨h.booted, h.delivers.append (delivers_control htask ?_), ?_, ?_⟩
    · simp [hsafe]
    · exact fun hne => absurd hsafe hne
    · exact fun hne => absurd hsafe hne
  have harmed := h.armed hsafe
  have hparity := h.parity hsafe
  rcases hsample : buttonSample d.readings.pind with _ | _
  · -- released: the button is armed
    have hpress : v.press false = (⟨v.state, false⟩, ⟨v.state, true⟩) := by
      simp [ButtonView.press, hsafe]
    rw [hpress]
    refine ⟨h.booted, h.delivers.append (delivers_control htask ?_), fun _ => ?_, fun _ => ?_⟩
    · simp [hsample]
    · simp [hsamples, hsample]
    · rw [hsamples, hsample, presses_append]
      simpa using hparity
  rcases hv : v.armed with _ | _
  · -- pressed, and not armed: nothing changes
    have hpress : v.press true = (⟨v.state, false⟩, v) := by
      simp [ButtonView.press, hsafe, hv]
    have hlast : (samples fin).getLast? ≠ some false := fun hl => by
      rw [harmed.mpr hl] at hv
      cases hv
    rw [hpress]
    refine ⟨h.booted, h.delivers.append (delivers_control htask ?_), fun _ => ?_, fun _ => ?_⟩
    · simp [hlast]
    · simp [hsamples, hsample, hv]
    · rw [hsamples, hsample, presses_append, if_neg fun hl => hlast hl.1]
      exact hparity
  · -- pressed, and armed: the state changes between idle and active
    have hlast := harmed.mp hv
    have hodd : Odd (presses (samples fin) + 1) ↔ ¬ Odd (presses (samples fin)) := by
      rw [Nat.odd_add_one]
    have hstate : v.state = .idle ∨ v.state = .active := by
      have hbooted := h.booted
      rcases v with ⟨_ | _ | _ | _, armed⟩
      · exact absurd rfl hbooted
      · exact .inl rfl
      · exact .inr rfl
      · exact absurd rfl hsafe
    have hpress : v.press true =
        (⟨v.state, true⟩, ⟨systemFsmHandleEvent .startStop v.state, false⟩) := by
      simp [ButtonView.press, hsafe, hv, hstate]
    rw [hpress]
    refine ⟨?_, h.delivers.append (delivers_control htask ?_), fun _ => ?_, fun _ => ?_⟩
    · rcases hstate with hst | hst <;> rw [hst] <;> decide
    · simp [hsample, hlast, hsafe]
    · simp [hsamples, hsample]
    · rw [hsamples, hsample, presses_append, if_pos ⟨hlast, rfl⟩, hodd, ← hparity]
      rcases hstate with hst | hst <;> rw [hst] <;> decide

/-- What the other tasks can do to the button's variables. -/
def ButtonKept (v w : ButtonView) : Prop := w = v ∨ (v.state = .active ∧ w = ⟨.safeState, v.armed⟩)

/-- The account survives what the other tasks may do, an entry into
`SAFE_STATE` included. -/
theorem ButtonAccount.kept (h : ButtonAccount fin v) (hw : ButtonKept v w) :
    ButtonAccount fin w := by
  rcases hw with rfl | ⟨-, rfl⟩
  · exact h
  · exact ⟨SystemState.noConfusion, h.delivers, fun hne => absurd rfl hne, fun hne => absurd rfl hne⟩

/-- Another task's execution is not a sample. -/
theorem ButtonAccount.other (h : ButtonAccount fin v) (htask : d.task ≠ .control) :
    ButtonAccount (fin ++ [(d, none)]) v := by
  have hsamples : samples (fin ++ [(d, none)]) = samples fin := by
    rw [samples_append, if_neg htask, List.append_nil]
  have hnone : Delivers fin d none := by rw [Delivers, if_neg htask]
  refine ⟨h.booted, h.delivers.append hnone, ?_, ?_⟩
  · rw [hsamples]
    exact h.armed
  · rw [hsamples]
    exact h.parity

/-! ## Whole runs -/

/-- The firmware among its interrupts, for the button. -/
def pressContract : Contract Firmware where
  rely s s' := s'.control.buttonView = s.control.buttonView
  guar _ _ := True
  inv _ := True

/-- What the button shows, of the firmware. -/
def Firmware.buttonView (s : Firmware) : ButtonView := s.control.buttonView

theorem stable_press (P : ButtonView → Prop) : Stable pressContract fun s => P s.buttonView := by
  intro s s' h hr
  rw [show s'.buttonView = s.buttonView from hr]
  exact h

/-- No interrupt touches what the button's account is about. -/
theorem buttonView_of_handler {x : Interrupt} {s s' : Firmware} (h : x.handler s = some s') :
    s'.buttonView = s.buttonView := by
  obtain ⟨byte, rfl⟩ | rfl | rfl | ⟨tick, rfl⟩ | rfl := handler_cases h
  · rfl
  · rfl
  · show (timer1CompaVect s.control).buttonView = _
    unfold timer1CompaVect
    split <;> rfl
  · show (timer1CaptVect tick s.control).buttonView = _
    unfold timer1CaptVect
    split <;> rfl
  · rfl

/-- A program that can at most enter `SAFE_STATE`. -/
theorem triple_buttonKept {p : Prog Firmware α} {P : ButtonView → Prop}
    (hp : p.Within fun s s' => ButtonKept s.buttonView s'.buttonView)
    (hP : ∀ v w, P v → ButtonKept v w → P w) :
    Triple pressContract (fun s => P s.buttonView) p fun _ s => P s.buttonView := by
  refine hp.triple (fun s => .inl rfl) (stable_press P) (fun _ _ => trivial) ?_
  exact fun s s' hs hkept => ⟨trivial, hP _ _ hs hkept⟩

/-- What an execution of `control_task` leaves of the state. -/
def ButtonOutcome.Leaves (o : ButtonOutcome) (v : ButtonView) : Prop :=
  v.state = if o.delivered then systemFsmHandleEvent .startStop o.state else o.state

/-- What a sample delivers and what it leaves of the latch go together. -/
theorem ButtonView.leaves_press (v : ButtonView) (pressed : Bool) :
    (v.press pressed).1.Leaves (v.press pressed).2 := by
  unfold ButtonView.press ButtonOutcome.Leaves
  split
  · rfl
  split
  · rfl
  split
  · rfl
  split
  · rfl
  · rfl

/-- The drivers of the firmware keep what the button's account is about. -/
theorem drivable_buttonKept : Drivable fun c c' => ButtonKept c.buttonView c'.buttonView where
  refl _ := .inl rfl
  portb _ _ := .inl rfl
  portd _ _ := .inl rfl
  pulse _ _ := .inl rfl
  stepIndex _ _ := .inl rfl
  lastStep _ _ := .inl rfl

/-- The critical fault enters `SAFE_STATE` from `ACTIVE`, and from nowhere
else. -/
theorem buttonKept_criticalFault (c : Control) : ButtonKept c.buttonView
    { c with systemState := systemFsmHandleEvent .criticalFault c.systemState }.buttonView := by
  rcases hs : c.systemState with _ | _ | _ | _
  · exact .inl (by simp [Control.buttonView, systemFsmHandleEvent, hs])
  · exact .inl (by simp [Control.buttonView, systemFsmHandleEvent, hs])
  · exact .inr ⟨hs, by simp [Control.buttonView, systemFsmHandleEvent]⟩
  · exact .inl (by simp [Control.buttonView, systemFsmHandleEvent, hs])

/-- **What the other tasks do** to the button's variables. -/
theorem within_other (task : Task) (r : Readings) (h : task ≠ .control) :
    (task.body r).Within fun s s' => ButtonKept s.buttonView s'.buttonView := by
  have hcontrol : ∀ {p : Prog Control Unit},
      (p.Within fun c c' => ButtonKept c.buttonView c'.buttonView) →
      (p.zoom Firmware.controlLens).Within fun s s' => ButtonKept s.buttonView s'.buttonView :=
    fun hp => hp.zoom _ fun s c hc => hc
  rcases task with _ | _ | _ | _
  · exact hcontrol (drivable_buttonKept.actuatorService r.nowMs)
  · exact absurd rfl h
  · exact hcontrol (drivable_buttonKept.sensorSafety (fun _ _ => .inl rfl) (fun _ _ => .inl rfl)
      (fun _ _ _ _ => .inl rfl) (fun _ _ _ => .inl rfl) buttonKept_criticalFault r.adc)
  · exact within_communication (fun _ => .inl rfl) (fun _ _ => .inl rfl) (fun _ _ => .inl rfl)
      (fun _ _ _ => .inl rfl) (fun _ _ _ => .inl rfl) (fun _ _ => .inl rfl)
      (hcontrol drivable_buttonKept.setSafeOutputs)

/-- **Every execution keeps the account** of the samples and of the events. -/
theorem buttons_accounted : Accounted buttons pressContract
    (fun fin s => ButtonAccount fin s.buttonView)
    fun _ o s => ∀ outcome, o = some outcome → outcome.Leaves s.buttonView where
  env x s s' h := buttonView_of_handler h
  stable fin := stable_press _
  task := by
    intro fin d
    have hprofiler : ∀ (P : ButtonView → Prop) (p : Prog Profiler Unit),
        Triple pressContract (fun s => P s.buttonView) (p.zoom Firmware.profilerLens)
          fun _ s => P s.buttonView := fun P p =>
      Triple.zoom _ p (stable_press P) (fun _ _ => trivial) fun s q h => ⟨trivial, h⟩
    have hother : d.task ≠ .control → Triple pressContract
        (fun s => ButtonAccount fin s.buttonView)
        ((d.task.body d.readings).bind fun _ => .ret (none : Option ButtonOutcome))
        fun o s => ButtonAccount (fin ++ [(d, o)]) s.buttonView ∧
          ∀ outcome, o = some outcome → outcome.Leaves s.buttonView := by
      intro hd
      refine Triple.bind (triple_buttonKept (within_other d.task d.readings hd)
        fun v w h hw => h.kept hw) fun _ => Triple.ret fun s h => ⟨h.other hd, ?_⟩
      intro outcome ho
      cases ho
    have hbody : Triple pressContract (fun s => ButtonAccount fin s.buttonView)
        (d.task.button d.readings) fun o s => ButtonAccount (fin ++ [(d, o)]) s.buttonView ∧
          ∀ outcome, o = some outcome → outcome.Leaves s.buttonView := by
      rcases hd : d with ⟨_ | _ | _ | _, r⟩
      · rw [hd] at hother
        exact hother Task.noConfusion
      · -- the account of one sample, from whatever the task finds
        intro s h n
        have hrun : Triple pressContract (fun t => True ∧ t.buttonView = s.buttonView)
            ((controlOutcome r.pind r.nowMs).zoom Firmware.controlLens) fun o t =>
              True ∧ (o, t.buttonView) = s.buttonView.press (buttonSample r.pind) :=
          (controlOutcome_triple r.pind r.nowMs s.buttonView).component Firmware.controlLens
            (fun t t' _ hr => ⟨hr, trivial⟩) (fun _ _ _ _ => ⟨trivial, trivial⟩)
            fun _ _ _ => trivial
        have htask : Triple pressContract (fun t => True ∧ t.buttonView = s.buttonView)
            (Task.button r .control) fun o t =>
              ButtonAccount (fin ++ [(⟨.control, r⟩, o)]) t.buttonView ∧
                ∀ outcome, o = some outcome → outcome.Leaves t.buttonView := by
          refine Triple.bind hrun fun o => Triple.ret fun t ht => ?_
          have hpress := h.press (d := ⟨.control, r⟩) rfl
          have hleaves := s.buttonView.leaves_press (buttonSample r.pind)
          rw [← ht.2] at hpress hleaves
          refine ⟨hpress, ?_⟩
          rintro outcome ⟨rfl⟩
          exact hleaves
        exact htask s ⟨trivial, rfl⟩ n
      · rw [hd] at hother
        exact hother Task.noConfusion
      · rw [hd] at hother
        exact hother Task.noConfusion
    show Triple pressContract _ d.button _
    simp only [Dispatch.button, Prog.bind_eq]
    refine Triple.bind ((hprofiler (ButtonAccount fin) _).conseq (fun s h => h.1)
      fun _ _ h => h) fun _ => Triple.bind hbody fun o => ?_
    exact Triple.bind (hprofiler (fun v => ButtonAccount (fin ++ [(d, o)]) v ∧
      ∀ outcome, o = some outcome → outcome.Leaves v) _) fun _ => Triple.ret fun _ h => h

/-- **A held button delivers at most once**, and only after a sample that
showed it released. -/
theorem deliveries_held {before held : List (Dispatch × Option ButtonOutcome)}
    (h : DeliversOnPress (before ++ held)) (hheld : ∀ b ∈ samples held, b = true) :
    deliveries held ≤
      if samples held ≠ [] ∧ (samples before).getLast? = some false then 1 else 0 := by
  induction held using List.reverseRecOn with
  | nil => simp [deliveries]
  | append_singleton held r ih =>
    obtain ⟨d, o⟩ := r
    have hlast : Delivers (before ++ held) d o := h (before ++ held) d o [] (by simp)
    have hprefix : DeliversOnPress (before ++ held) := by
      rw [← List.append_assoc] at h
      exact h.before
    have hcount : deliveries (held ++ [(d, o)]) =
        deliveries held + if (o.map ButtonOutcome.delivered).getD false then 1 else 0 := by
      simp [deliveries, List.countP_append, List.countP_singleton]
    by_cases htask : d.task = .control
    · rw [Delivers, if_pos htask] at hlast
      obtain ⟨outcome, rfl, hdelivered⟩ := hlast
      rw [samples_append, if_pos htask] at hheld ⊢
      have ih' := ih hprefix fun b hb => hheld b (List.mem_append_left _ hb)
      rw [hcount]
      have hcond : samples held ++ [buttonSample d.readings.pind] ≠ [] := by simp
      rw [samples_concat] at hdelivered
      -- the samples before this one decide whether it is the first of the press
      by_cases hempty : samples held = []
      · rw [if_neg fun hs => hs.1 hempty] at ih'
        rw [hempty, List.append_nil] at hdelivered
        by_cases hreleased : (samples before).getLast? = some false
        · rw [if_pos (show _ ∧ _ from ⟨hcond, hreleased⟩)]
          have hone : (if outcome.delivered = true then 1 else 0) ≤ 1 := by split <;> omega
          exact Nat.add_le_add ih' hone
        · have hfalse : outcome.delivered = false := by
            rw [← Bool.not_eq_true, hdelivered]
            exact fun hd => hreleased hd.2.1
          simp [hfalse, hreleased, Nat.le_zero.mp ih']
      · have htrue : (samples before ++ samples held).getLast? = some true := by
          rw [List.getLast?_append_of_ne_nil _ hempty, List.getLast?_eq_some_getLast hempty,
            hheld _ (List.mem_append_left _ (List.getLast_mem hempty))]
        have hfalse : outcome.delivered = false := by
          rw [← Bool.not_eq_true, hdelivered, htrue]
          simp
        simp only [ne_eq, hempty, not_false_eq_true, true_and] at ih'
        simpa [hfalse] using ih'
    · rw [Delivers, if_neg htask] at hlast
      subst hlast
      rw [samples_append, if_neg htask, List.append_nil] at hheld ⊢
      rw [hcount]
      exact ih hprefix hheld

/-- No initialisation touches the arming of the button. -/
theorem armed_boot (b : Boot) (s : Firmware) :
    (s.boot b).control.buttonArmed = s.control.buttonArmed := by
  have hR : Drivable fun c c' => c'.buttonArmed = c.buttonArmed :=
    ⟨fun _ => rfl, fun _ _ => rfl, fun _ _ => rfl, fun _ _ => rfl, fun _ _ => rfl, fun _ _ => rfl⟩
  have hinit : (controlInit b.tcnt1).Within fun c c' => c'.buttonArmed = c.buttonArmed := by
    refine (hR.portbLow _).bind fun _ => (hR.portdHigh _).bind fun _ => ?_
    refine Prog.Within.bind (.write_bind (fun _ => rfl) hR.stepperStop) fun _ => ?_
    refine hR.dcMotorStop.bind fun _ => (hR.portbLow _).bind fun _ => ?_
    refine Prog.Within.bind ((hR.portdLow _).bind fun _ => (hR.portbLow _).bind fun _ =>
      Prog.within_write fun _ => rfl) fun _ => ?_
    refine Prog.Within.bind ((hR.portbLow _).bind fun _ => Prog.within_write fun _ => rfl)
      fun _ => hR.setSafeOutputs.bind fun _ => ?_
    exact .write_bind (fun _ => rfl) (Prog.within_write fun _ => rfl)
  have hmain : (mainInit b).Within fun t t' => t'.control.buttonArmed = t.control.buttonArmed :=
    (hinit.zoom _ fun t c h => h).bind fun _ => Prog.within_write fun _ => rfl
  have htriple := hmain.triple (C := ⟨Eq, fun _ _ => True, fun _ => True⟩)
    (P := fun t => t.control.buttonArmed = s.control.buttonArmed) (fun _ => rfl)
    (fun t t' h he => he ▸ h) (fun _ _ => trivial) fun t t' h hR => ⟨trivial, hR.trans h⟩
  exact htriple.uninterrupted rfl (uninterrupted_mainInit b s)

section

variable {b : Boot} {s₀ : Firmware} {c c' : ButtonConfig} {es : List FirmwareEvent}

/-- The firmware after `main` has initialised. -/
def buttonsStart (b : Boot) (s : Firmware) : ButtonConfig := ⟨s.boot b, none, []⟩

/-- **The account of a run from reset.** -/
theorem buttonAccount_run (hstatic : s₀.control.buttonArmed = 0)
    (h : buttons.run (buttonsStart b s₀) es = some c) :
    AccountedConfig pressContract (fun fin s => ButtonAccount fin s.buttonView)
      (fun _ o s => ∀ outcome, o = some outcome → outcome.Leaves s.buttonView) c := by
  refine buttons_accounted.staged.run ?_ h
  have hview : (s₀.boot b).buttonView = ⟨.idle, false⟩ := by
    show (⟨(s₀.boot b).control.systemState, decide ((s₀.boot b).control.buttonArmed ≠ 0)⟩ :
      ButtonView) = _
    rw [(boot_state b s₀).1, armed_boot, hstatic]
    rfl
  show ButtonAccount [] (s₀.boot b).buttonView
  rw [hview]
  refine ⟨SystemState.noConfusion, ?_, fun _ => ?_, fun _ => ?_⟩
  · intro before d o after hfin
    simp at hfin
  · simp [samples]
  · simp [samples, presses]

/-- **One transition per button press.** In any run from reset, whatever
the samples, the other tasks and the interrupts: an execution of
`control_task` delivers `START_STOP` exactly when its sample is pressed,
the one before it was released and the state it reads is not `SAFE_STATE`;
it leaves the state that follows; while the button is held it is delivered
at most once, and never if it was held from the start. Until `SAFE_STATE`
is entered the state between executions is `ACTIVE` exactly if the presses
so far are odd, and from then on nothing changes it. -/
theorem one_transition_per_press (hstatic : s₀.control.buttonArmed = 0)
    (h : buttons.run (buttonsStart b s₀) es = some c) :
    DeliversOnPress c.finished ∧
    (∀ e c₁ d outcome, buttons.step c e = some c₁ →
      c₁.finished = c.finished ++ [(d, some outcome)] → outcome.Leaves c₁.state.buttonView) ∧
    (∀ before held after, c.finished = before ++ held ++ after →
      (∀ b ∈ samples held, b = true) →
      deliveries held ≤ 1 ∧ (samples before = [] → deliveries held = 0)) ∧
    (c.running = none → c.state.control.systemState ≠ .safeState →
      (c.state.control.systemState = .active ↔ Odd (presses (samples c.finished)))) ∧
    (c.state.control.systemState = .safeState → ∀ es' c', buttons.run c es' = some c' →
      c'.state.control.systemState = .safeState) := by
  have hc := buttonAccount_run hstatic h
  obtain ⟨s, hlog⟩ := hc.log
  refine ⟨hlog.delivers, ?_, ?_, ?_, ?_⟩
  · intro e c₁ d outcome hstep hfin
    exact buttons_accounted.completed hc hstep hfin outcome rfl
  · intro before held after hfin hheld
    have hdelivers := hlog.delivers
    rw [hfin] at hdelivers
    have hbound := deliveries_held hdelivers.before hheld
    refine ⟨hbound.trans (by split <;> omega), fun hempty => ?_⟩
    rw [hempty] at hbound
    simpa using hbound
  · intro hidle hsafe
    exact (hc.idle hidle).parity hsafe
  · -- the same run of the firmware, where the safe state is latched
    intro hsafe es' c' h'
    have hrun := run_buttons (buttonsStart b s₀) es
    have hrun' := run_buttons c es'
    rw [h] at hrun
    rw [h'] at hrun'
    have hstart : SafeFirmware (firmwareStart b s₀) := safe_start b s₀
    exact (latches_run (safe_sound.staged.run hstart hrun) hrun' hsafe).1

end

/-- The button is seen released, pressed, and held. -/
def heldRun : List FirmwareEvent :=
  pressRun ++ .foreground :: .dispatch ⟨.control, .zeroed⟩ :: List.replicate 14 .foreground

/-- One press is one transition, however long the button is held. -/
theorem one_transition_per_press_held :
    ∃ c, buttons.run (buttonsStart ⟨0, 0, 0, 0⟩ .zeroed) heldRun = some c ∧
      samples c.finished = [false, true, true] ∧ c.state.control.systemState = .active ∧
      Odd (presses (samples c.finished)) := by
  have hrun : (buttons.run (buttonsStart ⟨0, 0, 0, 0⟩ .zeroed) heldRun).map (fun c =>
      (c.running.isNone, samples c.finished, c.state.control.systemState)) =
      some (true, [false, true, true], .active) := by
    decide +kernel
  obtain ⟨c, hc, hend⟩ := Option.map_eq_some_iff.mp hrun
  simp only [Prod.mk.injEq] at hend
  obtain ⟨hidle, hsamples, hactive⟩ := hend
  have hne : c.state.control.systemState ≠ .safeState := by
    rw [hactive]
    decide
  have hparity := (one_transition_per_press rfl hc).2.2.2.1
    (Option.isNone_iff_eq_none.mp hidle) hne
  exact ⟨c, hc, hsamples, hactive, hparity.mp hactive⟩

end SentryCell
