import SentryCell.Firmware.LocalTasks
import SentryCell.Firmware.Execution
/-!
# Isolation of the control side from the host

The firmware is simulated by the local machine as long as no block request
is accepted: the communication task is not shown to it, nor is any
interrupt but the echo capture. Two runs that show it the same therefore
agree on the control side, whatever the host sends and whenever
(`control_isolated`).
-/

namespace SentryCell

open Foreground Word Machine

/-! ## What is shown of a run -/

/-- A dispatch as the local machine knows it. -/
def Dispatch.local (d : Dispatch) : Option LocalDispatch :=
  match d.task with
  | .actuatorService => some (.actuatorService d.readings.nowMs)
  | .control => some (.control d.readings.nowMs (buttonIsPressed d.readings.pind))
  | .sensorSafety => some .sensorSafety
  | .communication => none

/-- **What an event shows of the control side**: the dispatches and the
accesses of the local tasks, and the captures. -/
def shownLocal (c : FirmwareConfig) : FirmwareEvent → Option LocalEvent
  | .dispatch d => d.local.map .dispatch
  | .foreground => (c.running.bind fun q => q.1.local).map fun _ => .foreground
  | .env (.timer1Capt captureTick) => some (.env captureTick)
  | .env _ => none

/-- What a run shows of the control side. -/
def controlTrace (c : FirmwareConfig) (es : List FirmwareEvent) : List LocalEvent :=
  firmware.trace shownLocal c es

/-! ## The communication task -/

/-- A block request has been accepted. -/
def Firmware.Blocked (s : Firmware) : Prop := ∃ frame ∈ s.accepted, frame.request = .block

/-- **No block is pending**, unless a request for one was accepted. -/
def Firmware.Unprompted (s : Firmware) : Prop :=
  s.Blocked ∨ s.protocol.slots.watchdogBlockRequestPending = 0

/-- The control side is left alone, unless a block was requested. -/
def quietContract : Contract Firmware where
  rely s s' := ∃ x, Interrupt.handler s x = some s'
  guar s s' := s.Blocked ∨ s'.control = s.control
  inv := Firmware.Unprompted

/-- What the accesses of the communication task do, but for a block. -/
def Quiet (s s' : Firmware) : Prop :=
  s'.control = s.control ∧ (s.Unprompted → s'.Unprompted)

variable {s s' : Firmware} {r : Readings}

/-- What accepts no frame and keeps the block flag leaves a state
unprompted. -/
theorem unprompted_congr (ha : s'.accepted = s.accepted)
    (hb : KeepsBlock s.protocol.slots s'.protocol.slots) (h : s.Unprompted) : s'.Unprompted := by
  rcases h with ⟨frame, hmem, hframe⟩ | h
  · exact .inl ⟨frame, ha ▸ hmem, hframe⟩
  · exact .inr (hb.trans h)

/-- No interrupt accepts a frame; only the parser does, in the
communication task. -/
theorem accepted_of_handler {x : Interrupt} (h : x.handler s = some s') :
    s'.accepted = s.accepted := by
  obtain ⟨byte, rfl⟩ | rfl | rfl | ⟨tick, rfl⟩ | rfl := handler_cases h <;> rfl

/-- No interrupt prompts a block. -/
theorem unprompted_of_handler {x : Interrupt} (h : x.handler s = some s') (hs : s.Unprompted) :
    s'.Unprompted :=
  unprompted_congr (accepted_of_handler h) (by rw [KeepsBlock, protocol_of_handler h]) hs

/-- **A frame that is no block request** does not touch the flag. -/
theorem keepsBlock_handleFrame {frame : ProtocolFrame} (h : frame.request ≠ .block)
    (q : Slots) : KeepsBlock q (protocolHandleFrame frame q) := by
  unfold KeepsBlock
  obtain ⟨kind, hr⟩ | hr | ⟨response, hr⟩ := request_cases frame q.pendingFrame.payload
  · rw [protocolHandleFrame_status hr]
    split <;> rfl
  · exact absurd hr h
  · rw [protocolHandleFrame_immediate hr]
    split <;> rfl

/-- **A byte** prompts a block only as the end of a request for one. -/
theorem quiet_processByte (byte : Byte) (nowMs : Word32) (s : Firmware) :
    Quiet s (s.processByte byte nowMs) := by
  refine ⟨rfl, fun h => ?_⟩
  have hslots := slots_protocolProcessByte byte nowMs s.protocol
  rcases hf : handledFrame byte s.protocol with _ | frame
  · rw [hf] at hslots
    refine unprompted_congr (by simp [Firmware.processByte, hf]) ?_ h
    show (protocolProcessByte byte nowMs s.protocol).slots.watchdogBlockRequestPending = _
    rw [hslots]
  · rw [hf] at hslots
    by_cases hblock : frame.request = .block
    · refine .inl ⟨frame, ?_, hblock⟩
      simp [Firmware.processByte, hf]
    · rcases h with ⟨old, hmem, hold⟩ | h
      · exact .inl ⟨old, List.mem_append_left _ hmem, hold⟩
      · right
        show (protocolProcessByte byte nowMs s.protocol).slots.watchdogBlockRequestPending = 0
        rw [hslots]
        exact (keepsBlock_handleFrame hblock _).trans h

/-- An unprompted state stays so under the interrupts. -/
theorem stable_unprompted : Stable quietContract Firmware.Unprompted := by
  rintro s s' h ⟨x, hx⟩
  exact unprompted_of_handler hx h

theorem stable_blocked : Stable quietContract Firmware.Blocked := by
  rintro s s' ⟨frame, hmem, hframe⟩ ⟨x, hx⟩
  exact ⟨frame, accepted_of_handler hx ▸ hmem, hframe⟩

theorem quiet_refl (s : Firmware) : Quiet s s := ⟨rfl, fun h => h⟩

/-- A program whose every access is quiet leaves an unprompted state
unprompted. -/
theorem triple_of_quiet {α : Type} {p : Prog Firmware α} (h : p.Within Quiet) :
    Triple quietContract Firmware.Unprompted p fun _ => Firmware.Unprompted :=
  h.triple quiet_refl stable_unprompted (fun _ hs => hs) fun _ _ hs hq =>
    ⟨.inr hq.1, hq.2 hs⟩

/-- The block runs only where one was requested. -/
theorem quiet_serveBlock :
    Triple quietContract Firmware.Unprompted serveBlock fun _ => Firmware.Unprompted := by
  refine Triple.read_bind (B := fun requested s => s.Unprompted ∧ (requested ≠ 0 → s.Blocked))
    stable_unprompted (fun _ h => h) (fun _ => .inr rfl) (fun s h => ⟨h, ?_⟩) fun requested => ?_
  · intro hne
    exact h.resolve_right hne
  split
  · rename_i hne
    have hblocked : Triple quietContract Firmware.Blocked
        (setSafeOutputs.zoom Firmware.controlLens) fun _ => Firmware.Blocked :=
      Triple.zoom Firmware.controlLens _ stable_blocked (fun _ h => .inl h) fun s c h =>
        ⟨.inl h, h⟩
    refine Triple.bind (hblocked.conseq (fun s h => h.2 hne) fun _ _ h => h) fun _ => ?_
    exact (Triple.forever stable_blocked (fun _ h => .inl h) fun _ => .inr rfl).conseq
      (fun _ h => h) fun _ _ h => .inl h
  · exact Triple.ret fun s h => h.1

/-- **The communication task leaves the control side alone.** -/
theorem quiet_communication (r : Readings) :
    Triple quietContract Firmware.Unprompted (communication r) fun _ => Firmware.Unprompted := by
  have htx : ∀ s u, Quiet s (Firmware.txLens.set u s) := fun s u => ⟨rfl, fun h => h⟩
  have hslots : ∀ s q, KeepsBlock s.protocol.slots q → Quiet s (Firmware.slotsLens.set q s) :=
    fun s q hq => ⟨rfl, unprompted_congr rfl hq⟩
  have hcheck : (Prog.write (Firmware.checkTimeout r.nowMs)).Within Quiet := by
    refine Prog.within_write fun s => ⟨rfl, unprompted_congr rfl ?_⟩
    show (protocolCheckTimeout r.nowMs s.protocol).slots.watchdogBlockRequestPending = _
    rw [slots_protocolCheckTimeout]
  have hdrain : (Prog.loop (drainByte r) 0 (.ret ())).Within Quiet := by
    refine ⟨fun n => ?_, Prog.within_ret _⟩
    refine (Prog.within_zoom _ _ fun s u => ⟨rfl, fun h => h⟩).bind fun byte => ?_
    rcases byte with _ | byte
    · exact Prog.within_ret _
    · exact .write_bind (quiet_processByte byte _) (Prog.within_ret _)
  refine (triple_of_quiet hcheck).bind fun _ => (triple_of_quiet hdrain).bind fun _ => ?_
  refine quiet_serveBlock.bind fun _ => ?_
  refine (triple_of_quiet (within_serveResponse quiet_refl htx hslots)).bind fun _ => ?_
  exact triple_of_quiet (within_serveStatuses quiet_refl htx hslots
    (fun s m => ⟨rfl, fun h => h⟩) _)

/-- An execution of a task without local program is quiet, with its
bookkeeping. -/
theorem quiet_program {d : Dispatch} (hd : d.local = none) :
    Triple quietContract Firmware.Unprompted d.program fun _ => Firmware.Unprompted := by
  have hprofiler : ∀ s p, s.Unprompted → quietContract.guar s (Firmware.profilerLens.set p s) ∧
      (Firmware.profilerLens.set p s).Unprompted := fun s p h => ⟨.inr rfl, h⟩
  have hbody : Triple quietContract Firmware.Unprompted ((d.task.body d.readings).zoom (.id _))
      fun _ => Firmware.Unprompted := by
    rw [Prog.zoom_id]
    obtain ⟨task, r⟩ := d
    rcases task with _ | _ | _ | _
    · cases hd
    · cases hd
    · cases hd
    · exact quiet_communication r
  have hprogram := Dispatch.triple (L := .id Firmware) stable_unprompted stable_unprompted
    (fun _ h => h) (fun _ h => h) hprofiler hprofiler hbody
  rwa [Prog.zoom_id] at hprogram

/-! ## The local tasks -/

/-- What the local machine knows of the firmware. -/
def Reflects (s : Firmware) (c : Control) : Prop := s.Unprompted ∧ SameControl s.control c

/-- **A local task** is simulated by itself. -/
theorem sim_program {d : Dispatch} {l : LocalDispatch} (hd : d.local = some l) :
    Prog.Sim Reflects (fun _ _ => True) d.program l.program := by
  have hprofiler : ∀ f : Firmware → Profiler, Prog.Sim Reflects (fun _ _ => True)
      (Prog.write fun s => Firmware.profilerLens.set (f s) s) (Prog.write fun c => c) :=
    fun f => Prog.sim_write fun s c h => h
  have hcontrol : ∀ {α : Type} {p q : Prog Control α}, Prog.Sim SameControl Eq p q →
      Prog.Sim Reflects Eq (p.zoom Firmware.controlLens) q := fun h =>
    h.zoom Firmware.controlLens (fun s c hs => hs.2) fun s c k k' hs hk => ⟨hs.1, hk⟩
  have hbody : Prog.Sim Reflects Eq (d.task.body d.readings) l.body := by
    obtain ⟨task, r⟩ := d
    rcases task with _ | _ | _ | _
    · obtain rfl := Option.some.inj hd
      exact hcontrol (insensitive_actuatorService r.nowMs)
    · obtain rfl := Option.some.inj hd
      exact hcontrol (insensitive_controlSampled r.nowMs (buttonIsPressed r.pind))
    · obtain rfl := Option.some.inj hd
      exact hcontrol (sim_sensorSafety r.adc 0)
    · cases hd
  simp only [Dispatch.program, LocalDispatch.program, recordStart, recordEnd, Prog.bind_eq,
    Prog.zoom_bind, Prog.zoom_write]
  exact (hprofiler _).bind fun _ _ _ => hbody.bind fun _ _ _ =>
    (hprofiler _).bind fun _ _ _ => hprofiler _

/-! ## The simulation -/

/-- **What runs in the firmware** and what in the local machine: nothing
beside the communication task, and a local task beside itself. -/
def RunsBeside (s : Firmware) (running : Option (Dispatch × Prog Firmware Unit))
    (beside : Option (LocalDispatch × Prog Control Unit)) : Prop :=
  match running with
  | none => beside = none
  | some (d, p) =>
    match d.local with
    | none => beside = none ∧ p.result = none ∧
        ∀ n, Safe quietContract (fun _ => Firmware.Unprompted) n p s
    | some l => ∃ q, beside = some (l, q) ∧ Prog.Sim Reflects (fun _ _ => True) p q

/-- **The firmware beside the local machine.** -/
structure Beside (c : FirmwareConfig) (k : LocalConfig) : Prop where
  reflects : Reflects c.state k.state
  running : RunsBeside c.state c.running k.running

variable {c c' : FirmwareConfig} {k : LocalConfig} {d : Dispatch} {l : LocalDispatch}
variable {e : FirmwareEvent}

/-- The communication task, started or resumed. -/
theorem Beside.settle_communication {p : Prog Firmware Unit} {fin : List (Dispatch × Unit)}
    (hs : Reflects s k.state) (hd : d.local = none) (hk : k.running = none)
    (hsafe : ∀ n, Safe quietContract (fun _ => Firmware.Unprompted) n p s) :
    Beside (settle s d p fin) k := by
  obtain ⟨r, rfl, hsettle⟩ | ⟨hp, hsettle⟩ := settle_cases s d p fin
  · rw [hsettle]
    exact ⟨hs, hk⟩
  · rw [hsettle]
    refine ⟨hs, ?_⟩
    simp only [RunsBeside, hd]
    exact ⟨hk, hp, hsafe⟩

/-- A local task, started or resumed on both sides. -/
theorem Beside.settle_local {p : Prog Firmware Unit} {q : Prog Control Unit} {t : Control}
    {fin : List (Dispatch × Unit)} {fin' : List (LocalDispatch × Unit)} (hs : Reflects s t)
    (hd : d.local = some l) (hsim : Prog.Sim Reflects (fun _ _ => True) p q) :
    Beside (settle s d p fin) (settle t l q fin') := by
  rcases hsim with h | ⟨S, h, hk⟩
  · exact ⟨hs, rfl⟩
  · refine ⟨hs, ?_⟩
    simp only [settle, Prog.result, RunsBeside, hd]
    exact ⟨_, rfl, .access S h hk⟩

/-- An interrupt changes neither of the two programs that run beside each
other. -/
theorem RunsBeside.interrupt {x : Interrupt} {running : Option (Dispatch × Prog Firmware Unit)}
    {beside : Option (LocalDispatch × Prog Control Unit)} (h : RunsBeside s running beside)
    (hx : x.handler s = some s') : RunsBeside s' running beside := by
  rcases running with _ | ⟨d, p⟩
  · exact h
  · rcases hd : d.local with _ | l
    · simp only [RunsBeside, hd] at h ⊢
      obtain ⟨hk, hp, hsafe⟩ := h
      exact ⟨hk, hp, fun n => ((safe_succ_iff hp).mp (hsafe (n + 1))).2.1 s' ⟨x, hx⟩⟩
    · simp only [RunsBeside, hd] at h ⊢
      exact h

/-- Every access only adds to the frames that were accepted. -/
def AcceptedGrows (s s' : Firmware) : Prop := s.accepted <+: s'.accepted

/-- No access of any task takes back a frame that was accepted. -/
theorem within_accepted (d : Dispatch) : d.program.Within AcceptedGrows := by
  have hrefl : ∀ s, AcceptedGrows s s := fun s => List.prefix_rfl
  have hprofiler : ∀ p : Prog Profiler Unit,
      (p.zoom Firmware.profilerLens).Within AcceptedGrows :=
    fun p => Prog.within_zoom _ p fun s _ => hrefl s
  have hcontrol : ∀ p : Prog Control Unit,
      (p.zoom Firmware.controlLens).Within AcceptedGrows :=
    fun p => Prog.within_zoom _ p fun s _ => hrefl s
  refine (hprofiler _).bind fun _ => Prog.Within.bind ?_ fun _ => hprofiler _
  obtain ⟨task, r⟩ := d
  rcases task with _ | _ | _ | _
  · exact hcontrol _
  · exact hcontrol _
  · exact hcontrol _
  · exact within_communication hrefl (fun s _ => hrefl s) (fun s _ => hrefl s)
      (fun s _ _ => hrefl s) (fun s _ _ => List.prefix_append _ _) (fun s _ => hrefl s)
      (hcontrol _)

/-- No interrupt takes back a frame that was accepted. -/
theorem acceptedGrows_of_handler (x : Interrupt) (s s' : Firmware)
    (h : x.handler s = some s') : AcceptedGrows s s' := by
  have haccepted : s'.accepted = s.accepted := accepted_of_handler h
  simp only [AcceptedGrows, haccepted, List.prefix_rfl]

/-- **The frames that were accepted only grow**, at every step of a run. -/
theorem step_accepted (hI : RunsWithin AcceptedGrows c) (hs : firmware.step c e = some c') :
    AcceptedGrows c.state c'.state ∧ RunsWithin AcceptedGrows c' :=
  step_within (fun _ => List.prefix_rfl) within_accepted acceptedGrows_of_handler hI hs

/-- **What the interrupts but the capture do** is masked. -/
theorem masked_of_handler {x : Interrupt} (h : x.handler s = some s')
    (hx : ∀ captureTick, x ≠ .timer1Capt captureTick) :
    s'.control.masked = s.control.masked := by
  rcases x with byte | _ | _ | captureTick | _ <;>
    simp only [Interrupt.handler, Option.ite_none_right_eq_some, Option.some.injEq] at h
  · obtain ⟨-, rfl⟩ := h
    rfl
  · obtain ⟨-, rfl⟩ := h
    rfl
  · obtain ⟨-, rfl⟩ := h
    exact masked_timer1CompaVect s.control
  · exact absurd rfl (hx captureTick)
  · obtain rfl := h
    rfl

theorem unprompted_of_safe {p : Prog Firmware Unit}
    (h : ∀ n, Safe quietContract (fun _ => Firmware.Unprompted) n p s) : s.Unprompted := by
  rcases hp : p.result with _ | r
  · exact ((safe_succ_iff hp).mp (h 1)).1
  · rcases p with r' | _ | _
    · exact (h 1).post
    · cases hp
    · cases hp

/-- **The firmware is simulated by its control side**, until a block
request is accepted. -/
theorem isolation : Simulation firmware localMachine shownLocal (RunsWithin AcceptedGrows)
    (fun c => ¬ c.state.Blocked) Beside where
  keep c e c' hI hs := (step_accepted hI hs).2
  back c e c' hI hs hgood := by
    rintro ⟨frame, hmem, hframe⟩
    exact hgood ⟨frame, (step_accepted hI hs).1.subset hmem, hframe⟩
  hidden c k e c' h hs hgood hx := by
    obtain ⟨⟨hun, hsame⟩, hrun⟩ := h
    obtain ⟨d, rfl, hr, -, rfl⟩ | ⟨d, p, p', s', rfl, hr, hn, rfl⟩ | ⟨x, s', rfl, hx', rfl⟩ :=
      step_cases hs
    · -- the communication task is dispatched
      have hd : d.local = none := Option.map_eq_none_iff.mp hx
      rw [hr] at hrun
      exact .settle_communication ⟨hun, hsame⟩ hd hrun
        fun n => quiet_program hd _ hun n
    · have hd : d.local = none := by simpa [shownLocal, hr] using hx
      simp only [hr, RunsBeside, hd] at hrun
      obtain ⟨hk, hp, hsafe⟩ := hrun
      have hnext := fun n => ((safe_succ_iff hp).mp (hsafe (n + 1))).2.2 p' s' hn
      have hcontrol : s'.control = c.state.control := (hnext 0).1.resolve_left hgood
      have hsafe' := fun n => (hnext n).2
      have hsame' : SameControl s'.control k.state := hcontrol ▸ hsame
      exact .settle_communication ⟨unprompted_of_safe hsafe', hsame'⟩ hd hk hsafe'
    · -- every interrupt but the capture
      have hmasked := masked_of_handler hx' (by rintro captureTick rfl; cases hx)
      exact ⟨⟨unprompted_of_handler hx' hun, hmasked.trans hsame⟩, hrun.interrupt hx'⟩
  step c k e c' y h hs hgood hx := by
    obtain ⟨⟨hun, hsame⟩, hrun⟩ := h
    obtain ⟨d, rfl, hr, -, rfl⟩ | ⟨d, p, p', s', rfl, hr, hn, rfl⟩ | ⟨x, s', rfl, hx', rfl⟩ :=
      step_cases hs
    · obtain ⟨l, hd, rfl⟩ := Option.map_eq_some_iff.mp hx
      rw [hr] at hrun
      refine ⟨settle k.state l l.program k.finished, ?_, ?_⟩
      · simp only [Machine.step, show k.running = none from hrun]
        rfl
      · exact .settle_local ⟨hun, hsame⟩ hd (sim_program hd)
    · obtain ⟨l, hd, rfl⟩ : ∃ l, d.local = some l ∧ Event.foreground = y := by
        simpa [shownLocal, hr] using hx
      simp only [hr, RunsBeside, hd] at hrun
      obtain ⟨q, hk, hsim⟩ := hrun
      obtain ⟨q', t, hn', hreflects, hsim'⟩ := hsim.next ⟨hun, hsame⟩ hn
      refine ⟨settle t l q' k.finished, ?_, .settle_local hreflects hd hsim'⟩
      simp only [Machine.step, hk, hn', Option.map_some]
    · -- the capture is enabled on both sides
      rcases x with byte | _ | _ | captureTick | _
      · cases hx
      · cases hx
      · cases hx
      · obtain rfl := Option.some.inj hx
        have hx' : Interrupt.handler c.state (.timer1Capt captureTick) = some s' := hx'
        have hun' := unprompted_of_handler hx' hun
        have hrun' := hrun.interrupt hx'
        have hmask : c.state.control.masked = k.state.masked := hsame
        have htimsk : c.state.control.timsk1 = k.state.timsk1 :=
          show c.state.control.masked.timsk1 = k.state.masked.timsk1 by rw [hmask]
        obtain ⟨henabled, rfl⟩ : isSet c.state.control.timsk1 icie1 = true ∧
            { c.state with control := timer1CaptVect captureTick c.state.control } = s' := by
          simpa [Interrupt.handler] using hx'
        refine ⟨{ k with state := timer1CaptVect captureTick k.state }, ?_, ⟨hun', ?_⟩, hrun'⟩
        · rw [htimsk] at henabled
          simp only [Machine.step, localMachine, if_pos henabled, Option.map_some]
        · exact hsame.capt captureTick
      · cases hx

/-! ## What is seen of the control side -/

/-- **The control side as seen from outside**: the decisions, the
acquisition and the outputs. -/
structure Observed where
  systemState : SystemState
  lastFault : DiagFault
  faultCount : Word16
  buttonArmed : Byte
  hcsr04 : Hcsr04
  captureEnabled : Bool
  measurementActive : Byte
  stepperIn1 : Bool
  stepperIn2 : Bool
  stepperIn3 : Bool
  stepperIn4 : Bool
  motorIn1 : Bool
  motorIn2 : Bool
  relay : Bool
  servoPulseMs : Byte
  led : Bool

def Control.observed (c : Control) : Observed where
  systemState := c.systemState
  lastFault := c.lastFault
  faultCount := c.faultCount
  buttonArmed := c.buttonArmed
  hcsr04 := c.hcsr04
  captureEnabled := isSet c.timsk1 icie1
  measurementActive := c.measurementActive
  stepperIn1 := isSet c.portd stepperIn1Bit
  stepperIn2 := isSet c.portd stepperIn2Bit
  stepperIn3 := isSet c.portd stepperIn3Bit
  stepperIn4 := isSet c.portd stepperIn4Bit
  motorIn1 := isSet c.portb dcMotorIn1Bit
  motorIn2 := isSet c.portb dcMotorIn2Bit
  relay := isSet c.portb relayControlBit
  servoPulseMs := c.servo.pulseMs
  led := isSet c.portb ledBit

/-- Every bit of the port but the servo's is seen as it is. -/
theorem isSet_unsignalled {i : ℕ} (h : i ≠ servoSignalBit) (r : Byte) :
    isSet (unsignalled r) i = isSet r i := by
  unfold unsignalled
  rw [isSet_and_not_bit_eq (by decide), Function.update_of_ne h]

/-- **The mask hides nothing of it.** -/
theorem observed_masked (c : Control) : c.masked.observed = c.observed := by
  have hsignal : ∀ i, i ≠ servoSignalBit → isSet c.masked.portb i = isSet c.portb i :=
    fun i h => isSet_unsignalled h c.portb
  unfold Control.observed
  rw [hsignal dcMotorIn1Bit (by decide), hsignal dcMotorIn2Bit (by decide),
    hsignal relayControlBit (by decide), hsignal ledBit (by decide)]
  rfl

/-- Two states that differ in the signal only look the same to the tasks. -/
theorem SameControl.observed {c c' : Control} (h : SameControl c c') :
    c.observed = c'.observed := by
  rw [← observed_masked c, ← observed_masked c', show c.masked = c'.masked from h]

/-! ## The two runs -/

/-- No block is pending after `main` has initialised. -/
theorem beside_start (b : Boot) (s : Firmware) :
    Beside (firmwareStart b s) ⟨(s.boot b).control, none, []⟩ := by
  obtain ⟨-, hp, -⟩ := boot_spec b s
  refine ⟨⟨.inr ?_, rfl⟩, rfl⟩
  show (s.boot b).protocol.slots.watchdogBlockRequestPending = 0
  rw [hp]
  rfl

/-- A board is blocked exactly by a block request of the right length among
the frames that were accepted. -/
theorem not_blocked_iff : ¬ s.Blocked ↔ ∀ frame ∈ s.accepted,
    ¬ (frame.type = protocolTypeInjectWatchdogBlock ∧ frame.length = 0) := by
  simp only [Firmware.Blocked, request_eq_block_iff, not_exists, not_and]

/-- **The host does not influence the control side.** Two runs from one
start, in neither of which a block request was accepted, may differ in every
byte received, in every interrupt of the UART and in every pass of
`communication_task`. Where they show the local tasks the same, they leave
the same decisions, acquisition and outputs. -/
theorem control_isolated (b : Boot) (s : Firmware) {es es' : List FirmwareEvent}
    {c c' : FirmwareConfig} (h : firmware.run (firmwareStart b s) es = some c)
    (h' : firmware.run (firmwareStart b s) es' = some c')
    (hblock : ∀ frame ∈ c.state.accepted,
      ¬ (frame.type = protocolTypeInjectWatchdogBlock ∧ frame.length = 0))
    (hblock' : ∀ frame ∈ c'.state.accepted,
      ¬ (frame.type = protocolTypeInjectWatchdogBlock ∧ frame.length = 0))
    (hsame : controlTrace (firmwareStart b s) es = controlTrace (firmwareStart b s) es') :
    c.state.control.observed = c'.state.control.observed := by
  have hwithin : RunsWithin AcceptedGrows (firmwareStart b s) := runsWithin_of_idle rfl
  obtain ⟨k, hk, hk'⟩ := isolation.agree hwithin hwithin (beside_start b s) (beside_start b s)
    h h' (not_blocked_iff.mpr hblock) (not_blocked_iff.mpr hblock') hsame
  have hmask : SameControl c.state.control c'.state.control :=
    hk.reflects.2.trans hk'.reflects.2.symm
  exact hmask.observed

/-- The button is pressed, with `host` before the press. -/
def pressBeside (host : List FirmwareEvent) : List FirmwareEvent :=
  .dispatch ⟨.control, { Readings.zeroed with pind := bit buttonBit }⟩ ::
    List.replicate 14 .foreground ++ host ++
      .dispatch ⟨.control, .zeroed⟩ :: List.replicate 17 .foreground

/-- A PING arrives and is answered. -/
def hostPing : List FirmwareEvent :=
  [0xA5#8, 0x01#8, 0x01#8, 0x10#8, 0x00#8, 0x2A#8].map (fun byte => .env (.usartRx byte)) ++
    .dispatch ⟨.communication, .zeroed⟩ :: List.replicate 71 .foreground ++ [.env .usartUdre]

/-- The press does the same with a PING before it as with none. -/
theorem control_isolated_ping :
    ∃ c c', firmware.run (firmwareStart ⟨0, 0, 0, 0⟩ .zeroed) (pressBeside []) = some c ∧
      firmware.run (firmwareStart ⟨0, 0, 0, 0⟩ .zeroed) (pressBeside hostPing) = some c' ∧
      c'.state.accepted.length = 1 ∧ c.state.control.observed = c'.state.control.observed := by
  let good : FirmwareConfig → Bool := fun c => c.state.accepted.all fun frame =>
    !decide (frame.type = protocolTypeInjectWatchdogBlock ∧ frame.length = 0)
  have hgood : ∀ {c : FirmwareConfig}, good c = true → ∀ frame ∈ c.state.accepted,
      ¬ (frame.type = protocolTypeInjectWatchdogBlock ∧ frame.length = 0) := by
    intro c h frame hmem
    have hframe := List.all_eq_true.mp h frame hmem
    simpa only [Bool.not_eq_true', decide_eq_false_iff_not] using hframe
  have hrun : (firmware.run (firmwareStart ⟨0, 0, 0, 0⟩ .zeroed) (pressBeside [])).map good =
      some true := by
    decide +kernel
  have hrun' : (firmware.run (firmwareStart ⟨0, 0, 0, 0⟩ .zeroed) (pressBeside hostPing)).map
      (fun c => (good c, c.state.accepted.length)) = some (true, 1) := by
    decide +kernel
  obtain ⟨c, hc, hgoodc⟩ := Option.map_eq_some_iff.mp hrun
  obtain ⟨c', hc', hend⟩ := Option.map_eq_some_iff.mp hrun'
  obtain ⟨hgoodc', hone⟩ := Prod.mk.inj hend
  exact ⟨c, c', hc, hc', hone,
    control_isolated _ _ hc hc' (hgood hgoodc) (hgood hgoodc') (by decide +kernel)⟩

end SentryCell
