import SentryCell.Firmware.Isolation
import SentryCell.Lib.Avr
/-!
# The board across resets

`firmware/hal/watchdog.c` and the loop of `main`. The start-up code of a
session takes the marker that the watchdog interrupt left in `.noinit`
memory and clears it, so that a session knows how the one before it ended
(`marker_tells`). The board is the firmware with the hardware watchdog
around it: its counter is cleared by `watchdog_kick`, which the loop comes
to between two passes alone, its first time-out is the interrupt and the
next a reset. How long a time-out is is left open.
-/

namespace SentryCell

open Foreground Word Machine

/-! ## What the start-up code does -/

/-- Where the linker has put the `.noinit` variables. -/
structure NoinitLayout where
  resetCause : Word16
  eventMagicA : Word16
  eventMagicB : Word16
  previousTimeoutDetected : Word16
  nodup : [resetCause, eventMagicA, eventMagicB, previousTimeoutDetected].Nodup

/-- The variables at their addresses. -/
def NoinitLayout.watchdog (a : NoinitLayout) (mem : Word16 → Byte) : Watchdog where
  resetCause := mem a.resetCause
  eventMagicA := mem a.eventMagicA
  eventMagicB := mem a.eventMagicB
  previousTimeoutDetected := mem a.previousTimeoutDetected

/-- `watchdog_capture_optiboot_reset_cause`, which is naked and falls
through to the code that follows it. -/
def watchdogCaptureOptibootResetCause (a : NoinitLayout) : List Avr.Instr :=
  [.sts a.resetCause 2,
    .lds 24 a.eventMagicA,
    .cpi 24 watchdogEventMagicA,
    .brne 1,
    .lds 24 a.eventMagicB,
    .cpi 24 watchdogEventMagicB,
    .brne 1,
    .ldi 24 1,
    .rjmp 2,
    .label 1,
    .clr 24,
    .label 2,
    .sts a.previousTimeoutDetected 24,
    .clr 24,
    .sts a.eventMagicA 24,
    .sts a.eventMagicB 24]

/-- The marker of `WDT_vect`. -/
def Watchdog.Marked (w : Watchdog) : Prop :=
  w.eventMagicA = watchdogEventMagicA ∧ w.eventMagicB = watchdogEventMagicB

instance (w : Watchdog) : Decidable w.Marked := inferInstanceAs (Decidable (_ ∧ _))

/-- **What it makes of the variables**: the marker is taken, and the cause
that the bootloader passes is kept. -/
def Watchdog.capture (cause : Byte) (w : Watchdog) : Watchdog where
  resetCause := cause
  eventMagicA := 0
  eventMagicB := 0
  previousTimeoutDetected := if w.Marked then 1 else 0

/-- **The code does so**, whatever memory and the registers hold, and
touches nothing else but register 24 and the flag. -/
theorem run_capture (a : NoinitLayout) (s : Avr.State) :
    ∃ s', Avr.run (watchdogCaptureOptibootResetCause a) none s = some s' ∧
      a.watchdog s'.mem = (a.watchdog s.mem).capture (s.reg 2) ∧
      (∀ r, r ≠ 24 → s'.reg r = s.reg r) ∧
      ∀ address, address ∉ [a.resetCause, a.eventMagicA, a.eventMagicB,
        a.previousTimeoutDetected] → s'.mem address = s.mem address := by
  obtain ⟨resetCause, eventMagicA, eventMagicB, previous, hnodup⟩ := a
  simp only [List.nodup_cons, List.mem_cons, List.not_mem_nil, not_or, or_false] at hnodup
  obtain ⟨⟨hra, hrb, hrp⟩, ⟨hab, hap⟩, hbp, -⟩ := hnodup
  have hrun : ∃ s', Avr.run (watchdogCaptureOptibootResetCause
      ⟨resetCause, eventMagicA, eventMagicB, previous, by simp [*]⟩) none s = some s' ∧
      s'.mem resetCause = s.reg 2 ∧ s'.mem eventMagicA = 0 ∧ s'.mem eventMagicB = 0 ∧
      s'.mem previous = if s.mem eventMagicA = watchdogEventMagicA ∧
        s.mem eventMagicB = watchdogEventMagicB then 1 else 0 := by
    -- the two comparisons decide which way the code takes
    by_cases hA : s.mem eventMagicA = watchdogEventMagicA
    · by_cases hB : s.mem eventMagicB = watchdogEventMagicB
      · simp [watchdogCaptureOptibootResetCause, Avr.run, Avr.Instr.effect, Avr.Instr.jump, *,
          Ne.symm]
      · simp [watchdogCaptureOptibootResetCause, Avr.run, Avr.Instr.effect, Avr.Instr.jump, *,
          Ne.symm]
    · simp [watchdogCaptureOptibootResetCause, Avr.run, Avr.Instr.effect, Avr.Instr.jump, *,
        Ne.symm]
  obtain ⟨s', hrun, hcause, hmagicA, hmagicB, hprevious⟩ := hrun
  obtain ⟨hreg, hmem⟩ := Avr.run_frame hrun
  refine ⟨s', hrun, ?_, fun r hr => hreg r ?_, fun address ha => hmem address ?_⟩
  · unfold NoinitLayout.watchdog Watchdog.capture
    rw [hcause, hmagicA, hmagicB, hprevious]
    rfl
  · have hr' : ¬ 24 = r := fun he => hr he.symm
    simp [watchdogCaptureOptibootResetCause, Avr.Instr.writesReg, hr']
  · simp only [List.mem_cons, List.not_mem_nil, or_false, not_or] at ha
    obtain ⟨h₁, h₂, h₃, h₄⟩ := ha
    simp [watchdogCaptureOptibootResetCause, Avr.Instr.writesMem, Ne.symm h₁, Ne.symm h₂,
      Ne.symm h₃, Ne.symm h₄]

/-! ## The board -/

/-- The firmware, with the watchdog's interrupt left to the watchdog. -/
def boardFirmware : Machine Firmware Dispatch Unit Interrupt where
  task := Dispatch.program
  ready _ _ := true
  env x s := if x = .wdt then none else x.handler s

/-- What a reset comes with: the cause that the bootloader passes, what
`main` reads, and what the registers and the other variables hold. -/
structure Reboot where
  cause : Byte
  boot : Boot
  left : Firmware

/-- A session that has ended: whether the watchdog's interrupt ran in it,
and the cause of the reset that ended it. -/
structure Session where
  timedOut : Bool
  cause : Byte
  deriving DecidableEq, Repr

/-- **The board**: the firmware, the watchdog's counter and its interrupt
enable, and for the record whether the interrupt has run in this session
and how those before it ended. -/
structure Board where
  config : FirmwareConfig
  watchdogMs : ℕ
  wdie : Bool
  timedOut : Bool
  ended : List Session

/-- The `.noinit` variables. -/
def Board.noinit (b : Board) : Watchdog := b.config.state.profiler.watchdog

/-- What `main` starts from: the captured variables, and the rest as it
is. -/
def Reboot.found (reboot : Reboot) (w : Watchdog) : Firmware :=
  { reboot.left with
    accepted := []
    profiler := { reboot.left.profiler with watchdog := w.capture reboot.cause } }

/-- A new session, up to `sei()`. `watchdog_enable` has set `WDIE`. -/
def Reboot.start (reboot : Reboot) (w : Watchdog) (ended : List Session) : Board where
  config := firmwareStart reboot.boot (reboot.found w)
  watchdogMs := 0
  wdie := true
  timedOut := false
  ended := ended

/-- A reset. -/
def Board.reset (reboot : Reboot) (b : Board) : Board :=
  reboot.start b.noinit (b.ended ++ [⟨b.timedOut, reboot.cause⟩])

/-- The interrupt of the watchdog. The hardware clears `WDIE` with it. -/
def Board.interrupt (b : Board) : Board :=
  let s := b.config.state
  { b with
    config := { b.config with
      state := { s with profiler := { s.profiler with watchdog := wdtVect s.profiler.watchdog } } }
    watchdogMs := 0
    wdie := false
    timedOut := true }

/-- What happens to the board. A `tick` is a millisecond of the watchdog's
own clock. -/
inductive BoardEvent where
  | firmware (e : FirmwareEvent)
  | watchdogKick
  | tick (reboot : Reboot)
  | reset (reboot : Reboot)

/-- **One step of the board**, with a time-out of `timeout` milliseconds.
The loop of `main` kicks the watchdog where no task is running. -/
def Board.step (timeout : ℕ) (b : Board) : BoardEvent → Option Board
  | .firmware e => (boardFirmware.step b.config e).map fun c => { b with config := c }
  | .watchdogKick => if b.config.running.isNone then some { b with watchdogMs := 0 } else none
  | .tick reboot =>
    if b.watchdogMs + 1 < timeout then some { b with watchdogMs := b.watchdogMs + 1 }
    else if b.wdie then some b.interrupt
    else some (b.reset reboot)
  | .reset reboot => some (b.reset reboot)

/-- A run of the board. -/
def Board.run (timeout : ℕ) : Board → List BoardEvent → Option Board
  | b, [] => some b
  | b, x :: xs => (b.step timeout x).bind fun b' => b'.run timeout xs

variable {timeout : ℕ} {b b' b'' : Board} {reboot : Reboot} {x : BoardEvent}
variable {xs : List BoardEvent}

/-- A run begins with its first event. -/
theorem Board.run_cons_eq_some :
    b.run timeout (x :: xs) = some b'' ↔
      ∃ b', b.step timeout x = some b' ∧ b'.run timeout xs = some b'' :=
  Option.bind_eq_some_iff

/-- What every step keeps, a run keeps. -/
theorem Board.run_kept {I : Board → Prop}
    (hstep : ∀ b x b', I b → b.step timeout x = some b' → I b') (hb : I b)
    (h : b.run timeout xs = some b') : I b' := by
  induction xs generalizing b with
  | nil =>
    obtain rfl : b = b' := Option.some.inj h
    exact hb
  | cons x xs ih =>
    obtain ⟨b₁, hs, hrun⟩ := Board.run_cons_eq_some.mp h
    exact ih (hstep b x b₁ hb hs) hrun

/-- **What one step of a board is**: an event of the firmware, a tick of the
watchdog, or a reset. -/
theorem Board.step_cases (h : b.step timeout x = some b') :
    (∃ e c, x = .firmware e ∧ boardFirmware.step b.config e = some c ∧
      b' = { b with config := c }) ∨
    (x = .watchdogKick ∧ b.config.running = none ∧ b' = { b with watchdogMs := 0 }) ∨
    (∃ reboot, x = .tick reboot ∧ b.watchdogMs + 1 < timeout ∧
      b' = { b with watchdogMs := b.watchdogMs + 1 }) ∨
    (∃ reboot, x = .tick reboot ∧ timeout ≤ b.watchdogMs + 1 ∧ b.wdie = true ∧
      b' = b.interrupt) ∨
    (∃ reboot, x = .tick reboot ∧ timeout ≤ b.watchdogMs + 1 ∧ b.wdie = false ∧
      b' = b.reset reboot) ∨
    ∃ reboot, x = .reset reboot ∧ b' = b.reset reboot := by
  rcases x with e | _ | reboot | reboot
  · obtain ⟨c, hc, rfl⟩ := Option.map_eq_some_iff.mp h
    exact .inl ⟨e, c, rfl, hc, rfl⟩
  · simp only [Board.step] at h
    split at h
    · rename_i hidle
      exact .inr (.inl ⟨rfl, Option.isNone_iff_eq_none.mp hidle, (Option.some.inj h).symm⟩)
    · cases h
  · simp only [Board.step] at h
    split at h
    · rename_i hlt
      exact .inr (.inr (.inl ⟨reboot, rfl, hlt, (Option.some.inj h).symm⟩))
    · rename_i hge
      have hle : timeout ≤ b.watchdogMs + 1 := Nat.le_of_not_lt hge
      split at h
      · rename_i hwdie
        exact .inr (.inr (.inr (.inl ⟨reboot, rfl, hle, hwdie, (Option.some.inj h).symm⟩)))
      · rename_i hwdie
        have hoff : b.wdie = false := Bool.eq_false_iff.mpr hwdie
        exact .inr (.inr (.inr (.inr (.inl ⟨reboot, rfl, hle, hoff, (Option.some.inj h).symm⟩))))
  · exact .inr (.inr (.inr (.inr (.inr ⟨reboot, rfl, (Option.some.inj h).symm⟩))))

/-! ## The marker -/

/-- Nothing but the watchdog's interrupt writes the `.noinit` variables. -/
def KeepsWatchdog (s s' : Firmware) : Prop := s'.profiler.watchdog = s.profiler.watchdog

/-- **No task touches the watchdog's variables**, whatever it is asked
to do. -/
theorem within_watchdog (d : Dispatch) : d.program.Within KeepsWatchdog := by
  have hrefl : ∀ s, KeepsWatchdog s s := fun s => rfl
  have hstart : (recordStart d.task.id d.task.periodMs d.readings).Within
      fun p p' => p'.watchdog = p.watchdog := Prog.within_write fun p => rfl
  have hend : (recordEnd d.task.id d.task.periodMs d.readings).Within
      fun p p' => p'.watchdog = p.watchdog :=
    .write_bind (fun p => rfl) (Prog.within_write fun p => rfl)
  have hcontrol : ∀ p : Prog Control Unit,
      (p.zoom Firmware.controlLens).Within KeepsWatchdog :=
    fun p => Prog.within_zoom _ p fun s _ => hrefl s
  refine (hstart.zoom _ fun s p h => h).bind fun _ => Prog.Within.bind ?_ fun _ =>
    hend.zoom _ fun s p h => h
  obtain ⟨task, r⟩ := d
  rcases task with _ | _ | _ | _
  · exact hcontrol _
  · exact hcontrol _
  · exact hcontrol _
  · exact within_communication hrefl (fun s _ => hrefl s) (fun s _ => hrefl s)
      (fun s _ _ => hrefl s) (fun s _ _ => hrefl s) (fun s _ => hrefl s) (hcontrol _)

/-- No interrupt touches the watchdog's variables but the watchdog's own. -/
theorem keepsWatchdog_of_env (x : Interrupt) (s s' : Firmware)
    (h : boardFirmware.env x s = some s') : KeepsWatchdog s s' := by
  obtain ⟨hx, h⟩ : x ≠ .wdt ∧ x.handler s = some s' := by
    simpa [boardFirmware] using h
  rcases x with byte | _ | _ | captureTick | _ <;>
    simp only [Interrupt.handler, Option.ite_none_right_eq_some, Option.some.injEq] at h
  · exact h.2 ▸ rfl
  · exact h.2 ▸ rfl
  · exact h.2 ▸ rfl
  · exact h.2 ▸ rfl
  · exact absurd rfl hx

/-- The initialisations in `main` leave the watchdog's variables alone. -/
theorem boot_watchdog (boot : Boot) (s : Firmware) :
    (s.boot boot).profiler.watchdog = s.profiler.watchdog := by
  let C : Contract Firmware := ⟨Eq, fun _ _ => True, fun _ => True⟩
  have hinit : Triple C (KeepsWatchdog s) (mainInit boot) fun _ => KeepsWatchdog s := by
    refine Prog.Within.triple (R := KeepsWatchdog) ?_ (fun s => rfl)
      (fun t t' h he => he ▸ h) (fun _ _ => trivial) fun t t' h hk => ⟨trivial, hk.trans h⟩
    exact (Prog.within_zoom _ _ fun s _ => rfl).bind fun _ => Prog.within_write fun s => rfl
  exact hinit.uninterrupted rfl (uninterrupted_mainInit boot s)

/-- **What a session knows of the one before it.** -/
structure Board.Tells (w : Watchdog) (cause : Byte) (b : Board) : Prop where
  within : RunsWithin KeepsWatchdog b.config
  wdie : b.wdie = !b.timedOut
  marked : b.noinit.Marked ↔ b.timedOut = true
  /-- The session of the power-on tells what it found in memory. -/
  first : b.ended = [] → b.noinit.resetCause = cause ∧
    b.noinit.previousTimeoutDetected = if w.Marked then 1 else 0
  later : ∀ earlier session, b.ended = earlier ++ [session] →
    b.noinit.resetCause = session.cause ∧
      b.noinit.previousTimeoutDetected = if session.timedOut then 1 else 0

/-- The capture clears the marker, whatever it found. -/
theorem not_marked_capture (cause : Byte) (w : Watchdog) : ¬ (w.capture cause).Marked := by
  rintro ⟨hmagic, -⟩
  have hne : (0 : Byte) ≠ watchdogEventMagicA := by decide
  exact hne hmagic

/-- A session starts with what the capture made of the memory that
survived. -/
theorem noinit_start (w : Watchdog) (ended : List Session) :
    (reboot.start w ended).noinit = w.capture reboot.cause := by
  show ((reboot.found w).boot reboot.boot).profiler.watchdog = _
  rw [boot_watchdog]
  rfl

/-- A step that keeps the variables. -/
theorem Board.Tells.of_kept {w : Watchdog} {cause : Byte} (h : b.Tells w cause)
    (hrun : RunsWithin KeepsWatchdog b'.config) (hnoinit : b'.noinit = b.noinit)
    (hwdie : b'.wdie = b.wdie) (htimed : b'.timedOut = b.timedOut)
    (hended : b'.ended = b.ended) : b'.Tells w cause where
  within := hrun
  wdie := by rw [hwdie, htimed, h.wdie]
  marked := by rw [hnoinit, htimed, h.marked]
  first he := by
    rw [hnoinit]
    exact h.first (hended ▸ he)
  later earlier session he := by
    rw [hnoinit]
    exact h.later earlier session (hended ▸ he)

/-- A reset takes the marker, and the next session tells of the one that
ended. -/
theorem Board.Tells.reset {w : Watchdog} {cause : Byte} (h : b.Tells w cause) (reboot : Reboot) :
    (b.reset reboot).Tells w cause := by
  have hnoinit : (b.reset reboot).noinit = b.noinit.capture reboot.cause := noinit_start _ _
  refine ⟨runsWithin_of_idle rfl, rfl, ?_, ?_, ?_⟩
  · rw [hnoinit]
    exact ⟨fun hm => absurd hm (not_marked_capture _ _), fun ht => by cases ht⟩
  · intro he
    cases List.append_eq_nil_iff.mp he with
    | intro _ hcons => cases hcons
  · intro earlier session he
    obtain ⟨-, hlast⟩ := List.append_inj' he rfl
    obtain rfl : (⟨b.timedOut, reboot.cause⟩ : Session) = session := by simpa using hlast
    rw [hnoinit]
    refine ⟨rfl, ?_⟩
    show (if b.noinit.Marked then (1 : Byte) else 0) = _
    simp only [h.marked]

/-- **One step keeps account** of what the marker and the reports tell. -/
theorem Board.Tells.step {w : Watchdog} {cause : Byte} (h : b.Tells w cause)
    (hstep : b.step timeout x = some b') : b'.Tells w cause := by
  obtain ⟨e, c, rfl, hc, rfl⟩ | ⟨rfl, -, rfl⟩ | ⟨reboot, rfl, -, rfl⟩ |
    ⟨reboot, rfl, -, -, rfl⟩ | ⟨reboot, rfl, -, -, rfl⟩ | ⟨reboot, rfl, rfl⟩ :=
    Board.step_cases hstep
  · obtain ⟨hkept, hrun⟩ :=
      step_within (R := KeepsWatchdog) (fun s => rfl) within_watchdog keepsWatchdog_of_env
        h.within hc
    exact h.of_kept hrun hkept rfl rfl rfl
  · exact h.of_kept h.within rfl rfl rfl rfl
  · exact h.of_kept h.within rfl rfl rfl rfl
  · -- the interrupt leaves its marker, and what was taken at the start stays
    exact ⟨h.within, rfl, ⟨fun _ => rfl, fun _ => ⟨rfl, rfl⟩⟩, h.first, h.later⟩
  · exact h.reset reboot
  · exact h.reset reboot

/-- The first session tells of the memory it was powered on with. -/
theorem tells_start (w : Watchdog) (reboot : Reboot) :
    (reboot.start w []).Tells w reboot.cause := by
  have hnoinit : (reboot.start w []).noinit = w.capture reboot.cause := noinit_start w []
  refine ⟨runsWithin_of_idle rfl, rfl, ?_, ?_, ?_⟩
  · rw [hnoinit]
    exact ⟨fun hm => absurd hm (not_marked_capture _ _), fun ht => by cases ht⟩
  · intro _
    rw [hnoinit]
    exact ⟨rfl, rfl⟩
  · intro earlier session he
    have hlen := congrArg List.length he
    rw [List.length_append] at hlen
    simp [Reboot.start] at hlen

/-- **A run keeps account**, from any board that does. -/
theorem Board.Tells.run {w : Watchdog} {cause : Byte} (hb : b.Tells w cause)
    (h : b.run timeout xs = some b') : b'.Tells w cause :=
  Board.run_kept (fun _ _ _ hb hs => hb.step hs) hb h

/-- **The marker tells how the session before ended.** Over any run from a
power-on with whatever memory held, with resets at any moment: the marker
of a session is set exactly if the watchdog's interrupt ran in the session
before it, and the cause is that of the reset between them. -/
theorem marker_tells (w : Watchdog) (reboot : Reboot)
    (h : (reboot.start w []).run timeout xs = some b) : b.Tells w reboot.cause :=
  (tells_start w reboot).run h

/-- A reset that finds everything at zero, with the watchdog's flag. -/
def watchdogReboot : Reboot := ⟨0x08, ⟨0, 0, 0, 0⟩, .zeroed⟩

/-- Two time-outs without a kick: the session that follows finds the
marker. -/
theorem marker_tells_timeout :
    ∃ b, (watchdogReboot.start ⟨0, 0, 0, 0⟩ []).run 1
        [.tick watchdogReboot, .tick watchdogReboot] = some b ∧
      b.Tells ⟨0, 0, 0, 0⟩ 0x08 ∧ b.noinit.previousTimeoutDetected = 1 := by
  have htells : Board.Tells ⟨0, 0, 0, 0⟩ 0x08
      (((watchdogReboot.start ⟨0, 0, 0, 0⟩ []).interrupt).reset watchdogReboot) :=
    marker_tells ⟨0, 0, 0, 0⟩ watchdogReboot
      (rfl : (watchdogReboot.start ⟨0, 0, 0, 0⟩ []).run 1
        [.tick watchdogReboot, .tick watchdogReboot] = some _)
  exact ⟨_, rfl, htells, (htells.later [] ⟨true, 0x08⟩ rfl).2⟩

/-! ## A requested block -/

/-- **A block is pending exactly if one was accepted** in this session. -/
def Firmware.BlockPending (s : Firmware) : Prop :=
  s.Blocked ↔ s.protocol.slots.watchdogBlockRequestPending ≠ 0

/-- What an access makes of it. -/
def KeepsPending (s s' : Firmware) : Prop :=
  s.accepted <+: s'.accepted ∧ (s.BlockPending → s'.BlockPending)

section

variable {s s' : Firmware}

theorem keepsPending_refl (s : Firmware) : KeepsPending s s := ⟨List.prefix_rfl, fun h => h⟩

/-- What accepts no frame and keeps the block flag keeps a pending block. -/
theorem keepsPending_of_same (ha : s'.accepted = s.accepted)
    (hb : KeepsBlock s.protocol.slots s'.protocol.slots) : KeepsPending s s' := by
  refine ⟨by simp only [ha, List.prefix_rfl], fun h => ?_⟩
  unfold Firmware.BlockPending Firmware.Blocked
  rw [ha, hb]
  exact h

/-- **A byte** sets the flag with the frame it completes. -/
theorem keepsPending_processByte (byte : Byte) (nowMs : Word32) (s : Firmware) :
    KeepsPending s (s.processByte byte nowMs) := by
  have hslots := slots_protocolProcessByte byte nowMs s.protocol
  rcases hf : handledFrame byte s.protocol with _ | frame
  · rw [hf] at hslots
    refine keepsPending_of_same (by simp [Firmware.processByte, hf]) ?_
    show (protocolProcessByte byte nowMs s.protocol).slots.watchdogBlockRequestPending = _
    rw [hslots]
  · rw [hf] at hslots
    have haccepted : (s.processByte byte nowMs).accepted = s.accepted ++ [frame] := by
      simp [Firmware.processByte, hf]
    have hpending : (s.processByte byte nowMs).protocol.slots = protocolHandleFrame frame
        s.protocol.slots := hslots
    refine ⟨haccepted ▸ List.prefix_append _ _, fun h => ?_⟩
    unfold Firmware.BlockPending Firmware.Blocked
    rw [haccepted, hpending]
    by_cases hblock : frame.request = .block
    · rw [protocolHandleFrame_block hblock]
      have hset : (1 : Byte) ≠ 0 := by decide
      exact ⟨fun _ => hset, fun _ =>
        ⟨frame, List.mem_append_right _ List.mem_cons_self, hblock⟩⟩
    · rw [keepsBlock_handleFrame hblock]
      constructor
      · rintro ⟨old, hmem, hold⟩
        rcases List.mem_append.mp hmem with hmem | hmem
        · exact h.mp ⟨old, hmem, hold⟩
        · obtain rfl : old = frame := List.mem_singleton.mp hmem
          exact absurd hold hblock
      · intro hne
        obtain ⟨old, hmem, hold⟩ := h.mpr hne
        exact ⟨old, List.mem_append_left _ hmem, hold⟩

end

/-- An execution, for whether a block is pending. -/
def blockContract : Contract Firmware where
  rely s s' := s'.protocol = s.protocol ∧ s'.accepted = s.accepted
  guar := KeepsPending
  inv _ := True

/-- No block is pending. -/
def Firmware.Clear (s : Firmware) : Prop := s.protocol.slots.watchdogBlockRequestPending = 0

theorem stable_slots_block (P : Slots → Prop) :
    Stable blockContract fun s => P s.protocol.slots := by
  rintro s s' h ⟨hp, -⟩
  rw [hp]
  exact h

/-- A program that neither sets nor reads the flag. -/
theorem clear_of_within {α : Type} {p : Prog Firmware α}
    (h : p.Within fun s s' => s'.accepted = s.accepted ∧
      KeepsBlock s.protocol.slots s'.protocol.slots) :
    Triple blockContract Firmware.Clear p fun _ => Firmware.Clear :=
  h.triple (fun _ => ⟨rfl, rfl⟩) (stable_slots_block fun q => q.watchdogBlockRequestPending = 0)
    (fun _ _ => trivial) fun _ _ hc hk => ⟨keepsPending_of_same hk.1 hk.2, hk.2.trans hc⟩

/-- **The block is not left**: what returns from it found none pending. -/
theorem block_serveBlock :
    Triple blockContract (fun _ => True) serveBlock fun _ => Firmware.Clear := by
  refine Triple.read_bind
    (B := fun requested s => s.protocol.slots.watchdogBlockRequestPending = requested)
    (Stable.const True) (fun _ _ => trivial) keepsPending_refl (fun s _ => rfl) fun requested => ?_
  split
  · -- the loop that follows the safe outputs has no end
    refine Triple.bind ?_ fun _ => Triple.forever (C := blockContract) (Stable.const True)
      (fun _ _ => trivial) keepsPending_refl
    have hout := Triple.zoom (C := blockContract) (I := fun _ => True) Firmware.controlLens
      setSafeOutputs (Stable.const True) (fun _ _ => trivial) fun s c _ =>
        ⟨keepsPending_of_same rfl rfl, trivial⟩
    exact hout.conseq (fun _ _ => trivial) fun _ _ h => h
  · rename_i hzero
    exact Triple.ret fun s hs => hs.trans (not_not.mp hzero)

/-- **A pass that returns leaves no block pending.** -/
theorem block_communication (r : Readings) :
    Triple blockContract (fun _ => True) (communication r) fun _ => Firmware.Clear := by
  have hpass : ∀ {α : Type} {p : Prog Firmware α}, p.Within KeepsPending →
      Triple blockContract (fun _ => True) p fun _ _ => True := fun h =>
    h.triple keepsPending_refl (Stable.const True) (fun _ _ => trivial) fun _ _ _ hk =>
      ⟨hk, trivial⟩
  have hrefl : ∀ s : Firmware, s.accepted = s.accepted ∧
      KeepsBlock s.protocol.slots s.protocol.slots := fun _ => ⟨rfl, rfl⟩
  have hcheck : (Prog.write (Firmware.checkTimeout r.nowMs)).Within KeepsPending := by
    refine Prog.within_write fun s => keepsPending_of_same rfl ?_
    show (protocolCheckTimeout r.nowMs s.protocol).slots.watchdogBlockRequestPending = _
    rw [slots_protocolCheckTimeout]
  have hdrain : (Prog.loop (drainByte r) 0 (.ret ())).Within KeepsPending := by
    refine ⟨fun n => ?_, Prog.within_ret _⟩
    have hrx : ∀ s u, KeepsPending s (Firmware.rxLens.set u s) := fun s u =>
      keepsPending_of_same rfl rfl
    refine (Prog.within_zoom _ _ hrx).bind fun byte => ?_
    rcases byte with _ | byte
    · exact Prog.within_ret _
    · exact .write_bind (keepsPending_processByte byte _) (Prog.within_ret _)
  refine (hpass hcheck).bind fun _ => (hpass hdrain).bind fun _ => block_serveBlock.bind fun _ => ?_
  refine (clear_of_within (within_serveResponse hrefl (fun s u => hrefl s)
    fun s q hq => ⟨rfl, hq⟩)).bind fun _ => ?_
  exact clear_of_within (within_serveStatuses hrefl (fun s u => hrefl s)
    (fun s q hq => ⟨rfl, hq⟩) (fun s m => hrefl s) _)

/-- With its bookkeeping, and the other tasks. -/
theorem block_program (d : Dispatch) :
    Triple blockContract Firmware.Clear d.program fun _ => Firmware.Clear := by
  have hstable : Stable blockContract Firmware.Clear :=
    stable_slots_block fun q => q.watchdogBlockRequestPending = 0
  have hprofiler : ∀ s p, Firmware.Clear s →
      blockContract.guar s (Firmware.profilerLens.set p s) ∧
        (Firmware.profilerLens.set p s).Clear :=
    fun s p h => ⟨keepsPending_of_same rfl rfl, h⟩
  have hcontrol : ∀ p : Prog Control Unit, Triple blockContract Firmware.Clear
      (p.zoom Firmware.controlLens) fun _ => Firmware.Clear := fun p =>
    Triple.zoom _ p hstable (fun _ _ => trivial) fun s c h => ⟨keepsPending_of_same rfl rfl, h⟩
  have hbody : Triple blockContract Firmware.Clear ((d.task.body d.readings).zoom (.id _))
      fun _ => Firmware.Clear := by
    rw [Prog.zoom_id]
    obtain ⟨task, r⟩ := d
    rcases task with _ | _ | _ | _
    · exact hcontrol _
    · exact hcontrol _
    · exact hcontrol _
    · exact (block_communication r).conseq (fun _ _ => trivial) fun _ _ h => h
  have hprogram := Dispatch.triple (L := .id Firmware) hstable hstable (fun _ _ => trivial)
    (fun _ _ => trivial) hprofiler hprofiler hbody
  rwa [Prog.zoom_id] at hprogram

theorem block_sound :
    Sound boardFirmware blockContract Firmware.Clear fun _ _ => Firmware.Clear where
  env x s s' h := by
    obtain ⟨-, h⟩ : x ≠ .wdt ∧ x.handler s = some s' := by
      simpa [boardFirmware] using h
    exact ⟨protocol_of_handler h, accepted_of_handler h⟩
  stable := stable_slots_block fun q => q.watchdogBlockRequestPending = 0
  task d := (block_program d).conseq (fun _ h => h.1) fun _ _ h => h
  idle _ _ _ h := h

/-- What holds of the firmware of a board. -/
structure Board.Sane (timeout : ℕ) (b : Board) : Prop where
  safe : SafeConfig blockContract Firmware.Clear (fun _ _ => Firmware.Clear) b.config
  pending : b.config.state.BlockPending
  wdie : b.wdie = !b.timedOut
  early : b.watchdogMs < timeout

/-- A session starts with a timer that has just been enabled. -/
theorem sane_start (ht : 0 < timeout) (w : Watchdog) (ended : List Session) :
    (reboot.start w ended).Sane timeout := by
  obtain ⟨-, hprotocol, haccepted⟩ := boot_spec reboot.boot (reboot.found w)
  have hclear : ((reboot.found w).boot reboot.boot).Clear :=
    congrArg (fun p : Protocol => p.slots.watchdogBlockRequestPending) hprotocol
  refine ⟨hclear, ?_, rfl, ht⟩
  constructor
  · rintro ⟨frame, hmem, -⟩
    rw [show (reboot.start w ended).config.state.accepted = [] from haccepted] at hmem
    cases hmem
  · intro hne
    exact absurd hclear hne

/-- The rest of the machine does what `firmware` does. -/
theorem Board.Sane.firmware {e : FirmwareEvent} {c : FirmwareConfig} (h : b.Sane timeout)
    (hc : boardFirmware.step b.config e = some c) :
    ({ b with config := c } : Board).Sane timeout ∧
      b.config.state.accepted <+: c.state.accepted := by
  have hsafe := block_sound.staged.step_config h.safe hc
  have hkeep : KeepsPending b.config.state c.state := by
    rcases block_sound.moves h.safe hc with he | ⟨hp, ha⟩ | hg
    · rw [he]
      exact keepsPending_refl _
    · exact keepsPending_of_same ha (by rw [KeepsBlock, hp])
    · exact hg
  exact ⟨⟨hsafe, hkeep.2 h.pending, h.wdie, h.early⟩, hkeep.1⟩

/-- **A board whose session accepted a block** has a task in progress. -/
theorem Board.Sane.busy (h : b.Sane timeout) (hblock : b.config.state.Blocked) :
    b.config.running ≠ none := by
  intro hidle
  exact h.pending.mp hblock (h.safe.idle hidle)

/-- The watchdog's interrupt is none of the firmware's business. -/
theorem Board.Sane.interrupt (h : b.Sane timeout) : b.interrupt.Sane timeout := by
  have hrely : blockContract.rely b.config.state b.interrupt.config.state := ⟨rfl, rfl⟩
  refine ⟨?_, h.pending, rfl, Nat.zero_lt_of_lt h.early⟩
  rcases hr : b.config.running with _ | ⟨d, p⟩
  · have hidle := block_sound.stable _ _ (h.safe.idle hr) hrely
    simpa only [SafeConfig, StagedConfig, Board.interrupt, hr] using hidle
  · obtain ⟨hp, hsafe⟩ := h.safe.running hr
    have hafter : ∀ n, Safe blockContract (fun _ => Firmware.Clear) n p
        b.interrupt.config.state := fun n => ((safe_succ_iff hp).mp (hsafe (n + 1))).2.1 _ hrely
    simpa only [SafeConfig, StagedConfig, Board.interrupt, hr] using And.intro hp hafter

/-- **One step of the board** keeps what holds of its firmware. -/
theorem Board.Sane.step (h : b.Sane timeout) (hstep : b.step timeout x = some b') :
    b'.Sane timeout := by
  have hpos : 0 < timeout := Nat.zero_lt_of_lt h.early
  obtain ⟨e, c, rfl, hc, rfl⟩ | ⟨rfl, -, rfl⟩ | ⟨reboot, rfl, hlt, rfl⟩ |
    ⟨reboot, rfl, -, -, rfl⟩ | ⟨reboot, rfl, -, -, rfl⟩ | ⟨reboot, rfl, rfl⟩ :=
    Board.step_cases hstep
  · exact (h.firmware hc).1
  · exact ⟨h.safe, h.pending, h.wdie, hpos⟩
  · exact ⟨h.safe, h.pending, h.wdie, hlt⟩
  · exact h.interrupt
  · exact sane_start hpos _ _
  · exact sane_start hpos _ _

/-- The sessions that have ended stay. -/
theorem ended_step (hstep : b.step timeout x = some b') : b.ended <+: b'.ended := by
  obtain ⟨e, c, rfl, hc, rfl⟩ | ⟨rfl, -, rfl⟩ | ⟨reboot, rfl, hlt, rfl⟩ |
    ⟨reboot, rfl, -, -, rfl⟩ | ⟨reboot, rfl, -, -, rfl⟩ | ⟨reboot, rfl, rfl⟩ :=
    Board.step_cases hstep
  · exact List.prefix_rfl
  · exact List.prefix_rfl
  · exact List.prefix_rfl
  · exact List.prefix_rfl
  · exact List.prefix_append _ _
  · exact List.prefix_append _ _

/-- The sessions that have ended stay on record. -/
theorem ended_run (h : b.run timeout xs = some b') : b.ended <+: b'.ended :=
  Board.run_kept (I := fun c => b.ended <+: c.ended) (fun _ _ _ hc hs => hc.trans (ended_step hs))
    List.prefix_rfl h

/-! ## When the watchdog resets -/

/-- Whether an event is a millisecond of the watchdog's clock. -/
def BoardEvent.isTick : BoardEvent → Bool
  | .tick _ => true
  | _ => false

/-- Whether it is a kick. -/
def BoardEvent.isKick : BoardEvent → Bool
  | .watchdogKick => true
  | _ => false

/-- Whether it is a reset from outside. -/
def BoardEvent.isReset : BoardEvent → Bool
  | .reset _ => true
  | _ => false

/-- The milliseconds of a run. -/
def boardMs (xs : List BoardEvent) : ℕ := xs.countP BoardEvent.isTick

theorem boardMs_cons : boardMs (x :: xs) = boardMs xs + if x.isTick then 1 else 0 :=
  List.countP_cons

/-- The milliseconds until an unkicked watchdog resets. -/
def Board.msToReset (timeout : ℕ) (b : Board) : ℕ :=
  timeout - b.watchdogMs + if b.wdie then timeout else 0

/-- **A step of a board that has accepted a block**: the task in progress
is not left and time runs out, or the watchdog resets after its interrupt. -/
theorem Board.Sane.blocked_step (h : b.Sane timeout) (hblock : b.config.state.Blocked)
    (hx : x.isReset = false) (hstep : b.step timeout x = some b') :
    (b'.ended = b.ended ∧ b'.config.state.Blocked ∧
      b'.config.finished = b.config.finished ∧ x.isKick = false ∧
      b'.msToReset timeout + (if x.isTick then 1 else 0) ≤ b.msToReset timeout) ∨
    ∃ cause, b'.ended = b.ended ++ [⟨true, cause⟩] := by
  have hbusy := h.busy hblock
  have hearly := h.early
  obtain ⟨e, c, rfl, hc, rfl⟩ | ⟨rfl, hidle, rfl⟩ | ⟨reboot, rfl, hlt, rfl⟩ |
    ⟨reboot, rfl, hge, hwdie, rfl⟩ | ⟨reboot, rfl, hge, hwdie, rfl⟩ | ⟨reboot, rfl, rfl⟩ :=
    Board.step_cases hstep
  · obtain ⟨hsane, frames, hframes⟩ := h.firmware hc
    have hblock' : c.state.Blocked := by
      obtain ⟨frame, hmem, hframe⟩ := hblock
      exact ⟨frame, hframes ▸ List.mem_append_left _ hmem, hframe⟩
    refine .inl ⟨rfl, hblock', ?_, rfl, Nat.le_refl _⟩
    -- a dispatch that returned would leave the machine idle
    have hlive : c.running ≠ none := hsane.busy hblock'
    obtain ⟨d, -, hr, -⟩ | ⟨d, p, p', s', -, hr, -, rfl⟩ | ⟨_, s', -, -, rfl⟩ :=
      Machine.step_cases hc
    · exact absurd hr hbusy
    · obtain ⟨r, -, hs⟩ | ⟨-, hs⟩ := settle_cases s' d p' b.config.finished
      · rw [hs] at hlive
        exact absurd rfl hlive
      · rw [hs]
    · rfl
  · exact absurd hidle hbusy
  · refine .inl ⟨rfl, hblock, rfl, rfl, ?_⟩
    simp only [Board.msToReset, BoardEvent.isTick, if_true]
    omega
  · refine .inl ⟨rfl, hblock, rfl, rfl, ?_⟩
    simp only [Board.msToReset, Board.interrupt, BoardEvent.isTick, hwdie, if_true]
    simp only [Bool.false_eq_true, if_false]
    omega
  · have htimed : b.timedOut = true := by
      have hoff := h.wdie
      rw [hwdie] at hoff
      simpa using hoff.symm
    refine .inr ⟨reboot.cause, ?_⟩
    rw [← htimed]
    rfl
  · cases hx

/-- **A run of a board that has accepted a block.** -/
theorem Board.Sane.blocked_run (h : b.Sane timeout) (hblock : b.config.state.Blocked)
    (hxs : ∀ x ∈ xs, x.isReset = false) (hrun : b.run timeout xs = some b') :
    (b'.ended = b.ended ∧ b'.config.state.Blocked ∧ b'.config.finished = b.config.finished ∧
      (∀ x ∈ xs, x.isKick = false) ∧
      b'.msToReset timeout + boardMs xs ≤ b.msToReset timeout) ∨
    ∃ cause later, b'.ended = b.ended ++ ⟨true, cause⟩ :: later := by
  induction xs generalizing b with
  | nil =>
    obtain rfl : b = b' := Option.some.inj hrun
    exact .inl ⟨rfl, hblock, rfl, fun x hx => (List.not_mem_nil hx).elim, Nat.le_refl _⟩
  | cons x xs ih =>
    obtain ⟨b₁, hs, hr⟩ := Board.run_cons_eq_some.mp hrun
    have hx : x.isReset = false := hxs x List.mem_cons_self
    obtain ⟨he, hblock₁, hfin, hkick, hms⟩ | ⟨cause, he⟩ := h.blocked_step hblock hx hs
    · obtain ⟨he', hblock', hfin', hkick', hms'⟩ | ⟨cause, later, he'⟩ :=
        ih (h.step hs) hblock₁ (fun y hy => hxs y (List.mem_cons_of_mem _ hy)) hr
      · refine .inl ⟨he'.trans he, hblock', hfin'.trans hfin, ?_, ?_⟩
        · intro y hy
          rcases List.mem_cons.mp hy with rfl | hy
          · exact hkick
          · exact hkick' y hy
        · rw [boardMs_cons]
          omega
      · exact .inr ⟨cause, later, by rw [he', he]⟩
    · -- what follows the reset only adds sessions
      obtain ⟨later, hlater⟩ := ended_run hr
      refine .inr ⟨cause, later, ?_⟩
      rw [← hlater, he, List.append_assoc]
      rfl

/-- A board that is running has some time left to its reset. -/
theorem Board.Sane.msToReset_pos (h : b.Sane timeout) : 0 < b.msToReset timeout := by
  have hearly := h.early
  simp only [Board.msToReset]
  omega

/-- The time left to a board is two time-outs at most: one to the interrupt
and one to the reset. -/
theorem msToReset_le : b.msToReset timeout ≤ 2 * timeout := by
  simp only [Board.msToReset]
  split <;> omega

/-- **An accepted block leads to a watchdog reset that leaves its marker.**
Wherever a run from a power-on has accepted a block request, and whatever
happens then short of a reset from outside: until the session ends no task
returns and the watchdog is not kicked, less than two time-outs pass, and
the session that follows finds the marker set. -/
theorem accepted_block_resets (ht : 0 < timeout) (w : Watchdog) (reboot : Reboot)
    {xs₀ : List BoardEvent} (h₀ : (reboot.start w []).run timeout xs₀ = some b)
    (hblock : b.config.state.Blocked) (hxs : ∀ x ∈ xs, x.isReset = false)
    (h : b.run timeout xs = some b') :
    (b'.ended = b.ended ∧ b'.config.finished = b.config.finished ∧
      (∀ x ∈ xs, x.isKick = false) ∧ boardMs xs < 2 * timeout) ∨
    ∃ cause later, b'.ended = b.ended ++ ⟨true, cause⟩ :: later ∧
      (later = [] → b'.noinit.previousTimeoutDetected = 1) := by
  have hsane : b.Sane timeout := Board.run_kept (I := Board.Sane timeout)
    (fun _ _ _ hb hs => hb.step hs) (sane_start ht w []) h₀
  obtain ⟨he, -, hfin, hkick, hms⟩ | ⟨cause, later, he⟩ := hsane.blocked_run hblock hxs h
  · have hpos : 0 < b'.msToReset timeout := Board.Sane.msToReset_pos <|
      Board.run_kept (I := Board.Sane timeout) (fun _ _ _ hb hs => hb.step hs) hsane h
    have hle : b.msToReset timeout ≤ 2 * timeout := msToReset_le
    exact .inl ⟨he, hfin, hkick, by omega⟩
  · refine .inr ⟨cause, later, he, ?_⟩
    rintro rfl
    have htells : b.Tells w reboot.cause :=
      Board.run_kept (fun _ _ _ hb hs => hb.step hs) (tells_start w reboot) h₀
    have htells' : b'.Tells w reboot.cause :=
      Board.run_kept (fun _ _ _ hb hs => hb.step hs) htells h
    exact (htells'.later _ _ he).2

/-- A block request arrives and is accepted. -/
def blockRequest : List BoardEvent :=
  ([0xA5, 0x01, 0x0A, 0x71, 0x00, 0x26] : List Byte).map
      (fun byte => .firmware (.env (.usartRx byte))) ++
    .firmware (.dispatch ⟨.communication, .zeroed⟩) ::
      List.replicate 44 (.firmware .foreground)

/-- One millisecond later the interrupt has run, and with the next the
board is reset. -/
theorem accepted_block_resets_request :
    ∃ b b', (watchdogReboot.start ⟨0, 0, 0, 0⟩ []).run 1 blockRequest = some b ∧
      b.config.state.Blocked ∧
      b.run 1 [.tick watchdogReboot, .tick watchdogReboot] = some b' ∧
      b'.noinit.previousTimeoutDetected = 1 := by
  have hrun : ((watchdogReboot.start ⟨0, 0, 0, 0⟩ []).run 1 blockRequest).map (fun b =>
      (b.config.state.accepted.any fun frame => decide (frame.request = .block), b.wdie,
        b.ended)) = some (true, true, []) := by
    decide +kernel
  obtain ⟨b, hb, hread⟩ := Option.map_eq_some_iff.mp hrun
  obtain ⟨hany, hwdie, hended⟩ : b.config.state.accepted.any
      (fun frame => decide (frame.request = .block)) = true ∧ b.wdie = true ∧ b.ended = [] := by
    simpa using hread
  have hblock : b.config.state.Blocked := by
    obtain ⟨frame, hmem, hframe⟩ := List.any_eq_true.mp hany
    exact ⟨frame, hmem, of_decide_eq_true hframe⟩
  have htimeout : b.run 1 [.tick watchdogReboot, .tick watchdogReboot] =
      some (b.interrupt.reset watchdogReboot) := by
    simp [Board.run, Board.step, hwdie, Board.interrupt]
  have hend : (b.interrupt.reset watchdogReboot).ended = [⟨true, 0x08⟩] := by
    show b.ended ++ [⟨true, 0x08⟩] = _
    rw [hended]
    rfl
  refine ⟨b, _, hb, hblock, htimeout, ?_⟩
  have hnoReset : ∀ x ∈ [BoardEvent.tick watchdogReboot, .tick watchdogReboot],
      x.isReset = false := by
    intro x hx
    obtain rfl : x = .tick watchdogReboot := by simpa using hx
    rfl
  obtain ⟨he, -⟩ | ⟨cause, later, he, hmarker⟩ := accepted_block_resets Nat.one_pos
    ⟨0, 0, 0, 0⟩ watchdogReboot hb hblock hnoReset htimeout
  · rw [hend, hended] at he
    cases he
  · refine hmarker ?_
    rw [hend, hended] at he
    obtain ⟨-, hlater⟩ : (0x08 : Byte) = cause ∧ later = [] := by simpa using he
    exact hlater

/-! ## When the interrupt runs -/

/-- **What one step is within a session.** -/
theorem Board.session_cases (hstep : b.step timeout x = some b') (hsame : b'.ended = b.ended) :
    (∃ e c, x = .firmware e ∧ b' = { b with config := c }) ∨
    (x = .watchdogKick ∧ b' = { b with watchdogMs := 0 }) ∨
    (∃ reboot, x = .tick reboot ∧ b.watchdogMs + 1 < timeout ∧
      b' = { b with watchdogMs := b.watchdogMs + 1 }) ∨
    (∃ reboot, x = .tick reboot ∧ timeout ≤ b.watchdogMs + 1 ∧ b' = b.interrupt) := by
  have hreset : ∀ reboot, b' ≠ b.reset reboot := by
    rintro reboot rfl
    have hadded : (b.reset reboot).ended = b.ended ++ [⟨b.timedOut, reboot.cause⟩] := rfl
    have hlen := congrArg List.length hsame
    rw [hadded, List.length_append, List.length_singleton] at hlen
    omega
  obtain ⟨e, c, rfl, -, rfl⟩ | ⟨rfl, -, rfl⟩ | ⟨reboot, rfl, hlt, rfl⟩ |
    ⟨reboot, rfl, hge, -, rfl⟩ | ⟨reboot, rfl, -, -, hr⟩ | ⟨reboot, rfl, hr⟩ :=
    Board.step_cases hstep
  · exact .inl ⟨e, c, rfl, rfl⟩
  · exact .inr (.inl ⟨rfl, rfl⟩)
  · exact .inr (.inr (.inl ⟨reboot, rfl, hlt, rfl⟩))
  · exact .inr (.inr (.inr ⟨reboot, rfl, hge, rfl⟩))
  · exact absurd hr (hreset reboot)
  · exact absurd hr (hreset reboot)

/-- A run within a session is one of steps within it. -/
theorem Board.session_cons (h : b.run timeout (x :: xs) = some b'') (hsame : b''.ended = b.ended) :
    ∃ b', b.step timeout x = some b' ∧ b'.run timeout xs = some b'' ∧ b'.ended = b.ended ∧
      b''.ended = b'.ended := by
  obtain ⟨b', hs, hr⟩ := Board.run_cons_eq_some.mp h
  have hle : b'.ended <+: b.ended := hsame ▸ ended_run hr
  have heq : b'.ended = b.ended :=
    hle.eq_of_length (Nat.le_antisymm hle.length_le (ended_step hs).length_le)
  exact ⟨b', hs, hr, heq, hsame.trans heq.symm⟩

/-- A stretch of a run without a kick. -/
structure Unkicked (xs mid : List BoardEvent) : Prop where
  within : mid <:+: xs
  noKick : ∀ x ∈ mid, x.isKick = false

/-- The time of two runs in a row is the sum of theirs. -/
theorem boardMs_append (xs ys : List BoardEvent) : boardMs (xs ++ ys) = boardMs xs + boardMs ys :=
  List.countP_append

/-- Where the interrupt has not run, the counter is the length of the
stretch since the last kick. -/
structure Board.Counts (past : List BoardEvent) (b : Board) : Prop where
  timedOut : b.timedOut = false
  since : ∃ before mid, past = before ++ mid ∧ (∀ x ∈ mid, x.isKick = false) ∧
    boardMs mid = b.watchdogMs

/-- **A step within a session** counts on, or runs the interrupt at the end
of a stretch that long. -/
theorem Board.Counts.step {past : List BoardEvent} (h : b.Counts past)
    (hstep : b.step timeout x = some b') (hsame : b'.ended = b.ended) :
    b'.Counts (past ++ [x]) ∨ b'.timedOut = true ∧
      ∃ mid, Unkicked (past ++ [x]) mid ∧ timeout ≤ boardMs mid := by
  obtain ⟨htimed, before, mid, rfl, hkick, hms⟩ := h
  -- an event that is no kick makes the stretch longer
  have hlonger : x.isKick = false → ∀ y ∈ mid ++ [x], y.isKick = false := by
    intro hnot y hy
    rcases List.mem_append.mp hy with hy | hy
    · exact hkick y hy
    · rw [List.mem_singleton.mp hy]
      exact hnot
  have hsplit : before ++ mid ++ [x] = before ++ (mid ++ [x]) := List.append_assoc ..
  obtain ⟨e, c, rfl, rfl⟩ | ⟨rfl, rfl⟩ | ⟨reboot, rfl, hlt, rfl⟩ | ⟨reboot, rfl, hge, rfl⟩ :=
    Board.session_cases hstep hsame
  · refine .inl ⟨htimed, before, _, hsplit, hlonger rfl, ?_⟩
    rw [boardMs_append, hms]
    rfl
  · exact .inl ⟨htimed, before ++ mid ++ [.watchdogKick], [], (List.append_nil _).symm,
      fun y hy => (List.not_mem_nil hy).elim, rfl⟩
  · refine .inl ⟨htimed, before, _, hsplit, hlonger rfl, ?_⟩
    rw [boardMs_append, hms]
    rfl
  · refine .inr ⟨rfl, mid ++ [.tick reboot], ⟨⟨before, [], ?_⟩, hlonger rfl⟩, ?_⟩
    · rw [List.append_nil, hsplit]
    · rw [boardMs_append, hms]
      exact hge

/-- Within a session the interrupt's mark stays. -/
theorem timedOut_step (h : b.timedOut = true) (hstep : b.step timeout x = some b')
    (hsame : b'.ended = b.ended) : b'.timedOut = true := by
  obtain ⟨e, c, rfl, rfl⟩ | ⟨rfl, rfl⟩ | ⟨reboot, rfl, hlt, rfl⟩ | ⟨reboot, rfl, hge, rfl⟩ :=
    Board.session_cases hstep hsame
  · exact h
  · exact h
  · exact h
  · rfl

/-- A time-out that a session has had stays with it until it ends. -/
theorem timedOut_run (h : b.timedOut = true) (hrun : b.run timeout xs = some b')
    (hsame : b'.ended = b.ended) : b'.timedOut = true := by
  induction xs generalizing b with
  | nil =>
    obtain rfl : b = b' := Option.some.inj hrun
    exact h
  | cons x xs ih =>
    obtain ⟨b₁, hs, hr, he, he'⟩ := Board.session_cons hrun hsame
    exact ih (timedOut_step h hs he) hr he'

/-- **A session without the interrupt** has counted throughout, and one
with it had a stretch that long. -/
theorem Board.Counts.run {past : List BoardEvent} (h : b.Counts past)
    (hrun : b.run timeout xs = some b') (hsame : b'.ended = b.ended) :
    b'.Counts (past ++ xs) ∨ b'.timedOut = true ∧
      ∃ mid, Unkicked (past ++ xs) mid ∧ timeout ≤ boardMs mid := by
  induction xs generalizing b past with
  | nil =>
    obtain rfl : b = b' := Option.some.inj hrun
    rw [List.append_nil]
    exact .inl h
  | cons x xs ih =>
    obtain ⟨b₁, hs, hr, he, he'⟩ := Board.session_cons hrun hsame
    have hsplit : past ++ x :: xs = past ++ [x] ++ xs := by
      rw [List.append_assoc]
      rfl
    rw [hsplit]
    rcases h.step hs he with hcount | ⟨htimed, mid, hmid, hms⟩
    · exact ih hcount hr he'
    · refine .inr ⟨timedOut_run htimed hr he', mid, ⟨?_, hmid.noKick⟩, hms⟩
      exact hmid.within.trans (List.prefix_append _ _).isInfix

/-- A stretch that is not kicked runs the counter up, or the interrupt. -/
theorem unkicked_run {mid : List BoardEvent} (hkick : ∀ x ∈ mid, x.isKick = false)
    (h : b.run timeout mid = some b') (hsame : b'.ended = b.ended) :
    b'.timedOut = true ∨ b'.watchdogMs = b.watchdogMs + boardMs mid := by
  induction mid generalizing b with
  | nil =>
    obtain rfl : b = b' := Option.some.inj h
    exact .inr rfl
  | cons x xs ih =>
    obtain ⟨b₁, hs, hr, he, he'⟩ := Board.session_cons h hsame
    have hrest := ih (fun y hy => hkick y (List.mem_cons_of_mem _ hy)) hr he'
    have hx : x.isKick = false := hkick x List.mem_cons_self
    rw [boardMs_cons]
    obtain ⟨e, c, rfl, rfl⟩ | ⟨rfl, rfl⟩ | ⟨reboot, rfl, hlt, rfl⟩ | ⟨reboot, rfl, hge, rfl⟩ :=
      Board.session_cases hs he
    · exact hrest
    · cases hx
    · refine hrest.imp_right fun hms => ?_
      rw [hms]
      simp only [BoardEvent.isTick, if_true]
      omega
    · exact .inl (timedOut_run rfl hr he')

/-- A run of two lists of events has a board between them. -/
theorem Board.run_append {ys : List BoardEvent} (h : b.run timeout (xs ++ ys) = some b'') :
    ∃ b', b.run timeout xs = some b' ∧ b'.run timeout ys = some b'' := by
  induction xs generalizing b with
  | nil => exact ⟨b, rfl, h⟩
  | cons x xs ih =>
    obtain ⟨b₁, hs, hr⟩ := Board.run_cons_eq_some.mp h
    obtain ⟨b', hr', hr''⟩ := ih hr
    exact ⟨b', Board.run_cons_eq_some.mpr ⟨b₁, hs, hr'⟩, hr''⟩

/-- In a session the interrupt runs exactly where a time-out passes without
a kick. -/
theorem timedOut_iff_unkicked (ht : 0 < timeout) (w : Watchdog) (reboot : Reboot)
    (ended : List Session) (h : (reboot.start w ended).run timeout xs = some b)
    (hsame : b.ended = ended) :
    b.timedOut = true ↔ ∃ mid, Unkicked xs mid ∧ timeout ≤ boardMs mid := by
  have hstart : (reboot.start w ended).Counts [] :=
    ⟨rfl, [], [], rfl, fun y hy => (List.not_mem_nil hy).elim, rfl⟩
  constructor
  · intro htimed
    rcases hstart.run h hsame with hcount | ⟨-, mid, hmid, hms⟩
    · rw [hcount.timedOut] at htimed
      cases htimed
    · exact ⟨mid, hmid, hms⟩
  · rintro ⟨mid, ⟨⟨before, after, rfl⟩, hkick⟩, hms⟩
    -- the run before the stretch, the stretch, and the rest
    obtain ⟨b₂, h₂, h₃⟩ := Board.run_append h
    obtain ⟨b₁, h₁, h₂⟩ := Board.run_append h₂
    have hle₁ : ended <+: b₁.ended := ended_run h₁
    have hle₂ : b₁.ended <+: b₂.ended := ended_run h₂
    have hle₃ : b₂.ended <+: ended := hsame ▸ ended_run h₃
    have he₁ : b₁.ended = ended := (hle₂.trans hle₃).eq_of_length
      (Nat.le_antisymm (hle₂.trans hle₃).length_le hle₁.length_le)
    have he₂ : b₂.ended = b₁.ended :=
      he₁ ▸ hle₃.eq_of_length (Nat.le_antisymm hle₃.length_le (hle₁.trans hle₂).length_le)
    have hsane : b₂.Sane timeout := by
      have hkeep : ∀ (b : Board) (x : BoardEvent) (b' : Board), b.Sane timeout →
          b.step timeout x = some b' → b'.Sane timeout := fun _ _ _ hb hs => hb.step hs
      exact Board.run_kept hkeep (Board.run_kept hkeep (sane_start ht w ended) h₁) h₂
    rcases unkicked_run hkick h₂ he₂ with htimed | hcount
    · exact timedOut_run htimed h₃ (by rw [hsame, he₂, he₁])
    · have hearly := hsane.early
      omega

/-- **The watchdog is kicked in time**: no stretch of the run without a
kick takes a whole time-out. -/
def KickedInTime (timeout : ℕ) (xs : List BoardEvent) : Prop :=
  ∀ mid, Unkicked xs mid → boardMs mid < timeout

/-- Short of a reset from outside, what ends a session is the watchdog, and
its interrupt has run before. -/
theorem Board.Sane.ended_step (h : b.Sane timeout) (hx : x.isReset = false)
    (hstep : b.step timeout x = some b') :
    b'.ended = b.ended ∨ b.timedOut = true ∧ ∃ cause, b'.ended = b.ended ++ [⟨true, cause⟩] := by
  obtain ⟨e, c, rfl, -, rfl⟩ | ⟨rfl, -, rfl⟩ | ⟨reboot, rfl, -, rfl⟩ |
    ⟨reboot, rfl, -, -, rfl⟩ | ⟨reboot, rfl, -, hwdie, rfl⟩ | ⟨reboot, rfl, rfl⟩ :=
    Board.step_cases hstep
  · exact .inl rfl
  · exact .inl rfl
  · exact .inl rfl
  · exact .inl rfl
  · have htimed : b.timedOut = true := by
      have hoff := h.wdie
      rw [hwdie] at hoff
      simpa using hoff.symm
    refine .inr ⟨htimed, reboot.cause, ?_⟩
    rw [← htimed]
    rfl
  · cases hx

/-- Without an external reset a session lasts, or the watchdog ends it after
its interrupt. -/
theorem Board.Sane.ended_run (h : b.Sane timeout) (hxs : ∀ x ∈ xs, x.isReset = false)
    (hrun : b.run timeout xs = some b') :
    b'.ended = b.ended ∨ ∃ cause later, b'.ended = b.ended ++ ⟨true, cause⟩ :: later := by
  induction xs generalizing b with
  | nil =>
    obtain rfl : b = b' := Option.some.inj hrun
    exact .inl rfl
  | cons x xs ih =>
    obtain ⟨b₁, hs, hr⟩ := Board.run_cons_eq_some.mp hrun
    rcases h.ended_step (hxs x List.mem_cons_self) hs with he | ⟨-, cause, he⟩
    · rw [← he]
      exact ih (h.step hs) (fun y hy => hxs y (List.mem_cons_of_mem _ hy)) hr
    · obtain ⟨later, hlater⟩ := SentryCell.ended_run hr
      refine .inr ⟨cause, later, ?_⟩
      rw [← hlater, he, List.append_assoc]
      rfl

/-- **A watchdog that is kicked in time never resets.** -/
theorem Board.Counts.kicked_run {past : List BoardEvent} (h : b.Counts past)
    (hsane : b.Sane timeout) (hxs : ∀ x ∈ xs, x.isReset = false)
    (hkick : KickedInTime timeout (past ++ xs)) (hrun : b.run timeout xs = some b') :
    b'.ended = b.ended := by
  induction xs generalizing b past with
  | nil =>
    obtain rfl : b = b' := Option.some.inj hrun
    rfl
  | cons x xs ih =>
    obtain ⟨b₁, hs, hr⟩ := Board.run_cons_eq_some.mp hrun
    have hsplit : past ++ x :: xs = past ++ [x] ++ xs := by
      rw [List.append_assoc]
      rfl
    rw [hsplit] at hkick
    -- the interrupt has not run, so the session goes on
    have he : b₁.ended = b.ended := by
      rcases hsane.ended_step (hxs x List.mem_cons_self) hs with he | ⟨htimed, -⟩
      · exact he
      · rw [h.timedOut] at htimed
        cases htimed
    rcases h.step hs he with hcount | ⟨-, mid, hmid, hms⟩
    · exact (ih hcount (hsane.step hs) (fun y hy => hxs y (List.mem_cons_of_mem _ hy)) hkick
        hr).trans he
    · have hlong : Unkicked (past ++ [x] ++ xs) mid :=
        ⟨hmid.within.trans (List.prefix_append _ _).isInfix, hmid.noKick⟩
      exact absurd (hkick mid hlong) (Nat.not_lt.mpr hms)

/-- **The watchdog's verdict on a session**, over the events `xs` from its
start: its marker stands exactly if the watchdog was not kicked in time.
Short of a reset from outside, a session that is kicked in time is not
reset, and one that is reset was marked: the session that follows says so. -/
structure Board.Judged (timeout : ℕ) (ended : List Session) (xs : List BoardEvent) (b : Board) :
    Prop where
  marked : b.ended = ended → (b.noinit.Marked ↔ ¬ KickedInTime timeout xs)
  kept : (∀ x ∈ xs, x.isReset = false) → KickedInTime timeout xs → b.ended = ended
  reset : (∀ x ∈ xs, x.isReset = false) → b.ended ≠ ended →
    ∃ cause later, b.ended = ended ++ ⟨true, cause⟩ :: later ∧
      (later = [] → b.noinit.previousTimeoutDetected = 1)

/-- **The watchdog resets a session that is not kicked in time, and no
other**, and its marker tells. The session is any that a run from a
power-on comes to. -/
theorem session_judged (ht : 0 < timeout) (w₀ : Watchdog) (reboot₀ : Reboot)
    {w : Watchdog} {ended : List Session} {xs₀ : List BoardEvent}
    (h₀ : (reboot₀.start w₀ []).run timeout xs₀ = some (reboot.start w ended))
    (h : (reboot.start w ended).run timeout xs = some b) : b.Judged timeout ended xs := by
  have htells : b.Tells w₀ reboot₀.cause := ((tells_start w₀ reboot₀).run h₀).run h
  have hsane : (reboot.start w ended).Sane timeout := sane_start ht w ended
  have hcounts : (reboot.start w ended).Counts [] :=
    ⟨rfl, [], [], rfl, fun y hy => (List.not_mem_nil hy).elim, rfl⟩
  constructor
  · intro hsame
    rw [htells.marked, timedOut_iff_unkicked ht w reboot ended h hsame, KickedInTime]
    simp only [not_forall, exists_prop, Nat.not_lt]
  · intro hxs hkick
    exact hcounts.kicked_run hsane hxs hkick h
  · intro hxs hne
    obtain ⟨cause, later, he⟩ := (hsane.ended_run hxs h).resolve_left hne
    refine ⟨cause, later, he, ?_⟩
    rintro rfl
    exact (htells.later _ _ he).2

/-- With a time-out of two milliseconds: a kick after the first keeps the
session from being marked, and without it the marker stands after the
second. -/
theorem session_judged_kicked :
    (∃ b, (watchdogReboot.start ⟨0, 0, 0, 0⟩ []).run 2
        [.tick watchdogReboot, .watchdogKick, .tick watchdogReboot] = some b ∧
      ¬ b.noinit.Marked ∧
      KickedInTime 2 [.tick watchdogReboot, .watchdogKick, .tick watchdogReboot]) ∧
    ∃ b, (watchdogReboot.start ⟨0, 0, 0, 0⟩ []).run 2
        [.tick watchdogReboot, .tick watchdogReboot] = some b ∧ b.noinit.Marked ∧
      ¬ KickedInTime 2 [.tick watchdogReboot, .tick watchdogReboot] := by
  have hstart : (watchdogReboot.start ⟨0, 0, 0, 0⟩ []).run 2 [] =
      some (watchdogReboot.start ⟨0, 0, 0, 0⟩ []) := rfl
  refine ⟨?_, ?_⟩
  · have hjudged := session_judged Nat.two_pos _ _ hstart
      (rfl : (watchdogReboot.start ⟨0, 0, 0, 0⟩ []).run 2
        [.tick watchdogReboot, .watchdogKick, .tick watchdogReboot] = some _)
    have hnot : ¬ (watchdogReboot.start ⟨0, 0, 0, 0⟩ []).noinit.Marked := by
      rw [noinit_start]
      exact not_marked_capture _ _
    exact ⟨_, rfl, hnot, not_not.mp (mt (hjudged.marked rfl).mpr hnot)⟩
  · have hjudged := session_judged Nat.two_pos _ _ hstart
      (rfl : (watchdogReboot.start ⟨0, 0, 0, 0⟩ []).run 2
        [.tick watchdogReboot, .tick watchdogReboot] = some _)
    have hmarked : (watchdogReboot.start ⟨0, 0, 0, 0⟩ []).interrupt.noinit.Marked := ⟨rfl, rfl⟩
    exact ⟨_, rfl, hmarked, (hjudged.marked rfl).mp hmarked⟩

end SentryCell
