import SentryCell.Firmware.Execution
import SentryCell.Lib.Instrument
import SentryCell.Protocol.Gaps
/-!
# The gaps inside a frame, in every run

`receiveLog` is the firmware with a log of its calls of
`protocol_process_byte` beside it, and has the firmware's runs. Over every
run, whatever the bytes, the tasks and the readings of the clock, a frame
is handed over with no gap of 100 ms in it as long as no byte comes late
to a candidate that the check at the start of its pass let stand.
-/

namespace SentryCell

open Foreground Word Machine

/-! ## The log -/

/-- One turn of the `while` loop, logged. -/
def drainByteLogged (r : Readings) (n : ℕ) : Prog (Firmware × List Processed) (Option ℕ) := do
  let byte ← ((uartReadByte false).zoom Firmware.rxLens).zoom .first
  match byte with
  | none => pure none
  | some byte => do
    Prog.write fun t =>
      (t.1.processByte byte (r.byteMs n), t.2 ++ [⟨byte, r.byteMs n, t.1.protocol⟩])
    pure (some (n + 1))

/-- The body of `communication_task`, logged. -/
def communicationLogged (r : Readings) : Prog (Firmware × List Processed) Unit := do
  (Prog.write (Firmware.checkTimeout r.nowMs)).zoom .first
  .loop (drainByteLogged r) 0 (.ret ())
  serveBlock.zoom .first
  serveResponse.zoom .first
  (serveStatuses r servedStatuses).zoom .first

/-- A body, logged. -/
def Task.bodyLogged (r : Readings) : Task → Prog (Firmware × List Processed) Unit
  | .communication => communicationLogged r
  | task => (task.body r).zoom .first

/-- An execution, logged. -/
def Dispatch.programLogged (d : Dispatch) : Prog (Firmware × List Processed) Unit := do
  ((recordStart d.task.id d.task.periodMs d.readings).zoom Firmware.profilerLens).zoom .first
  d.task.bodyLogged d.readings
  ((recordEnd d.task.id d.task.periodMs d.readings).zoom Firmware.profilerLens).zoom .first

/-- **The firmware with its log.** -/
def receiveLog : Machine (Firmware × List Processed) Dispatch Unit Interrupt where
  task := Dispatch.programLogged
  ready _ _ := true
  env x t := (x.handler t.1).map fun s => (s, t.2)

/-- Keeping a log of the bytes does not change what is done with them. -/
theorem over_drainByteLogged (r : Readings) (n : ℕ) :
    Prog.Over Prod.fst (drainByteLogged r n) (drainByte r n) := by
  refine (Prog.over_zoom Lens.first ((uartReadByte false).zoom Firmware.rxLens)).bind fun byte => ?_
  rcases byte with _ | byte
  · exact .ret none
  · exact (Prog.Over.write (by intro t; rfl)).bind fun _ => .ret _

/-- Keeping the log does not change the communication task. -/
theorem over_communicationLogged (r : Readings) :
    Prog.Over Prod.fst (communicationLogged r) (communication r) := by
  have hzoom : ∀ {α : Type} (q : Prog Firmware α),
      Prog.Over Prod.fst (q.zoom (Lens.first (γ := List Processed))) q :=
    fun q => Prog.over_zoom Lens.first q
  refine (hzoom (Prog.write (Firmware.checkTimeout r.nowMs))).bind fun _ => ?_
  refine .loop 0 (over_drainByteLogged r) ?_
  exact (hzoom serveBlock).bind fun _ => (hzoom serveResponse).bind fun _ => hzoom _

/-- **The log beside it changes no run** of the firmware. -/
theorem instruments_receiveLog : Instruments receiveLog firmware Prod.fst where
  task d := by
    refine (Prog.over_zoom Lens.first _).bind fun _ => Prog.Over.bind ?_ fun _ =>
      Prog.over_zoom Lens.first _
    rcases d with ⟨_ | _ | _ | _, r⟩
    · exact Prog.over_zoom Lens.first _
    · exact Prog.over_zoom Lens.first _
    · exact Prog.over_zoom Lens.first _
    · exact over_communicationLogged r
  ready _ _ := rfl
  env x t := by
    show ((x.handler t.1).map fun s => (s, t.2)).map Prod.fst = x.handler t.1
    rw [Option.map_map]
    exact Option.map_id'

/-! ## The invariant -/

/-- No byte of the log came late to the candidate it was given to. -/
def OnTime (log : List Processed) : Prop := ∀ x ∈ log, ¬ x.before.TimedOut x.nowMs

/-- What a run keeps of its log. -/
def LogKept (t : Firmware × List Processed) : Prop := OnTime t.2 → Logged t.2 t.1.protocol

/-- What an access may do. -/
def Keeps (t t' : Firmware × List Processed) : Prop := LogKept t → LogKept t'

theorem keeps_refl (t : Firmware × List Processed) : Keeps t t := id

/-- The fields of the parser, that only the parser writes. -/
def SameParser (s s' : Firmware) : Prop :=
  ∃ slots, { s.protocol with slots := slots } = s'.protocol

/-- What leaves the protocol's variables alone leaves the parser alone. -/
theorem sameParser_of_eq {s s' : Firmware} (h : s'.protocol = s.protocol) : SameParser s s' :=
  ⟨s.protocol.slots, h.symm⟩

/-- What leaves the parser and the log alone keeps what is known of them. -/
theorem keeps_of_sameParser {s s' : Firmware} {log : List Processed} (h : SameParser s s') :
    Keeps (s, log) (s', log) := by
  obtain ⟨slots, hp⟩ := h
  intro hkept hot
  show Logged log s'.protocol
  rw [← hp]
  exact (hkept hot).congr rfl rfl rfl rfl

/-- And so does a program that does. -/
theorem within_first {α : Type} {p : Prog Firmware α} (h : p.Within SameParser) :
    (p.zoom .first).Within Keeps :=
  h.zoom Lens.first fun _ _ hs => keeps_of_sameParser hs

/-- The task processes bytes; all else that it does leaves the parser
alone. -/
theorem within_communicationLogged (r : Readings) : (communicationLogged r).Within Keeps := by
  have hrefl : ∀ s, SameParser s s := fun s => ⟨s.protocol.slots, rfl⟩
  have htx : ∀ s u, SameParser s (Firmware.txLens.set u s) := fun s u => hrefl s
  have hslots : ∀ s q, KeepsBlock s.protocol.slots q →
      SameParser s (Firmware.slotsLens.set q s) := fun s q _ => ⟨q, rfl⟩
  have hcheck : ∀ t : Firmware × List Processed,
      Keeps t (t.1.checkTimeout r.nowMs, t.2) := fun t hkept hot => (hkept hot).check
  refine .bind (p := (Prog.write (Firmware.checkTimeout r.nowMs)).zoom .first) ?_ fun _ => ?_
  · exact ⟨hcheck, fun _ => Prog.within_ret _⟩
  refine ⟨fun n => ?_, ?_⟩
  · have hread : ((uartReadByte false).zoom Firmware.rxLens).Within SameParser :=
      Prog.within_zoom _ _ fun s u => hrefl s
    refine (within_first hread).bind fun byte => ?_
    rcases byte with _ | byte
    · exact Prog.within_ret _
    · -- the byte is on time if the log with it is
      refine .write_bind (fun t hkept hot => ?_) (Prog.within_ret _)
      have hlog : OnTime t.2 := fun x hx => hot x (List.mem_append_left _ hx)
      exact (hkept hlog).step (hot _ (List.mem_append_right _ List.mem_cons_self))
  · refine (within_first (within_serveBlock hrefl ?_)).bind fun _ => ?_
    · exact Prog.within_zoom _ _ fun s c => hrefl s
    refine (within_first (within_serveResponse hrefl htx hslots)).bind fun _ => ?_
    exact within_first (within_serveStatuses hrefl htx hslots (fun s m => hrefl s) _)

/-- **Every access of every task keeps the invariant of the log.** -/
theorem within_programLogged (d : Dispatch) : d.programLogged.Within Keeps := by
  have hcomponent : ∀ {σ α : Type} (L : Lens Firmware σ) (p : Prog σ α),
      (∀ s c, (L.set c s).protocol = s.protocol) →
        ((p.zoom L).zoom Lens.first).Within Keeps := fun L p hset =>
    within_first (Prog.within_zoom L p fun s c => sameParser_of_eq (hset s c))
  have hprofiler := fun (p : Prog Profiler Unit) =>
    hcomponent Firmware.profilerLens p fun s c => rfl
  have hcontrol := fun (p : Prog Control Unit) =>
    hcomponent Firmware.controlLens p fun s c => rfl
  refine (hprofiler _).bind fun _ => Prog.Within.bind ?_ fun _ => hprofiler _
  rcases d with ⟨_ | _ | _ | _, r⟩
  · exact hcontrol _
  · exact hcontrol _
  · exact hcontrol _
  · exact within_communicationLogged r

/-- No handler touches the parser or the log of its bytes. -/
theorem keeps_of_handler {x : Interrupt} {t t' : Firmware × List Processed}
    (h : receiveLog.env x t = some t') : Keeps t t' := by
  obtain ⟨s', hs, rfl⟩ := Option.map_eq_some_iff.mp h
  exact keeps_of_sameParser (sameParser_of_eq (protocol_of_handler hs))

/-! ## Every run -/

/-- The firmware after `main` has initialised, with nothing processed. -/
def receiveStart (b : Boot) (s : Firmware) :
    Config (Firmware × List Processed) Dispatch Unit :=
  ⟨(s.boot b, []), none, []⟩

/-- The logged firmware starts over the firmware. -/
theorem configOver_receiveStart (b : Boot) (s : Firmware) :
    ConfigOver Prod.fst (receiveStart b s) (firmwareStart b s) := ⟨rfl, rfl, .none⟩

/-- What every run keeps of its log. -/
theorem logKept_of_run {b : Boot} {s : Firmware} {es : List FirmwareEvent}
    {d' : Config (Firmware × List Processed) Dispatch Unit}
    (h : receiveLog.run (receiveStart b s) es = some d') : LogKept d'.state := by
  have hboot : (s.boot b).protocol.parserState = .waitSof := by
    rw [(boot_spec b s).2.1]
    rfl
  exact run_within (R := Keeps) keeps_refl within_programLogged (fun _ _ _ => keeps_of_handler)
    (fun _ _ hs hR => hR hs) rfl (fun _ => .nil hboot) h

/-- **No frame is accepted across a gap**, unless a byte comes late. Every
run of the firmware has its log of processed bytes; and as long as none of
them was processed, 100 ms or more after the byte before it, in a
candidate that the check had let stand, every frame that
`protocol_handle_frame` was called for was processed from SOF to CRC with
each byte less than 100 ms after the one before it. -/
theorem frames_unbroken (b : Boot) (s : Firmware) {es : List FirmwareEvent} {c' : FirmwareConfig}
    (h : firmware.run (firmwareStart b s) es = some c') :
    ∃ d', receiveLog.run (receiveStart b s) es = some d' ∧ d'.state.1 = c'.state ∧
      (OnTime d'.state.2 → Unbroken d'.state.2) := by
  obtain ⟨d', hd', hover⟩ := instruments_receiveLog.lift (configOver_receiveStart b s) h
  exact ⟨d', hd', hover.state, fun hot => (logKept_of_run hd' hot).1⟩

/-! ## A byte that comes late -/

/-- `n` steps of a pass of `communication_task`, with its check at
`checkMs` and its bytes processed at `byteMs`. -/
def passSteps (checkMs byteMs : Word32) (n : ℕ) : List FirmwareEvent :=
  .dispatch ⟨.communication, { Readings.zeroed with
    startMs := checkMs, nowMs := checkMs, byteMs := fun _ => byteMs, loadMs := byteMs }⟩ ::
    List.replicate n .foreground

/-- Bytes that arrive. -/
def arriving (bytes : List Byte) : List FirmwareEvent :=
  bytes.map fun byte => .env (.usartRx byte)

/-- A SOF that is processed at 0 ms, and the rest of a PING, processed at
`byteMs` in a pass that checks at 99 ms. -/
def splitPing (byteMs : Word32) : List FirmwareEvent :=
  arriving [0xA5#8] ++ passSteps 0 0 24 ++
    arriving [0x01#8, 0x01#8, 0x10#8, 0x00#8, 0x2A#8] ++ passSteps 99 byteMs 64

/-- A PING whose last bytes are processed at 99 ms. -/
theorem frames_unbroken_ping :
    ∃ c', firmware.run (firmwareStart ⟨0, 0, 0, 0⟩ .zeroed) (splitPing 99) = some c' ∧
      c'.state.accepted.length = 1 ∧
      ∃ d', receiveLog.run (receiveStart ⟨0, 0, 0, 0⟩ .zeroed) (splitPing 99) = some d' ∧
        Unbroken d'.state.2 := by
  have hrun : (firmware.run (firmwareStart ⟨0, 0, 0, 0⟩ .zeroed) (splitPing 99)).map
      (fun c => c.state.accepted.length) = some 1 := by
    decide +kernel
  have hlog : (receiveLog.run (receiveStart ⟨0, 0, 0, 0⟩ .zeroed) (splitPing 99)).map
      (fun d => d.state.2.all fun x => !decide (x.before.TimedOut x.nowMs)) = some true := by
    decide +kernel
  obtain ⟨c', hc', hone⟩ := Option.map_eq_some_iff.mp hrun
  obtain ⟨d', hd', -, hun⟩ := frames_unbroken ⟨0, 0, 0, 0⟩ .zeroed hc'
  refine ⟨c', hc', hone, d', hd', hun ?_⟩
  rw [hd', Option.map_some] at hlog
  simpa [OnTime] using hlog

/-- The readings of six bytes that end in a frame are close. -/
theorem Unbroken.readings {log : List Processed} (h : Unbroken log) (hlen : log.length = 6)
    (hlast : (log.getLast?.bind Processed.handled).isSome = true) :
    (log.map Processed.nowMs).IsChain fun t u => (u - t).toNat < 100 := by
  rcases List.eq_nil_or_concat' log with rfl | ⟨done, x, rfl⟩
  · cases hlen
  rw [List.getLast?_concat, Option.bind_some] at hlast
  obtain ⟨frame, hframe⟩ := Option.isSome_iff_exists.mp hlast
  obtain ⟨earlier, data, hsplit, hdata, hclose⟩ := h done x [] frame rfl hframe
  -- a frame has at least six bytes, so that these are all of them
  have hsize := congrArg List.length hdata
  rw [List.length_map, length_encodedFrame] at hsize
  have htotal := congrArg List.length hsplit
  rw [hlen, List.length_append] at htotal
  obtain rfl : earlier = [] := List.length_eq_zero_iff.mp (by omega)
  rw [hsplit, List.nil_append]
  exact (List.isChain_map Processed.nowMs).mpr hclose

/-- The rest of the PING is processed at 100 ms, a hundred after the SOF,
and the PING is accepted. -/
theorem frames_unbroken_late :
    ∃ c', firmware.run (firmwareStart ⟨0, 0, 0, 0⟩ .zeroed) (splitPing 100) = some c' ∧
      c'.state.accepted.length = 1 ∧
      ∃ d', receiveLog.run (receiveStart ⟨0, 0, 0, 0⟩ .zeroed) (splitPing 100) = some d' ∧
        ¬ Unbroken d'.state.2 := by
  have hrun : (firmware.run (firmwareStart ⟨0, 0, 0, 0⟩ .zeroed) (splitPing 100)).map
      (fun c => c.state.accepted.length) = some 1 := by
    decide +kernel
  have hlog : (receiveLog.run (receiveStart ⟨0, 0, 0, 0⟩ .zeroed) (splitPing 100)).map
      (fun d => (d.state.2.map Processed.nowMs, d.state.2.length,
        (d.state.2.getLast?.bind Processed.handled).isSome)) =
      some ([0, 100, 100, 100, 100, 100], 6, true) := by
    decide +kernel
  obtain ⟨c', hc', hone⟩ := Option.map_eq_some_iff.mp hrun
  obtain ⟨d', hd', hread⟩ := Option.map_eq_some_iff.mp hlog
  simp only [Prod.mk.injEq] at hread
  obtain ⟨hreadings, hlen, hlast⟩ := hread
  refine ⟨c', hc', hone, d', hd', fun hun => ?_⟩
  have hclose := hun.readings hlen hlast
  rw [hreadings] at hclose
  revert hclose
  decide

end SentryCell
