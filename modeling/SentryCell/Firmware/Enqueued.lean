import SentryCell.Firmware.SafeState
/-!
# What the firmware enqueues

From reset on, whatever arrives and whichever tasks run, a step of the
foreground enqueues nothing, or one frame in a pass of
`communication_task`: an immediate response, or a status with what it
reports in that state (`enqueues_step`). What has to hold for this between
two steps is `LinkReady`, and nothing the firmware does ends it.
-/

namespace SentryCell

open Foreground Word Machine

/-- The types of the immediate responses. -/
def immediateTypes : List Byte := [protocolTypePong, protocolTypeAck, protocolTypeNack]

/-- **The link is ready**: the indices of its rings are in range, the
receive interrupt is enabled, and what is pending in the response slot is
an immediate response. -/
structure LinkReady (s : Firmware) : Prop where
  indexed : s.Indexed
  enabled : isSet s.uart.tx.ucsr0b rxcie0 = true
  immediate : s.protocol.slots.responsePending ≠ 0 →
    s.protocol.slots.pendingFrame.type ∈ immediateTypes

/-- **A frame that an execution with the readings `r` may enqueue** in a
state: an immediate response, or a status with what it reports. The
overflow count was read before. -/
def ProtocolFrame.Reports (frame : ProtocolFrame) (s : Firmware) (r : Readings) : Prop :=
  frame.type ∈ immediateTypes ∨
    ∃ (kind : StatusKind) (sequence overflow : Byte),
      frame = statusFrame kind sequence (kind.reportWith overflow s r)

/-- **A pass enqueues one such frame**, behind what is queued. -/
def EnqueuesFrame (d : Dispatch) (s s' : Firmware) : Prop :=
  d.task = .communication ∧ ∃ frame : ProtocolFrame, frame.length.toNat ≤ 8 ∧
    frame.Reports s d.readings ∧ s'.uart.tx.txQueue = s.uart.tx.txQueue ++ encodedFrame frame

variable {s s' : Firmware} {d : Dispatch} {frame response : ProtocolFrame}

/-! ## The pending response -/

/-- A frame that is answered at once is answered by PONG, ACK or NACK. -/
theorem type_immediateResponse {old : ℕ → Byte}
    (h : immediateResponse frame old = some response) : response.type ∈ immediateTypes := by
  unfold immediateResponse at h
  rcases hr : frame.request with kind | _ | _ | _ | _ | _ <;> rw [hr] at h
  · cases h
  · cases h
  · obtain rfl := Option.some.inj h
    exact List.mem_cons_self
  · obtain rfl := Option.some.inj h
    exact List.mem_cons_of_mem _ List.mem_cons_self
  · obtain rfl := Option.some.inj h
    exact List.mem_cons_of_mem _ (List.mem_cons_of_mem _ List.mem_cons_self)
  · obtain rfl := Option.some.inj h
    exact List.mem_cons_of_mem _ (List.mem_cons_of_mem _ List.mem_cons_self)

/-- **A frame that is handled** leaves an immediate response in the slot,
or what was there. -/
theorem immediate_handleFrame {q : Slots}
    (h : q.responsePending ≠ 0 → q.pendingFrame.type ∈ immediateTypes)
    (hpending : (protocolHandleFrame frame q).responsePending ≠ 0) :
    (protocolHandleFrame frame q).pendingFrame.type ∈ immediateTypes := by
  obtain ⟨kind, hr⟩ | hr | ⟨response, hr⟩ := request_cases frame q.pendingFrame.payload
  · -- a request for a status sets its own flag and no other
    have hsame : (protocolHandleFrame frame q).responsePending = q.responsePending ∧
        (protocolHandleFrame frame q).pendingFrame = q.pendingFrame := by
      rw [protocolHandleFrame_status hr]
      split
      · exact ⟨rfl, rfl⟩
      · exact ⟨rfl, rfl⟩
    rw [hsame.1] at hpending
    rw [hsame.2]
    exact h hpending
  · rw [protocolHandleFrame_block hr] at hpending ⊢
    exact h hpending
  · -- what is pending already stays, and the request is dropped
    rw [protocolHandleFrame_immediate hr] at hpending ⊢
    by_cases h0 : q.responsePending = 0
    · rw [if_pos h0]
      exact type_immediateResponse hr
    · rw [if_neg h0]
      exact h h0

/-- Processing a byte leaves a link that was ready so. -/
theorem LinkReady.processByte (h : LinkReady s) (byte : Byte) (nowMs : Word32) :
    LinkReady (s.processByte byte nowMs) := by
  refine ⟨h.indexed, h.enabled, ?_⟩
  rw [show (s.processByte byte nowMs).protocol.slots = _ from
    slots_protocolProcessByte byte nowMs s.protocol]
  rcases handledFrame byte s.protocol with _ | frame
  · exact h.immediate
  · exact immediate_handleFrame h.immediate

/-- And clearing a flag leaves nothing pending, or what was there. -/
theorem LinkReady.sent (h : LinkReady s) (k : Slot) :
    LinkReady (Firmware.slotsLens.set (s.protocol.slots.sent k) s) := by
  refine ⟨h.indexed, h.enabled, fun hpending => ?_⟩
  rcases k with _ | kind
  · exact absurd rfl hpending
  · exact h.immediate hpending

/-- Neither the control side nor the profilers are a part of the link. -/
theorem LinkReady.set_control (h : LinkReady s) (c : Control) :
    LinkReady (Firmware.controlLens.set c s) :=
  ⟨h.indexed, h.enabled, h.immediate⟩

theorem LinkReady.set_profiler (h : LinkReady s) (p : Profiler) :
    LinkReady (Firmware.profilerLens.set p s) :=
  ⟨h.indexed, h.enabled, h.immediate⟩

/-! ## Every task -/

/-- The firmware among its interrupts, for what a dispatch enqueues. -/
def linkContract (d : Dispatch) : Contract Firmware where
  rely s s' := ∃ x : Interrupt, x.handler s = some s'
  guar s s' := s'.uart.tx.txQueue = s.uart.tx.txQueue ∨ EnqueuesFrame d s s'
  inv := LinkReady

/-- No interrupt takes the readiness of the link away. -/
theorem stable_linkReady : Stable (linkContract d) LinkReady := by
  rintro s s' h ⟨x, hx⟩
  refine ⟨indexed_of_handler hx h.indexed, ?_, ?_⟩
  · rcases tx_of_handler hx with htx | htx
    · rw [htx]
      exact h.enabled
    · rw [htx, isSet_ucsr0b_usartUdreVect (by decide) (by decide)]
      exact h.enabled
  · rw [protocol_of_handler hx]
    exact h.immediate

/-- The link is ready throughout the communication task. -/
def linkInvariant : CommInvariant Firmware where
  drain := LinkReady
  held _ := LinkReady
  drained _ := True
  serve _ := LinkReady
  published _ _ := LinkReady

/-- **What answers a slot may be enqueued.** -/
theorem CommInvariant.Answering.reports {J : CommInvariant Firmware} {r : Readings}
    {todo : List Slot} {k : Slot} (hans : J.Answering (Lens.id Firmware) r todo k frame s)
    (h : LinkReady s) : frame.Reports s r := by
  rcases k with _ | kind
  · obtain ⟨hpending, rfl⟩ := hans
    exact .inl (h.immediate hpending)
  · obtain ⟨-, t₀, -, hframe⟩ := hans
    exact .inr ⟨kind, _, _, hframe⟩

theorem link_kept (r : Readings) :
    linkInvariant.Kept (Lens.id Firmware) (linkContract ⟨.communication, r⟩) r where
  guar_refl _ := .inl rfl
  protocol_rely := fun _ _ ⟨_, hx⟩ => protocol_of_handler hx
  tx_rely := fun _ _ ⟨_, hx⟩ => tx_of_handler hx
  rx_rely := fun _ _ ⟨_, hx⟩ => rx_of_handler hx
  reports_rely := fun _ _ ⟨_, hx⟩ => keepsReports_of_handler hx
  stable_drain := stable_linkReady
  stable_held _ := stable_linkReady
  stable_drained := .const True
  stable_serve _ := stable_linkReady
  stable_published _ _ := stable_linkReady
  inv_drain _ h := h
  inv_held _ _ h := h
  inv_serve _ _ h := h
  inv_published _ _ _ h := h
  rxIndexed _ h := h.indexed.1
  txIndexed _ _ h := h.indexed.2
  checkTimeout s h := by
    refine ⟨.inl rfl, h.indexed, h.enabled, ?_⟩
    have hslots : (protocolCheckTimeout r.nowMs s.protocol).slots = s.protocol.slots :=
      slots_protocolCheckTimeout
    show (protocolCheckTimeout r.nowMs s.protocol).slots.responsePending ≠ 0 →
      (protocolCheckTimeout r.nowMs s.protocol).slots.pendingFrame.type ∈ immediateTypes
    rw [hslots]
    exact h.immediate
  receive _ _ _ h _ hu _ _ := ⟨.inl rfl, ⟨hu, h.indexed.2⟩, h.enabled, h.immediate⟩
  process _ b n h := ⟨.inl rfl, h.processByte b (r.byteMs n)⟩
  seen_empty _ _ _ := trivial
  serve_all _ h _ := h
  block := by
    rw [Prog.zoom_id]
    exact (Triple.zoom Firmware.controlLens _ stable_linkReady (fun _ h => h)
      fun s c h => ⟨.inl rfl, h.set_control c⟩).conseq (fun _ h => h.1) fun _ _ h => h
  scan _ _ _ h := ⟨.inl rfl, h.set_profiler _⟩
  skip _ _ _ h _ := h
  noRoom _ _ _ _ h _ _ := h
  fill _ _ _ _ h hi := ⟨.inl (txQueue_update hi), h.indexed, h.enabled, h.immediate⟩
  publish _ _ _ frame _ h hans hlen hlt hq :=
    ⟨.inr ⟨rfl, frame, hlen, hans.reports h, hq⟩, ⟨h.indexed.1, hlt, h.indexed.2.2⟩, h.enabled,
      h.immediate⟩
  enable _ _ _ _ h _ hkeep :=
    ⟨.inl rfl, h.indexed, (hkeep rxcie0 (by decide) (by decide)).trans h.enabled, h.immediate⟩
  clear _ k _ h := ⟨.inl rfl, h.sent k⟩

/-- **The firmware keeps the link ready**, each execution within the contract
of its own dispatch. -/
theorem link_sound : SoundBy firmware linkContract LinkReady fun _ _ => LinkReady where
  env _ x _ _ hx := ⟨x, hx⟩
  stable x s s' hx h := stable_linkReady (d := ⟨.communication, .zeroed⟩) s s' h ⟨x, hx⟩
  idle _ _ _ h := h
  task := by
    rintro ⟨task, r⟩
    have hcontrol : ∀ p : Prog Control Unit, Triple (linkContract ⟨task, r⟩) LinkReady
        ((p.zoom Firmware.controlLens).zoom (Lens.id Firmware)) fun _ => LinkReady := by
      intro p
      rw [Prog.zoom_id]
      exact Triple.zoom _ _ stable_linkReady (fun _ h => h)
        fun s c h => ⟨.inl rfl, h.set_control c⟩
    have hbody : Triple (linkContract ⟨task, r⟩) LinkReady
        ((task.body r).zoom (Lens.id Firmware)) fun _ => LinkReady := by
      rcases task with _ | _ | _ | _
      · exact hcontrol _
      · exact hcontrol _
      · exact hcontrol _
      · exact communication_triple (link_kept r)
    have hdispatch := Dispatch.triple (L := Lens.id Firmware) (d := ⟨task, r⟩) stable_linkReady
      stable_linkReady (fun _ h => h) (fun _ h => h)
      (fun s p h => ⟨.inl rfl, h.set_profiler p⟩) (fun s p h => ⟨.inl rfl, h.set_profiler p⟩) hbody
    rw [Prog.zoom_id] at hdispatch
    exact hdispatch.conseq (fun _ h => h.1) fun _ _ h => h

/-! ## Whole runs -/

/-- The link is ready when `main` has initialised it. -/
theorem linkReady_start (b : Boot) (s : Firmware) : LinkReady (s.boot b) := by
  obtain ⟨hu, hp, -⟩ := boot_spec b s
  refine ⟨(safe_start b s).1, ?_, fun hpending => ?_⟩
  · have hset : isSet (bit txen0 ||| bit rxen0 ||| bit rxcie0) rxcie0 = true := by decide
    rw [hu]
    exact hset
  · rw [hp] at hpending
    exact absurd rfl hpending

section

variable {b : Boot} {es : List FirmwareEvent} {c c' : FirmwareConfig}

/-- Every configuration that a run reaches has a ready link. -/
theorem safeConfig_link (h : firmware.run (firmwareStart b s) es = some c) :
    SafeConfigBy linkContract LinkReady (fun _ _ => LinkReady) c :=
  link_sound.staged.run (c := firmwareStart b s) (linkReady_start b s) h

/-- **The link is ready throughout**: the receive interrupt is never
disabled, and nothing but an immediate response is ever pending. -/
theorem linkReady_run (h : firmware.run (firmwareStart b s) es = some c) :
    LinkReady c.state := by
  have hc := safeConfig_link h
  rcases hr : c.running with _ | ⟨d, p⟩
  · exact hc.idle hr
  · obtain ⟨hp, hsafe⟩ := hc.running hr
    exact ((safe_succ_iff hp).mp (hsafe 1)).1

/-- **What a step of the foreground enqueues**, in any run from reset:
nothing, or a frame that reports the state it finds. -/
theorem enqueues_step {p : Prog Firmware Unit}
    (h : firmware.run (firmwareStart b s) es = some c) (hr : c.running = some (d, p))
    (hstep : firmware.step c .foreground = some c') :
    c'.state.uart.tx.txQueue = c.state.uart.tx.txQueue ∨ EnqueuesFrame d c.state c'.state :=
  (safeConfig_link h).foreground hr hstep

end

end SentryCell
