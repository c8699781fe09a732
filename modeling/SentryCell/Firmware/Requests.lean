import SentryCell.Firmware.Communication
import SentryCell.Lib.History
import SentryCell.Lib.Mailbox
/-!
# Requests and responses over whole runs

The journal of a run of the firmware lists the frames
`protocol_handle_frame` was called with and the data that `tx_head` was
moved over, in order. It is a history variable: it is read off the changes
of the state. `Ledger` says that the journal is one of a set of mailboxes,
and that the nine slots hold what the boxes hold; every access keeps it.
-/

namespace SentryCell

open Foreground Word Machine

/-! ## The journal -/

abbrev Journal := List (Mailbox.Entry ProtocolFrame (List Byte))

/-- Whether a frame takes the slot it is answered from. -/
def Slots.takes (s : Slots) (frame : ProtocolFrame) : Bool :=
  match frame.slot with
  | none => false
  | some none => s.responsePending = 0
  | some (some kind) => s.requestPending kind = 0

/-- The data enqueued between two states of the transmitter. -/
def newlyEnqueued (u u' : UartTx) : Journal :=
  match u'.txStream.drop u.txStream.length with
  | [] => []
  | byte :: data => [.enqueued (byte :: data)]

/-- **What a change of the state adds to the journal**: the frames that
were handed over, each with whether it found its slot free, and the data
that was enqueued. -/
def journalRecord (s s' : Firmware) (journal : Journal) : Journal :=
  journal ++
    ((s'.accepted.drop s.accepted.length).map fun frame =>
      .accepted frame (s.protocol.slots.takes frame)) ++
    newlyEnqueued s.uart.tx s'.uart.tx

/-- The journal of a run. -/
def requestJournal (c : FirmwareConfig) (es : List FirmwareEvent) : Journal :=
  firmware.history (fun _ c c' => journalRecord c.state c'.state) c es []

/-- What a journal says was enqueued, in order. -/
def enqueuedData (journal : Journal) : List Byte :=
  journal.flatMap fun entry => match entry with
    | .enqueued data => data
    | .accepted _ _ => []

/-- What a journal says was handed over, in order. -/
def acceptedFrames (journal : Journal) : List ProtocolFrame :=
  journal.filterMap fun entry => match entry with
    | .enqueued _ => none
    | .accepted frame _ => some frame

@[simp] theorem enqueuedData_accepted (journal : Journal) (frame : ProtocolFrame) (taken : Bool) :
    enqueuedData (journal ++ [.accepted frame taken]) = enqueuedData journal := by
  simp [enqueuedData]

@[simp] theorem enqueuedData_enqueued (journal : Journal) (data : List Byte) :
    enqueuedData (journal ++ [.enqueued data]) = enqueuedData journal ++ data := by
  simp [enqueuedData]

@[simp] theorem acceptedFrames_accepted (journal : Journal) (frame : ProtocolFrame)
    (taken : Bool) : acceptedFrames (journal ++ [.accepted frame taken]) =
      acceptedFrames journal ++ [frame] := by
  simp [acceptedFrames]

@[simp] theorem acceptedFrames_enqueued (journal : Journal) (data : List Byte) :
    acceptedFrames (journal ++ [.enqueued data]) = acceptedFrames journal := by
  simp [acceptedFrames]

variable {origin s s' : Firmware} {journal : Journal} {frame : ProtocolFrame} {k : Slot}
variable {es : List FirmwareEvent} {c c' : FirmwareConfig}

/-- A change that hands nothing over and enqueues nothing. -/
theorem journalRecord_of_same (ha : s'.accepted = s.accepted)
    (ht : s'.uart.tx.txStream = s.uart.tx.txStream) : journalRecord s s' journal = journal := by
  simp [journalRecord, newlyEnqueued, ha, ht]

/-- A step that changes nothing writes nothing into the journal. -/
theorem journalRecord_self (s : Firmware) (journal : Journal) :
    journalRecord s s journal = journal := journalRecord_of_same rfl rfl

/-- The state with its journal. -/
def journalLens : Lens (Firmware × Journal) Firmware := .recording journalRecord journalRecord_self

/-- A step that accepts no frame and enqueues no byte writes nothing into the
journal. -/
theorem journalLens_of_same (s s' : Firmware) (journal : Journal) (ha : s'.accepted = s.accepted)
    (ht : s'.uart.tx.txStream = s.uart.tx.txStream) :
    journalLens.set s' (s, journal) = (s', journal) :=
  congrArg (Prod.mk s') (journalRecord_of_same ha ht)

/-- A frame that is handed over is one entry more in the journal. -/
theorem journalLens_accepted (s s' : Firmware) (journal : Journal)
    (ha : s'.accepted = s.accepted ++ [frame])
    (ht : s'.uart.tx.txStream = s.uart.tx.txStream) :
    journalLens.set s' (s, journal) =
      (s', journal ++ [.accepted frame (s.protocol.slots.takes frame)]) := by
  refine congrArg (Prod.mk s') ?_
  simp [journalRecord, newlyEnqueued, ha, ht]

/-- Data that is enqueued is one entry more in the journal. -/
theorem journalLens_enqueued (s s' : Firmware) (journal : Journal) {data : List Byte}
    (ha : s'.accepted = s.accepted) (ht : s'.uart.tx.txStream = s.uart.tx.txStream ++ data)
    (hd : data ≠ []) :
    journalLens.set s' (s, journal) = (s', journal ++ [.enqueued data]) := by
  refine congrArg (Prod.mk s') ?_
  obtain ⟨byte, rest, rfl⟩ := List.exists_cons_of_ne_nil hd
  simp [journalRecord, newlyEnqueued, ha, ht]

/-! ## The slots as mailboxes -/

/-- A request is not answered from the slot of another. -/
abbrev RequestRun := Mailbox.Run ProtocolFrame.slot Answers

/-- A slot holds what its box holds. -/
def Slots.Box (s : Slots) (k : Slot) : Option ProtocolFrame → Prop
  | none => ¬ s.full k
  | some frame => s.Stores frame k ∧ frame.length.toNat ≤ 8

/-- Past its length byte, the parser has a length in range. -/
def Protocol.LengthChecked (p : Protocol) : Prop :=
  (p.parserState = .readPayload ∨ p.parserState = .readCrc) → p.receivedFrame.length.toNat ≤ 8

/-- **The ledger**: the journal is one of the mailboxes, and each slot
holds what its box holds, except the one whose answer is enqueued and
whose flag is still to be cleared. -/
structure Ledger (origin : Firmware) (sending : Option Slot) (t : Firmware × Journal) :
    Prop where
  rxIndexed : t.1.uart.rx.RxIndexed
  txIndexed : t.1.uart.tx.TxIndexed
  lengthChecked : t.1.protocol.LengthChecked
  handedOver : t.1.accepted = origin.accepted ++ acceptedFrames t.2
  enqueued : t.1.uart.tx.txStream = origin.uart.tx.txStream ++ enqueuedData t.2
  boxes : ∃ m, RequestRun t.2 m ∧ (∀ k, sending = some k → m k = none) ∧
    ∀ k, sending ≠ some k → t.1.protocol.slots.Box k (m k)

/-- A request is taken where the slot it asks for is free. -/
theorem takes_iff (hk : frame.slot = some k) (s : Slots) :
    s.takes frame = true ↔ ¬ s.full k := by
  unfold Slots.takes
  rw [hk]
  rcases k with _ | kind
  · simp [Slots.full]
  · simp [Slots.full]

/-- What asks for no slot is never taken by one. -/
theorem takes_eq_false (hk : frame.slot = none) (s : Slots) : s.takes frame = false := by
  unfold Slots.takes
  rw [hk]

/-- A slot that a frame does not take keeps what it holds. -/
theorem Slots.Box.congr {s s' : Slots} {a : Option ProtocolFrame} (h : s.Box k a)
    (hsame : match k with
      | none => s'.responsePending = s.responsePending ∧ s'.pendingFrame = s.pendingFrame
      | some kind => s'.requestPending kind = s.requestPending kind ∧
        s'.sequence kind = s.sequence kind) : s'.Box k a := by
  rcases k with _ | kind <;> rcases a with _ | frame <;> obtain ⟨h1, h2⟩ := hsame <;>
    simp only [Slots.Box, Slots.full, Slots.Stores] at h ⊢ <;> rw [h1]
  · exact h
  · rw [h2]
    exact h
  · exact h
  · rw [h2]
    exact h

/-- The slot that was answered is free. -/
theorem Slots.box_sent (s : Slots) (k : Slot) : (s.sent k).Box k none := by
  rcases k with _ | kind
  · exact not_not.mpr rfl
  · exact not_not.mpr (Function.update_self kind _ _)

/-- And the others keep what they hold. -/
theorem Slots.Box.sent {s : Slots} {k k' : Slot} {a : Option ProtocolFrame} (h : s.Box k' a)
    (hne : k' ≠ k) : (s.sent k).Box k' a := by
  refine h.congr ?_
  rcases k with _ | kind <;> rcases k' with _ | kind'
  · exact absurd rfl hne
  · exact ⟨rfl, rfl⟩
  · exact ⟨rfl, rfl⟩
  · have hkind : kind' ≠ kind := fun h => hne (by rw [h])
    exact ⟨Function.update_of_ne hkind _ _, rfl⟩

/-- **A frame handed over** is a step of the mailboxes. -/
theorem boxes_handleFrame {m : Slot → Option ProtocolFrame} (hrun : RequestRun journal m)
    {s : Slots} (hbox : ∀ k, s.Box k (m k)) (hlen : frame.length.toNat ≤ 8) :
    ∃ m', RequestRun (journal ++ [.accepted frame (s.takes frame)]) m' ∧
      ∀ k, (protocolHandleFrame frame s).Box k (m' k) := by
  -- a full slot refuses the frame, and a free one takes it
  have hfull : ∀ k, frame.slot = some k → protocolHandleFrame frame s = s → s.full k →
      ∃ m', RequestRun (journal ++ [.accepted frame (s.takes frame)]) m' ∧
        ∀ k, (protocolHandleFrame frame s).Box k (m' k) := by
    intro k hk hsame hf
    have ht : s.takes frame = false := by
      rw [Bool.eq_false_iff]
      exact fun h => (takes_iff hk s).mp h hf
    rw [ht, hsame]
    exact ⟨m, hrun.drop frame, hbox⟩
  have hfree : ∀ k, frame.slot = some k → ¬ s.full k →
      (protocolHandleFrame frame s).Stores frame k →
      (∀ k', k' ≠ k → (protocolHandleFrame frame s).Box k' (m k')) →
      ∃ m', RequestRun (journal ++ [.accepted frame (s.takes frame)]) m' ∧
        ∀ k, (protocolHandleFrame frame s).Box k (m' k) := by
    intro k hk hf hst hrest
    have hm : m k = none := by
      have hb := hbox k
      rcases hmk : m k with _ | other
      · rfl
      · rw [hmk] at hb
        exact absurd hb.1.full hf
    rw [(takes_iff hk s).mpr hf]
    refine ⟨_, hrun.take hk hm, fun k' => ?_⟩
    by_cases hkk : k' = k
    · subst hkk
      rw [Function.update_self]
      exact ⟨hst, hlen⟩
    · rw [Function.update_of_ne hkk]
      exact hrest k' hkk
  obtain ⟨kind, hr⟩ | hr | ⟨response, hr⟩ := request_cases frame s.pendingFrame.payload
  · have hk := slot_eq_status_iff.mpr hr
    have hhandle := protocolHandleFrame_status (s := s) hr
    by_cases hf : s.requestPending kind = 0
    · rw [if_pos hf] at hhandle
      refine hfree (some kind) hk (not_not.mpr hf) ?_ fun k' hk' => ?_
      · rw [hhandle]
        refine ⟨?_, ?_⟩
        · show Function.update s.requestPending kind 1 kind ≠ 0
          rw [Function.update_self]
          decide
        · exact Function.update_self kind _ _
      · refine (hbox k').congr ?_
        rw [hhandle]
        rcases k' with _ | kind'
        · exact ⟨rfl, rfl⟩
        · have hne : kind' ≠ kind := fun h => hk' (by rw [h])
          exact ⟨Function.update_of_ne hne _ _, Function.update_of_ne hne _ _⟩
    · rw [if_neg hf] at hhandle
      exact hfull (some kind) hk hhandle hf
  · have hk := slot_eq_none_iff.mpr hr
    rw [takes_eq_false hk, protocolHandleFrame_block hr]
    refine ⟨m, hrun.drop frame, fun k => (hbox k).congr ?_⟩
    rcases k with _ | kind
    · exact ⟨rfl, rfl⟩
    · exact ⟨rfl, rfl⟩
  · have hk := slot_eq_response_iff.mpr ⟨response, hr⟩
    have hhandle := protocolHandleFrame_immediate hr
    by_cases hf : s.responsePending = 0
    · rw [if_pos hf] at hhandle
      refine hfree none hk (not_not.mpr hf) ?_ fun k' hk' => ?_
      · rw [hhandle]
        have hset : (1 : Byte) ≠ 0 := by decide
        exact ⟨hset, s.pendingFrame.payload, hr⟩
      · refine (hbox k').congr ?_
        rw [hhandle]
        rcases k' with _ | kind'
        · exact absurd rfl hk'
        · exact ⟨rfl, rfl⟩
    · rw [if_neg hf] at hhandle
      exact hfull none hk hhandle hf

/-- **An answer enqueued** is a step of the mailboxes. -/
theorem boxes_publish {m : Slot → Option ProtocolFrame} (hrun : RequestRun journal m)
    {s : Slots} (hbox : ∀ k, s.Box k (m k)) (hout : Outgoing s k frame) :
    ∃ m', RequestRun (journal ++ [.enqueued (encodedFrame frame)]) m' ∧ m' k = none ∧
      ∀ k', k' ≠ k → s.Box k' (m' k') := by
  have hb := hbox k
  rcases hmk : m k with _ | request
  · rw [hmk] at hb
    exact absurd hout.full hb
  · rw [hmk] at hb
    have hans := (answers_of_outgoing (hrun.box_eq hmk) hb.1 hb.2 hout).2
    refine ⟨_, hrun.answer hmk hans, Function.update_self k _ _, fun k' hk' => ?_⟩
    rw [Function.update_of_ne hk']
    exact hbox k'

/-! ## The accesses of the task -/

/-- A timeout drops the candidate, and what was checked stays checked. -/
theorem lengthChecked_checkTimeout {p : Protocol} (h : p.LengthChecked) (nowMs : Word32) :
    (protocolCheckTimeout nowMs p).LengthChecked := by
  unfold protocolCheckTimeout
  split
  · rintro (hs | hs)
    · cases hs
    · cases hs
  · exact h

/-- No byte makes the parser go on with a length that it has not checked. -/
theorem lengthChecked_processByte {p : Protocol} (h : p.LengthChecked) (byte : Byte)
    (nowMs : Word32) : (protocolProcessByte byte nowMs p).LengthChecked := by
  rcases hs : p.parserState with _ | _ | _ | _ | _ | _ | _
  · rw [processByte_waitSof hs]
    split
    · rintro (h | h) <;> cases h
    · exact h
  · rw [processByte_readVersion hs]
    split
    · rintro (h | h) <;> cases h
    · rintro (h | h) <;> cases h
  · rw [processByte_readType hs]
    rintro (h | h) <;> cases h
  · rw [processByte_readSequence hs]
    rintro (h | h) <;> cases h
  · rw [processByte_readLength hs]
    split
    · rintro (h | h) <;> cases h
    · rename_i hle
      intro _
      exact Nat.le_of_not_lt (mt length_gt_maxPayload.mpr hle)
  · have hlen := h (.inl hs)
    by_cases hi : p.payloadIndex < p.receivedFrame.length ∧ p.payloadIndex < protocolMaxPayload
    · rw [processByte_readPayload hs hi.1 hi.2]
      exact fun _ => hlen
    · unfold protocolProcessByte protocolSwitch
      simp only [ne_eq, hs, reduceCtorEq, not_false_eq_true, if_true, if_neg hi]
      rintro (h | h) <;> cases h
  · rw [processByte_readCrc hs]
    split
    · rintro (h | h) <;> cases h
    · rintro (h | h) <;> cases h

/-- A frame is handed over with a length in range. -/
theorem length_le_of_handledFrame {p : Protocol} (h : p.LengthChecked) {byte : Byte}
    (hf : handledFrame byte p = some frame) : frame.length.toNat ≤ 8 := by
  unfold handledFrame at hf
  split at hf
  · rename_i hc
    rw [← Option.some.inj hf]
    exact h (.inr hc.1)
  · cases hf

/-- The firmware among its interrupts, with its journal. -/
def journalContract (origin : Firmware) : Contract (Firmware × Journal) where
  rely t t' := ∃ x s', Interrupt.handler t.1 x = some s' ∧ t' = journalLens.set s' t
  guar _ _ := True
  inv t := ∃ sending, Ledger origin sending t

/-- A change outside the protocol that keeps the indices in range. -/
theorem Ledger.of_same {sending : Option Slot} (h : Ledger origin sending (s, journal))
    (hp : s'.protocol = s.protocol) (ha : s'.accepted = s.accepted)
    (ht : s'.uart.tx.txStream = s.uart.tx.txStream) (hrx : s'.uart.rx.RxIndexed)
    (htx : s'.uart.tx.TxIndexed) : Ledger origin sending (journalLens.set s' (s, journal)) := by
  rw [journalLens_of_same s s' journal ha ht]
  refine ⟨hrx, htx, ?_, ha.trans h.handedOver, ht.trans h.enqueued, ?_⟩
  · rw [hp]
    exact h.lengthChecked
  · rw [hp]
    exact h.boxes

/-- **No interrupt touches the ledger**: handlers accept no frame and enqueue
nothing. -/
theorem stable_ledger (sending : Option Slot) :
    Stable (journalContract origin) (Ledger origin sending) := by
  rintro ⟨s, journal⟩ t' h ⟨x, s', hx, rfl⟩
  have hrx := h.rxIndexed
  have htx := h.txIndexed
  obtain ⟨byte, rfl⟩ | rfl | rfl | ⟨tick, rfl⟩ | rfl := handler_cases hx
  · exact h.of_same rfl rfl rfl (rxIndexed_usartRxVect hrx) htx
  · exact h.of_same rfl rfl (txStream_usartUdreVect htx) hrx (txIndexed_usartUdreVect htx)
  · exact h.of_same rfl rfl rfl hrx htx
  · exact h.of_same rfl rfl rfl hrx htx
  · exact h.of_same rfl rfl rfl hrx htx

/-- A byte that is processed keeps the ledger: the request it completes is
stored or dropped, and is in the journal either way. -/
theorem Ledger.processByte (h : Ledger origin none (s, journal)) (byte : Byte) (nowMs : Word32) :
    Ledger origin none (journalLens.set (s.processByte byte nowMs) (s, journal)) := by
  have hslots := slots_protocolProcessByte byte nowMs s.protocol
  have hlen := lengthChecked_processByte h.lengthChecked byte nowMs
  obtain ⟨m, hrun, -, hbox⟩ := h.boxes
  have hbox' : ∀ k, s.protocol.slots.Box k (m k) := fun k => hbox k (Option.some_ne_none k).symm
  rcases hf : handledFrame byte s.protocol with _ | frame
  · have ha : (s.processByte byte nowMs).accepted = s.accepted := by
      simp only [Firmware.processByte, hf, Option.toList_none, List.append_nil]
    rw [hf] at hslots
    rw [journalLens_of_same s (s.processByte byte nowMs) journal ha rfl]
    refine ⟨h.rxIndexed, h.txIndexed, hlen, ha.trans h.handedOver, h.enqueued, m, hrun,
      fun k hk => ?_, fun k _ => ?_⟩
    · cases hk
    · show (protocolProcessByte byte nowMs s.protocol).slots.Box k (m k)
      rw [hslots]
      exact hbox' k
  · have ha : (s.processByte byte nowMs).accepted = s.accepted ++ [frame] := by
      simp only [Firmware.processByte, hf, Option.toList_some]
    rw [hf] at hslots
    rw [journalLens_accepted s (s.processByte byte nowMs) journal ha rfl]
    obtain ⟨m', hrun', hbox''⟩ :=
      boxes_handleFrame hrun hbox' (length_le_of_handledFrame h.lengthChecked hf)
    refine ⟨h.rxIndexed, h.txIndexed, hlen, ?_, ?_, m', hrun', fun k hk => ?_, fun k _ => ?_⟩
    · rw [ha, h.handedOver, acceptedFrames_accepted, List.append_assoc]
    · rw [enqueuedData_accepted]
      exact h.enqueued
    · cases hk
    · show (protocolProcessByte byte nowMs s.protocol).slots.Box k (m' k)
      rw [hslots]
      exact hbox'' k

/-- An answer that is enqueued goes to the request in its slot, which no
answer was given to. -/
theorem Ledger.publish (h : Ledger origin none (s, journal)) {head : Byte}
    (hout : Outgoing s.protocol.slots k frame) (hlt : head.toNat < uartTxBufferSize)
    (hq : UartTx.txQueue { s.uart.tx with txHead := head } =
      s.uart.tx.txQueue ++ encodedFrame frame) :
    Ledger origin (some k) (journalLens.set
      (Firmware.txLens.set { s.uart.tx with txHead := head } s) (s, journal)) := by
  obtain ⟨m, hrun, -, hbox⟩ := h.boxes
  have hbox' : ∀ k, s.protocol.slots.Box k (m k) := fun k => hbox k (Option.some_ne_none k).symm
  obtain ⟨m', hrun', hk, hrest⟩ := boxes_publish hrun hbox' hout
  have hne : encodedFrame frame ≠ [] := List.cons_ne_nil _ _
  have hstream : UartTx.txStream { s.uart.tx with txHead := head } =
      s.uart.tx.txStream ++ encodedFrame frame := by
    unfold UartTx.txStream
    rw [hq, List.append_assoc]
  rw [journalLens_enqueued s (Firmware.txLens.set { s.uart.tx with txHead := head } s) journal
    rfl hstream hne]
  refine ⟨h.rxIndexed, ⟨hlt, h.txIndexed.2⟩, h.lengthChecked, ?_, ?_, m', hrun', ?_, ?_⟩
  · rw [acceptedFrames_enqueued]
    exact h.handedOver
  · show UartTx.txStream { s.uart.tx with txHead := head } = _
    rw [hstream, h.enqueued, enqueuedData_enqueued, List.append_assoc]
  · intro k' hk'
    obtain rfl := Option.some.inj hk'
    exact hk
  · intro k' hk'
    exact hrest k' fun he => hk' (by rw [he])

/-- The flag of the slot that was answered is cleared. -/
theorem Ledger.clear (h : Ledger origin (some k) (s, journal)) :
    Ledger origin none (journalLens.set
      (Firmware.slotsLens.set (s.protocol.slots.sent k) s) (s, journal)) := by
  obtain ⟨m, hrun, hk, hbox⟩ := h.boxes
  rw [journalLens_of_same s (Firmware.slotsLens.set (s.protocol.slots.sent k) s) journal rfl rfl]
  refine ⟨h.rxIndexed, h.txIndexed, h.lengthChecked, h.handedOver, h.enqueued, m, hrun,
    fun k' hk' => ?_, fun k' _ => ?_⟩
  · cases hk'
  · show (s.protocol.slots.sent k).Box k' (m k')
    by_cases hkk : k' = k
    · rw [hkk, hk k rfl]
      exact Slots.box_sent s.protocol.slots k
    · exact (hbox k' fun he => hkk (Option.some.inj he).symm).sent hkk

/-- The ledger through the communication task. -/
def ledgerInvariant (origin : Firmware) : CommInvariant (Firmware × Journal) where
  drain := Ledger origin none
  held _ := Ledger origin none
  drained _ := True
  serve _ := Ledger origin none
  published k _ := Ledger origin (some k)

/-- **Every access of the communication task keeps the ledger.** -/
theorem ledger_kept (r : Readings) :
    (ledgerInvariant origin).Kept journalLens (journalContract origin) r where
  guar_refl _ := trivial
  protocol_rely := by
    rintro ⟨s, journal⟩ t' ⟨x, s', hx, rfl⟩
    exact protocol_of_handler hx
  tx_rely := by
    rintro ⟨s, journal⟩ t' ⟨x, s', hx, rfl⟩
    exact tx_of_handler hx
  rx_rely := by
    rintro ⟨s, journal⟩ t' ⟨x, s', hx, rfl⟩
    exact rx_of_handler hx
  reports_rely := by
    rintro ⟨s, journal⟩ t' ⟨x, s', hx, rfl⟩
    exact keepsReports_of_handler hx
  stable_drain := stable_ledger none
  stable_held _ := stable_ledger none
  stable_drained := Stable.const True
  stable_serve _ := stable_ledger none
  stable_published k _ := stable_ledger (some k)
  inv_drain _ h := ⟨none, h⟩
  inv_held _ _ h := ⟨none, h⟩
  inv_serve _ _ h := ⟨none, h⟩
  inv_published k _ _ h := ⟨some k, h⟩
  rxIndexed _ h := h.rxIndexed
  txIndexed _ _ h := h.txIndexed
  checkTimeout := by
    rintro ⟨s, journal⟩ h
    refine ⟨trivial, ?_⟩
    show Ledger origin none (journalLens.set (s.checkTimeout r.nowMs) (s, journal))
    rw [journalLens_of_same s (s.checkTimeout r.nowMs) journal rfl rfl]
    refine ⟨h.rxIndexed, h.txIndexed, lengthChecked_checkTimeout h.lengthChecked r.nowMs,
      h.handedOver, h.enqueued, ?_⟩
    obtain ⟨m, hrun, hs, hbox⟩ := h.boxes
    refine ⟨m, hrun, hs, fun k hk => ?_⟩
    show (protocolCheckTimeout r.nowMs s.protocol).slots.Box k (m k)
    rw [slots_protocolCheckTimeout]
    exact hbox k hk
  receive := by
    rintro ⟨s, journal⟩ b u h hq hu - -
    exact ⟨trivial, h.of_same rfl rfl rfl hu h.txIndexed⟩
  process := by
    rintro ⟨s, journal⟩ b n h
    exact ⟨trivial, h.processByte b (r.byteMs n)⟩
  seen_empty _ _ _ := trivial
  serve_all _ h _ := h
  block := by
    refine (Triple.zoom (I := Ledger origin none) (journalLens.comp Firmware.controlLens)
      setSafeOutputs (stable_ledger none) (fun t h => ⟨none, h⟩) ?_).conseq (fun t h => h.1)
      fun _ _ h => h
    rintro ⟨s, journal⟩ control h
    exact ⟨trivial, h.of_same rfl rfl rfl h.rxIndexed h.txIndexed⟩
  scan := by
    rintro ⟨s, journal⟩ p todo h
    exact ⟨trivial, h.of_same rfl rfl rfl h.rxIndexed h.txIndexed⟩
  skip _ _ _ h _ := h
  noRoom _ _ _ _ h _ _ := h
  fill := by
    rintro ⟨s, journal⟩ i b todo h hi u u'
    have hq := txQueue_update (b := b) hi
    have hstream : u'.txStream = s.uart.tx.txStream := congrArg (s.uart.tx.udr0 ++ ·) hq
    exact ⟨trivial, h.of_same rfl rfl hstream h.rxIndexed h.txIndexed⟩
  publish := by
    rintro ⟨s, journal⟩ k todo frame head h hout - hlt u u' hq
    exact ⟨trivial, h.publish hout.outgoing hlt hq⟩
  enable := by
    rintro ⟨s, journal⟩ k todo ucsr0b h - -
    exact ⟨trivial, h.of_same rfl rfl rfl h.rxIndexed h.txIndexed⟩
  clear := by
    rintro ⟨s, journal⟩ k todo h
    exact ⟨trivial, h.clear⟩

/-! ## Whole runs -/

/-- **Every task keeps the ledger**, whatever the interrupts do meanwhile. -/
theorem ledger_sound :
    Sound (firmware.along journalLens) (journalContract origin) (Ledger origin none)
      fun _ _ => Ledger origin none where
  env := by
    rintro x ⟨s, journal⟩ t' h
    obtain ⟨s', hx, rfl⟩ := Option.map_eq_some_iff.mp h
    exact ⟨x, s', hx, rfl⟩
  stable := stable_ledger none
  task := by
    rintro ⟨task, r⟩
    have hstable := @stable_ledger origin none
    have hinv : ∀ t, Ledger origin none t → (journalContract origin).inv t :=
      fun t h => ⟨none, h⟩
    have hprofiler : ∀ t p, Ledger origin none t → True ∧
        Ledger origin none
          (journalLens.set (Firmware.profilerLens.set p (journalLens.get t)) t) := by
      rintro ⟨s, journal⟩ p h
      exact ⟨trivial, h.of_same rfl rfl rfl h.rxIndexed h.txIndexed⟩
    have hcontrol : ∀ t c, Ledger origin none t → True ∧
        Ledger origin none
          (journalLens.set (Firmware.controlLens.set c (journalLens.get t)) t) := by
      rintro ⟨s, journal⟩ c h
      exact ⟨trivial, h.of_same rfl rfl rfl h.rxIndexed h.txIndexed⟩
    have hbody : Triple (journalContract origin) (Ledger origin none)
        ((task.body r).zoom journalLens) fun _ => Ledger origin none := by
      rcases task with _ | _ | _ | _
      · simp only [Task.body, Prog.zoom_zoom]
        exact Triple.zoom _ _ hstable hinv hcontrol
      · simp only [Task.body, Prog.zoom_zoom]
        exact Triple.zoom _ _ hstable hinv hcontrol
      · simp only [Task.body, Prog.zoom_zoom]
        exact Triple.zoom _ _ hstable hinv hcontrol
      · exact communication_triple (ledger_kept r)
    have hdispatch := Dispatch.triple (d := ⟨task, r⟩) hstable hstable hinv hinv hprofiler
      hprofiler hbody
    exact hdispatch.conseq (fun t h => h.1) fun _ _ h => h
  idle _ _ _ h := h

/-- The ledger after `main` has initialised. -/
theorem ledger_start (b : Boot) (s : Firmware) : Ledger (s.boot b) none (s.boot b, []) := by
  obtain ⟨hu, hp, -⟩ := boot_spec b s
  have h0 : (0 : Byte).toNat < uartRxBufferSize := by decide
  have h0' : (0 : Byte).toNat < uartTxBufferSize := by decide
  refine ⟨?_, ?_, ?_, ?_, ?_, fun _ => none, .nil, fun _ _ => rfl, fun k _ => ?_⟩
  · rw [hu]
    exact ⟨h0, h0⟩
  · rw [hu]
    exact ⟨h0', h0'⟩
  · rw [hp]
    rintro (h | h) <;> cases h
  · simp [acceptedFrames]
  · simp [enqueuedData]
  · rw [hp]
    rcases k with _ | kind
    · exact not_not.mpr rfl
    · exact not_not.mpr rfl

/-- **Every response answers one request, and no request is lost.** In any
run from reset the journal accounts for every frame handed over and every
byte enqueued. Each answer has a request of its own, earlier, that took
its slot and that it answers; and a request that took its slot is either
answered so or still stored there unchanged. -/
theorem requests_answered (b : Boot) (s : Firmware)
    (h : firmware.run (firmwareStart b s) es = some c) :
    c.state.accepted = (s.boot b).accepted ++
        acceptedFrames (requestJournal (firmwareStart b s) es) ∧
      c.state.uart.tx.txStream = (s.boot b).uart.tx.txStream ++
        enqueuedData (requestJournal (firmwareStart b s) es) ∧
      ∃ f : ℕ → ℕ,
        (∀ i data, (requestJournal (firmwareStart b s) es)[i]? = some (.enqueued data) →
          f i < i ∧ ∃ request, Answers request data ∧
            (requestJournal (firmwareStart b s) es)[f i]? = some (.accepted request true)) ∧
        (∀ i i' data data',
          (requestJournal (firmwareStart b s) es)[i]? = some (.enqueued data) →
          (requestJournal (firmwareStart b s) es)[i']? = some (.enqueued data') →
          f i = f i' → i = i') ∧
        ∀ j request,
          (requestJournal (firmwareStart b s) es)[j]? = some (.accepted request true) →
          (∃ k, request.slot = some k ∧ c.state.protocol.slots.Stores request k) ∨
          ∃ i data, (requestJournal (firmwareStart b s) es)[i]? = some (.enqueued data) ∧
            f i = j := by
  obtain ⟨⟨sending, hledger⟩, -⟩ := Sound.history (@ledger_sound (s.boot b))
    (fun t ht => ⟨none, ht⟩) rfl (ledger_start b s) h
  obtain ⟨m, hrun, hsending, hbox⟩ := hledger.boxes
  obtain ⟨f, pos, hm⟩ := hrun.matching
  refine ⟨hledger.handedOver, hledger.enqueued, f, ?_, hm.injective, ?_⟩
  · intro i data hi
    obtain ⟨hlt, request, hj, ha⟩ := hm.earlier i data hi
    exact ⟨hlt, request, ha, hj⟩
  · intro j request hj
    rcases hm.kept j request hj with ⟨k, hk, -⟩ | hanswered
    · have hne : sending ≠ some k := by
        intro he
        rw [hsending k he] at hk
        cases hk
      have hb := hbox k hne
      rw [hk] at hb
      exact .inl ⟨k, hrun.box_eq hk, hb.1⟩
    · exact .inr hanswered

/-- The six bytes of a PING, and one pass of the communication task. -/
def pingPass : List FirmwareEvent :=
  [0xA5#8, 0x01#8, 0x01#8, 0x10#8, 0x00#8, 0x2A#8].map (fun byte => .env (.usartRx byte)) ++
    .dispatch ⟨.communication, .zeroed⟩ :: List.replicate 71 .foreground

/-- A PING is answered by a PONG. -/
theorem requests_answered_ping :
    ∃ c, firmware.run (firmwareStart ⟨0, 0, 0, 0⟩ .zeroed) pingPass = some c ∧
      c.state.uart.tx.txStream = (Firmware.boot ⟨0, 0, 0, 0⟩ .zeroed).uart.tx.txStream ++
        [0xA5#8, 0x01#8, 0x81#8, 0x10#8, 0x00#8, 0x21#8] := by
  have hrun : (firmware.run (firmwareStart ⟨0, 0, 0, 0⟩ .zeroed) pingPass).isSome = true := by
    decide +kernel
  have henqueued : enqueuedData (requestJournal (firmwareStart ⟨0, 0, 0, 0⟩ .zeroed) pingPass) =
      [0xA5#8, 0x01#8, 0x81#8, 0x10#8, 0x00#8, 0x21#8] := by
    decide +kernel
  obtain ⟨c, hc⟩ := Option.isSome_iff_exists.mp hrun
  have hstream := (requests_answered ⟨0, 0, 0, 0⟩ .zeroed hc).2.1
  rw [henqueued] at hstream
  exact ⟨c, hc, hstream⟩

end SentryCell
