import SentryCell.Firmware.Execution
import SentryCell.Firmware.PassLength
import SentryCell.System.Conversation
/-!
# The passes of a conversation

Every task keeps the conversation of `Conversation`, each execution under
the contract of its own dispatch, and a pass of `communication_task` hands
over what has arrived. It also returns: a waiting host has at most the
fourteen bytes of one request under way, so that the loop which drains the
ring comes to its end.
-/

namespace SentryCell

open Foreground Word Machine

variable {origin s s' : Firmware} {h h' : HostSide} {t t' : Firmware × HostSide}
variable {n : Option ℕ} {phase : Phase} {d : Dispatch} {held : List Byte} {m : ℕ}

/-! ## Every task -/

/-- How an idle machine stands: no slot holds a request. -/
def Settled (origin : Firmware) (n : Option ℕ) (t : Firmware × HostSide) : Prop :=
  Stands origin n none [] (fun m => ∀ k, m k = none) t

theorem stable_settled : Stable (worldContract origin d) (Settled origin n) := stable_stands

theorem Settled.inv (hs : Settled origin n t) : (worldContract origin d).inv t := Stands.inv hs

/-- A change outside the rings and the protocol. -/
theorem Settled.of_same (hs : Settled origin n (s, h)) (hu : s'.uart = s.uart)
    (hp : s'.protocol = s.protocol) (ha : s'.accepted = s.accepted) :
    Settled origin n (s', h) := by
  refine Stands.of_same hs hp ha ?_ ?_ ?_ ?_ ?_
  · rw [hu]
  · rw [hu]
    exact id
  · rw [hu]
  · rw [hu]
  · rw [hu]

/-- Nothing but the task touches the parser. -/
theorem stable_onTime (r : Readings) : Stable (worldContract origin d) fun t =>
    Settled origin n t ∧ ¬ t.1.protocol.TimedOut r.nowMs := by
  rintro ⟨s, h⟩ ⟨s', h'⟩ ⟨ht, hon⟩ ⟨x, hstep⟩
  refine ⟨stable_settled (d := d) _ _ ht ⟨x, hstep⟩, ?_⟩
  have hprotocol : s'.protocol = s.protocol := protocol_of_worldStep hstep
  show ¬ s'.protocol.TimedOut r.nowMs
  rw [hprotocol]
  exact hon

theorem checkTimeout_onTime {nowMs : Word32} (hon : ¬ s.protocol.TimedOut nowMs) :
    s.checkTimeout nowMs = s := by
  have hcheck : protocolCheckTimeout nowMs s.protocol = s.protocol := if_neg hon
  unfold Firmware.checkTimeout
  rw [hcheck]

/-- A pass whose check leaves the candidate alone. -/
theorem communication_triple_onTime (r : Readings) :
    Triple (worldContract origin ⟨.communication, r⟩)
      (fun t => Settled origin n t ∧ ¬ t.1.protocol.TimedOut r.nowMs)
      ((communication r).zoom Lens.first)
      fun _ t => Settled origin n t ∧ HandedOver origin n t.1 := by
  have hkept : (worldInvariant origin n).KeptOnTime Lens.first
      (worldContract origin ⟨.communication, r⟩) r := world_kept r
  refine (communication_onTime_triple hkept (stable_onTime r) (fun t ht => ht.1.inv) ?_).conseq
    (fun t ht => ht) ?_
  · -- the check finds nothing that is too old
    rintro ⟨s, h⟩ ⟨⟨⟨phase, hc, -⟩, ha⟩, hon⟩
    refine ⟨⟨rfl, .inl rfl⟩, ?_⟩
    show Stands origin n none [] (fun _ => True) (s.checkTimeout r.nowMs, h)
    rw [checkTimeout_onTime hon]
    exact ⟨⟨phase, hc, trivial⟩, ha⟩
  · rintro - t ⟨⟨⟨phase, hc, hempty⟩, ha⟩, hn⟩
    refine ⟨⟨⟨phase, hc, fun k => ?_⟩, ha⟩, hn⟩
    by_contra hne
    exact List.not_mem_nil (hempty k hne)

/-- **Every task keeps the conversation**, and a pass of
`communication_task` hands over what has arrived. -/
theorem world_sound : SoundBy world (worldContract origin) (Settled origin n)
    fun d _ t => Settled origin n t ∧ (d.task = .communication → HandedOver origin n t.1) where
  env := by
    rintro - x ⟨s, h⟩ ⟨s', h'⟩ hx
    exact ⟨x, worldStep_of_env hx⟩
  stable := by
    rintro x ⟨s, h⟩ ⟨s', h'⟩ hx ht
    exact stable_settled (d := ⟨.communication, .zeroed⟩) _ _ ht ⟨x, worldStep_of_env hx⟩
  idle _ _ _ h := h.1
  task := by
    rintro ⟨task, r⟩
    have hprofiler : ∀ (t : Firmware × HostSide) p, Settled origin n t →
        (worldContract origin ⟨task, r⟩).guar t
            (Lens.first.set (Firmware.profilerLens.set p (Lens.first.get t)) t) ∧
          Settled origin n
            (Lens.first.set (Firmware.profilerLens.set p (Lens.first.get t)) t) := by
      rintro ⟨s, h⟩ p ht
      exact ⟨⟨rfl, .inl rfl⟩, ht.of_same rfl rfl rfl⟩
    by_cases htask : task = .communication
    · subst htask
      have hdispatch := Dispatch.triple (d := ⟨.communication, r⟩) (stable_onTime r)
        (stable_settled.and stable_handedOver) (fun t ht => ht.1.inv) (fun t ht => ht.1.inv)
        (fun t p ht => ⟨(hprofiler t p ht.1).1, (hprofiler t p ht.1).2, ht.2⟩)
        (fun t p ht => ⟨(hprofiler t p ht.1).1, (hprofiler t p ht.1).2, ht.2⟩)
        (communication_triple_onTime r)
      refine hdispatch.conseq ?_ fun _ t ht => ⟨ht.1, fun _ => ht.2⟩
      rintro t ⟨ht, hready⟩
      exact ⟨ht, of_decide_eq_true hready rfl⟩
    · have hcontrol : ∀ (t : Firmware × HostSide) c, Settled origin n t →
          (worldContract origin ⟨task, r⟩).guar t
              (Lens.first.set (Firmware.controlLens.set c (Lens.first.get t)) t) ∧
          Settled origin n
            (Lens.first.set (Firmware.controlLens.set c (Lens.first.get t)) t) := by
        rintro ⟨s, h⟩ c ht
        exact ⟨⟨rfl, .inl rfl⟩, ht.of_same rfl rfl rfl⟩
      have hinv : ∀ t, Settled origin n t → (worldContract origin ⟨task, r⟩).inv t := fun t ht => ht.inv
      have hbody : Triple (worldContract origin ⟨task, r⟩) (Settled origin n)
          ((task.body r).zoom Lens.first) fun _ => Settled origin n := by
        rcases task with _ | _ | _ | _
        · simp only [Task.body, Prog.zoom_zoom]
          exact Triple.zoom _ _ stable_settled hinv hcontrol
        · simp only [Task.body, Prog.zoom_zoom]
          exact Triple.zoom _ _ stable_settled hinv hcontrol
        · simp only [Task.body, Prog.zoom_zoom]
          exact Triple.zoom _ _ stable_settled hinv hcontrol
        · exact absurd rfl htask
      have hdispatch := Dispatch.triple (d := ⟨task, r⟩) stable_settled stable_settled hinv hinv
        hprofiler hprofiler hbody
      exact hdispatch.conseq (fun t ht => ht.1) fun _ t ht => ⟨ht, fun he => absurd he htask⟩

/-! ## A pass returns -/

/-- **At most `m` bytes** can still reach the parser before the task
enqueues a response. -/
def Coming (origin : Firmware) (held : List Byte) (m : ℕ) (t : Firmware × HostSide) : Prop :=
  ∃ phase, Conversation origin none held phase t ∧
    t.1.uart.rx.rxQueue.length + t.2.toMcu.length + phase.toCome ≤ m

/-- **Nothing that comes between two accesses adds to them.** -/
theorem stable_coming : Stable (worldContract origin d) (Coming origin held m) := by
  rintro ⟨s, h⟩ ⟨s', h'⟩ ⟨phase, hc, hm⟩ ⟨x, hstep⟩
  rcases hstep with ⟨byte, rest, hline⟩ | _ | ⟨_, _, hu, hp, ha, -⟩ |
    ⟨request, ha⟩ | ⟨request, frame, rest, ha, hr⟩
  · -- a byte that arrives moves from the line to the ring
    obtain ⟨hqueue, hc'⟩ := hc.arrive hline
    refine ⟨phase, hc', ?_⟩
    show (usartRxVect byte s.uart.rx).rxQueue.length + rest.length + phase.toCome ≤ m
    rw [hqueue, List.length_append, List.length_singleton]
    have hm' : s.uart.rx.rxQueue.length + h.toMcu.length + phase.toCome ≤ m := hm
    rw [hline, List.length_cons] at hm'
    omega
  · exact ⟨phase, hc.send, hm⟩
  · refine ⟨phase, hc.of_same hp ha ?_ ?_ ?_ ?_ ?_, ?_⟩
    · rw [hu]
    · rw [hu]
      exact hc.txIndexed
    · rw [hu]
    · rw [hu]
    · rw [hu]
    · show s'.uart.rx.rxQueue.length + h.toMcu.length + phase.toCome ≤ m
      rw [hu]
      exact hm
  · -- a request takes the place of what could still come
    obtain ⟨rfl, hc'⟩ := hc.write ha request
    obtain ⟨-, -, hrx, hto⟩ := hc.line_nil rfl
    have hlen := request.length_bytes_le
    have hfree : s.uart.rx.rxQueue.length + h.toMcu.length + 14 ≤ m := hm
    refine ⟨_, hc', ?_⟩
    show s.uart.rx.rxQueue.length + (h.toMcu ++ request.bytes).length + 0 ≤ m
    rw [hto, hrx] at hfree
    rw [hto, hrx, List.nil_append]
    simp only [List.length_nil] at hfree ⊢
    omega
  · obtain ⟨⟨response, rfl, rfl⟩, hc'⟩ := hc.read ha hr
    exact ⟨_, hc', hm⟩

/-- A request has at most fourteen bytes. -/
theorem Conversation.coming (hc : Conversation origin none [] phase t) :
    Coming origin [] 14 t := by
  have hroom := hc.length_rxQueue_le
  have hnone : phase.line = [] → t.1.uart.rx.rxQueue.length + t.2.toMcu.length = 0 := by
    intro hl
    obtain ⟨-, -, hrx, hto⟩ := hc.line_nil hl
    rw [hrx, hto]
    rfl
  refine ⟨phase, hc, ?_⟩
  rcases phase with _ | request | ⟨request, frame⟩ | ⟨request, response⟩
  · have hzero := hnone rfl
    simp only [Phase.toCome]
    omega
  · exact hroom
  · exact hroom
  · have hzero := hnone rfl
    simp only [Phase.toCome]
    omega

/-- **A turn of the loop** takes one of them. -/
theorem drainByte_coming (r : Readings) (m i : ℕ) :
    Triple (worldContract origin ⟨.communication, r⟩) (Coming origin [] m)
      ((drainByte r i).zoom Lens.first) fun o t => match o with
        | some _ => ∃ m' < m, Coming origin [] m' t
        | none => ∃ m, Coming origin [] m t := by
  have hrefl : ∀ t, (worldContract origin ⟨.communication, r⟩).guar t t :=
    (world_kept (n := none) r).guar_refl
  have hinv : ∀ held m t, Coming origin held m t →
      (worldContract origin ⟨.communication, r⟩).inv t := by
    rintro held m t ⟨phase, hc, -⟩
    exact ⟨none, held, phase, hc⟩
  have hindexed : ∀ t, Coming origin [] m t → t.1.uart.rx.RxIndexed := by
    rintro t ⟨_, hc, -⟩
    exact hc.rxIndexed
  have hheld : ∀ b, Stable (worldContract origin ⟨.communication, r⟩)
      fun t => ∃ m' < m, Coming origin [b] m' t := by
    rintro b t t' ⟨m', hlt, ht⟩ hr
    exact ⟨m', hlt, stable_coming _ _ ht hr⟩
  simp only [drainByte, Prog.bind_eq, Prog.zoom_bind, Prog.zoom_zoom]
  have hread := uartReadByte_triple (Lens.first.comp Firmware.rxLens)
    (P := Coming origin [] m) (E := fun _ => True)
    (H := fun b t => ∃ m' < m, Coming origin [b] m' t)
    hindexed (fun t t' hr => (world_kept (n := none) r).rx_rely t t' hr)
    stable_coming (.const True) (fun t ht => hinv _ _ t ht) hrefl (fun _ _ _ => trivial) ?_
  · refine Triple.bind hread fun o => ?_
    rcases o with _ | b
    · exact Triple.ret fun t ht => ⟨m, ht.1⟩
    · simp only [Prog.zoom_bind, Prog.zoom_write]
      refine Triple.write_bind (B := fun t => ∃ m' < m, Coming origin [] m' t) (hheld b)
        ?_ ?_ (Triple.ret fun t ht => ht)
      · rintro t ⟨_, -, ht⟩
        exact hinv _ _ t ht
      · rintro ⟨s, h⟩ ⟨m', hlt, phase, hc, hm⟩
        obtain ⟨phase', hcome, hc'⟩ := hc.process (r.byteMs i)
        refine ⟨⟨rfl, .inl rfl⟩, m', hlt, phase', hc', ?_⟩
        rw [hcome]
        exact hm
  · rintro ⟨s, h⟩ b u ⟨phase, hc, hm⟩ hq hu - hcount
    have hsize : s.uart.rx.rxQueue.length = u.rxQueue.length + 1 := congrArg List.length hq
    have hm' : s.uart.rx.rxQueue.length + h.toMcu.length + phase.toCome ≤ m := hm
    refine ⟨⟨rfl, .inl rfl⟩, m - 1, by omega, phase, hc.receive hq hu hcount, ?_⟩
    show u.rxQueue.length + h.toMcu.length + phase.toCome ≤ m - 1
    omega

/-- **A pass whose check leaves the candidate alone returns**, whatever
arrives meanwhile. -/
theorem communication_returns_onTime (r : Readings) (hs : Settled origin n t)
    (hon : ¬ t.1.protocol.TimedOut r.nowMs) :
    Returns (worldContract origin ⟨.communication, r⟩) (fun _ _ => True) (passBound 14)
      ((Dispatch.program ⟨.communication, r⟩).zoom Lens.first) t := by
  have hcoming : Stable (worldContract origin ⟨.communication, r⟩)
      fun t => ∃ m, Coming origin [] m t := by
    rintro t t' ⟨m, ht⟩ hr
    exact ⟨m, stable_coming _ _ ht hr⟩
  refine dispatch_returns (stable_onTime (n := n) r) ?_ (fun t ht => ?_) ⟨hs, hon⟩
  · rintro ⟨s, h⟩ p ⟨ht, hon⟩
    exact ⟨ht.of_same rfl rfl rfl, hon⟩
  · refine communication_returns (stable_onTime (n := n) r) (fun _ => stable_coming) hcoming ?_
      (drainByte_coming r) ?_ ht
    · rintro ⟨s, h⟩ ⟨⟨⟨phase, hc, -⟩, -⟩, hon⟩
      show Coming origin [] 14 (s.checkTimeout r.nowMs, h)
      rw [checkTimeout_onTime hon]
      exact hc.coming
    · rintro t ⟨m, phase, hc, -⟩
      exact hc.unblocked

end SentryCell
