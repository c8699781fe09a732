import SentryCell.Firmware.Enqueued
import SentryCell.System.Passes
/-!
# Transactions, answered once each

The conversation over whole runs of the firmware with a waiting host, from
any state that the firmware can reach with nothing under way. `Transacted`
is what a run of any length comes to: no byte is dropped, every request is
handed over once, every transaction is the request and its documented
response, and what a status reports is what the pass that enqueued it
found.
-/

namespace SentryCell

open Foreground Word Machine

variable {origin s s' : Firmware} {h h' : HostSide} {t t' : Firmware × HostSide}
variable {n : Option ℕ} {phase : Phase} {r : Readings}
variable {request : HostRequest}

/-! ## The start -/

/-- What only `communication_task` touches. -/
def SameLink (s s' : Firmware) : Prop :=
  s'.uart = s.uart ∧ s'.protocol = s.protocol ∧ s'.accepted = s.accepted

theorem within_sameLink {d : Dispatch} (h : d.task ≠ .communication) :
    d.program.Within SameLink := by
  have hprofiler : ∀ p : Prog Profiler Unit, (p.zoom Firmware.profilerLens).Within SameLink :=
    fun p => Prog.within_zoom _ p fun _ _ => ⟨rfl, rfl, rfl⟩
  have hcontrol : ∀ p : Prog Control Unit, (p.zoom Firmware.controlLens).Within SameLink :=
    fun p => Prog.within_zoom _ p fun _ _ => ⟨rfl, rfl, rfl⟩
  refine (hprofiler _).bind fun _ => Prog.Within.bind ?_ fun _ => hprofiler _
  rcases d with ⟨_ | _ | _ | _, r⟩
  · exact hcontrol _
  · exact hcontrol _
  · exact hcontrol _
  · exact absurd rfl h

/-- What remains of another task in progress touches none of it. -/
theorem staged_sameLink : Staged firmware (fun _ _ => True)
    fun _ d p _ => d.task ≠ .communication → p.Within SameLink where
  start _ _ _ _ _ h := within_sameLink h
  step _ _ _ _ _ _ hp hn h := ((hp h).next (fun _ => ⟨rfl, rfl, rfl⟩) hn).2
  finish _ _ _ _ _ := trivial
  env_idle _ _ _ _ _ _ := trivial
  env_running _ _ _ _ _ _ _ hp _ := hp

/-- **A firmware with nothing under way**: the parser waits, no slot holds
a request, both rings are empty, and no pass of `communication_task` is in
progress. -/
structure AtRest (c : FirmwareConfig) : Prop where
  parser : c.state.protocol.parserState = .waitSof
  response : c.state.protocol.slots.responsePending = 0
  block : c.state.protocol.slots.watchdogBlockRequestPending = 0
  statuses : ∀ kind, c.state.protocol.slots.requestPending kind = 0
  rx : c.state.uart.rx.rxQueue = []
  tx : c.state.uart.tx.txQueue = []
  pass : ∀ d p, c.running = some (d, p) → d.task ≠ .communication

/-- The configurations of the world, as the triples leave them. -/
abbrev Conversing (origin : Firmware) (n : Option ℕ) : WorldConfig → Prop :=
  SafeConfigBy (worldContract origin) (Settled origin n) fun d _ t =>
    Settled origin n t ∧ (d.task = .communication → HandedOver origin n t.1)

/-- A conversation begins where the firmware is at rest, with a host that
is free. -/
theorem settled_start {c : FirmwareConfig} (hq : AtRest c) (hl : LinkReady c.state) :
    Settled c.state none (c.state, .start) := by
  refine ⟨⟨.free, ⟨hl.indexed.1, hl.indexed.2, hl.enabled, rfl, hq.block, trivial, rfl,
    ⟨[], .idle hq.parser, ?_⟩, ?_, fun k _ => ?_, ?_, ?_⟩, fun _ => rfl⟩,
    fun m hm => by cases hm⟩
  · show c.state.uart.rx.rxQueue ++ [] = []
    rw [hq.rx]
    rfl
  · show c.state.uart.tx.txQueue = []
    exact hq.tx
  · rcases k with _ | kind
    · exact not_not.mpr hq.response
    · exact not_not.mpr (hq.statuses kind)
  · simp [HostSide.start, Phase.handed]
  · simp [HostSide.start, HostSide.received]

theorem conversing_start {b : Boot} {s : Firmware} {es : List FirmwareEvent} {c : FirmwareConfig}
    (h : firmware.run (firmwareStart b s) es = some c) (hq : AtRest c) :
    Conversing c.state none (worldStart c) := by
  have hsettled := settled_start hq (linkReady_run h)
  have hc := staged_sameLink.run (c := firmwareStart b s) trivial h
  rcases hr : c.running with _ | ⟨d, p⟩
  · simp only [StagedConfig, worldStart, liftConfig, hr, Option.map_none]
    exact hsettled
  · obtain ⟨hp, hwithin⟩ := hc.running hr
    have htask := hq.pass d p hr
    simp only [StagedConfig, worldStart, liftConfig, hr, Option.map_some]
    refine ⟨by rw [Prog.zoom_result, hp], fun n => ?_⟩
    -- the task in progress leaves the conversation alone
    have hzoom : (p.zoom (Lens.first (γ := HostSide))).Within fun t t' =>
        SameLink t.1 t'.1 ∧ t'.2 = t.2 :=
      (hwithin htask).zoom Lens.first fun t s hs => ⟨hs, rfl⟩
    have htriple : Triple (worldContract c.state d) (Settled c.state none)
        (p.zoom (Lens.first (γ := HostSide))) fun _ => Settled c.state none := by
      refine hzoom.triple (fun _ => ⟨⟨rfl, rfl, rfl⟩, rfl⟩) stable_settled (fun t ht => ht.inv) ?_
      rintro ⟨s, h⟩ ⟨s', h'⟩ ht ⟨⟨hu, hpr, ha⟩, rfl⟩
      refine ⟨⟨rfl, .inl ?_⟩, ht.of_same hu hpr ha⟩
      rw [hu]
    exact (htriple _ hsettled n).conseq fun _ t ht => ⟨ht, fun he => absurd he htask⟩

/-! ## Runs -/

variable {c c₀ c' : WorldConfig} {es : List WorldEvent} {start : FirmwareConfig}

/-- The invariant of the contract holds in every configuration. -/
theorem Conversing.conversation (hc : Conversing origin n c) :
    ∃ sending held phase, Conversation origin sending held phase c.state := by
  rcases hr : c.running with _ | ⟨d, p⟩
  · exact Settled.inv (d := ⟨.communication, .zeroed⟩) (hc.idle hr)
  · obtain ⟨hp, hsafe⟩ := hc.running hr
    exact ((safe_succ_iff hp).mp (hsafe 1)).1

/-- The transactions account for the requests. -/
theorem Conversing.requests {e : WorldEvent} (hc : Conversing origin n c)
    (hstep : world.step c e = some c') :
    c'.state.2.requests = c.state.2.requests ++ writtenRequests [e] := by
  obtain ⟨d, rfl, -, -, rfl⟩ | ⟨d, p, p', t', rfl, hr, hn, rfl⟩ | ⟨x, t', rfl, hx, rfl⟩ :=
    step_cases hstep
  · rw [settle_state]
    exact (List.append_nil _).symm
  · -- no task touches the host
    have hhost := (hc.foreground hr hstep).1
    rw [hhost]
    exact (List.append_nil _).symm
  · exact requests_of_worldStep (worldStep_of_env hx)

theorem writtenRequests_append (es es' : List WorldEvent) :
    writtenRequests (es ++ es') = writtenRequests es ++ writtenRequests es' :=
  List.filterMap_append

/-- **A run keeps the conversation**, and accounts for the requests. -/
theorem Conversing.run (hc : Conversing origin n c) (h : world.run c es = some c') :
    Conversing origin n c' ∧
      c'.state.2.requests = c.state.2.requests ++ writtenRequests es := by
  induction es generalizing c with
  | nil =>
    obtain rfl : c = c' := by simpa using h
    exact ⟨hc, (List.append_nil _).symm⟩
  | cons e es ih =>
    obtain ⟨c₁, hs, hr⟩ := run_cons_eq_some.mp h
    obtain ⟨hc', hrequests⟩ := ih (world_sound.staged.step_config hc hs) hr
    refine ⟨hc', ?_⟩
    rw [hrequests, hc.requests hs, List.append_assoc, ← writtenRequests_append]
    rfl

/-! ## What the host was told -/

/-- **A response that the firmware has given** in a run, to `request` and
after the transactions `before`: in a pass of `communication_task` there
was a step from which on it was under way, and it is the documented
response in the state of that step and among the readings of that pass. -/
def Told (start : FirmwareConfig) (es : List WorldEvent)
    (before : List (HostRequest × Host.Frame)) (request : HostRequest) (response : Host.Frame) :
    Prop :=
  ∃ es₁ es₂ c d p, es = es₁ ++ .foreground :: es₂ ∧
    world.run (worldStart start) es₁ = some c ∧ c.running = some (d, p) ∧
    d.task = .communication ∧ c.state.2.transactions = before ∧
    c.state.2.awaiting = some request ∧ request.AnsweredBy c.state.1 d.readings response

/-- **A response is on its way** to the host, and nothing else. -/
def OnItsWay (start : FirmwareConfig) (es : List WorldEvent) (t : Firmware × HostSide) : Prop :=
  ∃ request ∈ t.2.awaiting, ∃ response, Told start es t.2.transactions request response ∧
    Host.encodeFrame response = .ok (t.2.fromMcu ++ t.1.uart.tx.txQueue)

/-- **The account of a run**: what the host has read it was told, each
response after the transactions before it, and so it is with what is under
way to it. -/
structure Account (start : FirmwareConfig) (es : List WorldEvent) (t : Firmware × HostSide) :
    Prop where
  answered : ∀ before request response after,
    t.2.transactions = before ++ (request, response) :: after →
      Told start es before request response
  pending : t.2.fromMcu ++ t.1.uart.tx.txQueue = [] ∨ OnItsWay start es t

/-- What was told once was told. -/
theorem Told.append {before : List (HostRequest × Host.Frame)} {response : Host.Frame}
    (h : Told start es before request response) (es' : List WorldEvent) :
    Told start (es ++ es') before request response := by
  obtain ⟨es₁, es₂, c, d, p, rfl, hrest⟩ := h
  exact ⟨es₁, es₂ ++ es', c, d, p, by rw [List.append_assoc, List.cons_append], hrest⟩

/-- What does not reach the host's end of the line leaves the account as
it was. -/
theorem Account.append (ha : Account start es t) (es' : List WorldEvent)
    (htransactions : t'.2.transactions = t.2.transactions)
    (hawaiting : t'.2.awaiting = t.2.awaiting)
    (hout : t'.2.fromMcu ++ t'.1.uart.tx.txQueue = t.2.fromMcu ++ t.1.uart.tx.txQueue) :
    Account start (es ++ es') t' := by
  refine ⟨fun before request response after he => ?_, ?_⟩
  · rw [htransactions] at he
    exact (ha.answered before request response after he).append es'
  · rw [hout]
    refine ha.pending.imp_right ?_
    rintro ⟨request, hopen, response, htold, hbytes⟩
    refine ⟨request, ?_, response, ?_, ?_⟩
    · rw [hawaiting]
      exact hopen
    · rw [htransactions]
      exact htold.append es'
    · rw [hout]
      exact hbytes

/-- **What the environment does to the account**: the reader returns what
was on its way, and nothing else touches it. -/
theorem Account.env {x : WorldInterrupt} (ha : Account start es (s, h))
    {sending : Option Slot} {held : List Byte} (hc : Conversation origin sending held phase (s, h))
    (hstep : WorldStep s h x s' h') : Account start (es ++ [.env x]) (s', h') := by
  have hsame : ∀ {t' : Firmware × HostSide}, t'.2.transactions = h.transactions →
      t'.2.awaiting = h.awaiting →
      t'.2.fromMcu ++ t'.1.uart.tx.txQueue = h.fromMcu ++ s.uart.tx.txQueue →
      Account start (es ++ [.env x]) t' := fun ht hw ho => ha.append _ ht hw ho
  rcases hstep with ⟨byte, rest, hline⟩ | _ | ⟨_, _, hu, -, -, -⟩ |
    ⟨request, hnone⟩ | ⟨request, frame, rest, hopen, hr⟩
  · exact hsame rfl rfl rfl
  · exact hsame rfl rfl (hc.send.out.trans hc.out.symm)
  · refine hsame rfl rfl ?_
    show h.fromMcu ++ s'.uart.tx.txQueue = _
    rw [hu]
  · refine ⟨fun before request response after he =>
      (ha.answered before request response after he).append _, .inl ?_⟩
    -- a host that is free has nothing to come
    refine ha.pending.resolve_right ?_
    rintro ⟨request, hopen, -⟩
    rw [show (s, h).2.awaiting = none from hnone] at hopen
    cases hopen
  · obtain ⟨⟨response, rfl, rfl⟩, hc'⟩ := hc.read hopen hr
    have hlen : response.length.toNat ≤ 8 := hc.fits
    have hout : h.fromMcu ++ s.uart.tx.txQueue = encodedFrame response := hc.out
    have htold : Told start es h.transactions request response.toHost := by
      rcases ha.pending with hnil | ⟨request', hopen', response', htold, hbytes⟩
      · have hbad : encodedFrame response = [] := hout.symm.trans hnil
        cases hbad
      · obtain rfl : request = request' := Option.some.inj (hopen.symm.trans hopen')
        have hbytes' : Host.encodeFrame response' = .ok (encodedFrame response) :=
          hbytes.trans (congrArg Except.ok hout)
        have hframe := Host.decodeFrame_of_encodeFrame hbytes'
        rw [Host.decodeFrame_of_encodeFrame (encodeFrame_toHost hlen)] at hframe
        rw [Except.ok.inj hframe]
        exact htold
    refine ⟨fun before request' response' after he => ?_, .inl hc'.out⟩
    have hsplit : h.transactions ++ [(request, response.toHost)] =
        before ++ (request', response') :: after := he
    rcases List.eq_nil_or_concat after with rfl | ⟨after, last, rfl⟩
    · obtain ⟨rfl, hlast⟩ := List.append_inj' hsplit rfl
      obtain ⟨rfl, rfl⟩ := Prod.mk.inj (List.cons.inj hlast).1
      exact htold.append _
    · have hbefore : h.transactions = before ++ (request', response') :: after := by
        rw [List.concat_eq_append, ← List.cons_append, ← List.append_assoc] at hsplit
        exact (List.append_inj' hsplit rfl).1
      exact (ha.answered before request' response' after hbefore).append _

/-- **Every step keeps the account**: only a step that enqueues a response
adds to it, and only the reader closes an entry. -/
theorem Account.step {e : WorldEvent} (ha : Account start es c.state)
    (hrun : world.run (worldStart start) es = some c) (hc : Conversing origin none c)
    (hstep : world.step c e = some c') : Account start (es ++ [e]) c'.state := by
  obtain ⟨d, rfl, -, -, rfl⟩ | ⟨d, p, p', t', rfl, hr, -, -⟩ | ⟨x, t', rfl, hx, rfl⟩ :=
    step_cases hstep
  · rw [settle_state]
    exact ha.append _ rfl rfl rfl
  · obtain ⟨hhost, hqueue | ⟨htask, request, hopen, response, hanswered, hnil, hbytes⟩⟩ :=
      hc.foreground hr hstep
    · refine ha.append _ ?_ ?_ ?_
      · rw [hhost]
      · rw [hhost]
      · rw [hhost, hqueue]
    · -- the response is enqueued by this step
      refine ⟨fun before request response after he => ?_, .inr ?_⟩
      · rw [hhost] at he
        exact (ha.answered before request response after he).append _
      · have hfrom : c.state.2.fromMcu = [] := (List.append_eq_nil_iff.mp hnil).1
        refine ⟨request, ?_, response, ?_, ?_⟩
        · rw [hhost]
          exact hopen
        · rw [hhost]
          exact ⟨es, [], c, d, p, rfl, hrun, hr, htask, rfl, hopen, hanswered⟩
        · rw [hhost, hfrom]
          exact hbytes
  · obtain ⟨sending, held, phase, hconv⟩ := hc.conversation
    exact ha.env hconv (worldStep_of_env hx)

/-- **A run keeps the account**, by induction on its events from the
last one. -/
theorem account_run (hstart : Conversing origin none (worldStart start))
    (hquiet : start.state.uart.tx.txQueue = [])
    (h : world.run (worldStart start) es = some c) : Account start es c.state := by
  induction es using List.reverseRecOn generalizing c with
  | nil =>
    obtain rfl : worldStart start = c := by simpa using h
    refine ⟨fun before request response after he => ?_, .inl hquiet⟩
    have hnil : [] = before ++ (request, response) :: after := he
    simp at hnil
  | append_singleton es e ih =>
    obtain ⟨c₁, hrun, hlast⟩ := run_append_eq_some.mp h
    obtain ⟨c₂, hstep, hend⟩ := run_cons_eq_some.mp hlast
    obtain rfl : c₂ = c := by simpa using hend
    exact (ih hrun).step hrun (hstart.run hrun).1 hstep

/-! ## What a run comes to -/

/-- **What a run comes to**, from a quiet configuration of the firmware. -/
structure Transacted (start : FirmwareConfig) (es : List WorldEvent) (c : WorldConfig) :
    Prop where
  /-- The next byte of the line can arrive, and it is not dropped. -/
  lossless : ∀ byte rest, c.state.2.toMcu = byte :: rest →
    ∃ c', world.step c (.env .arrive) = some c' ∧
      c'.state.1.uart.rx.rxQueue = c.state.1.uart.rx.rxQueue ++ [byte]
  /-- The transactions are the requests that were written, in their order;
  the last may still be open. -/
  requests : writtenRequests es = c.state.2.requests
  /-- Each is a request and its documented response, which the firmware
  gave once the transactions before it were over. -/
  answered : ∀ before request response after,
    c.state.2.transactions = before ++ (request, response) :: after →
      Told start es before request response
  /-- Each request is handed over once, and before it is answered. -/
  handedOver : ∃ handed, c.state.1.accepted.map ProtocolFrame.toHost =
      start.state.accepted.map ProtocolFrame.toHost ++
        c.state.2.transactions.map (fun x => x.1.frame) ++ handed ∧
    handed <+: c.state.2.awaiting.toList.map HostRequest.frame
  /-- What is transmitted is one response to each, in their order, and what
  the host has not read. -/
  transmitted : c.state.1.uart.tx.udr0 =
    start.state.uart.tx.udr0 ++ c.state.2.received ++ c.state.2.fromMcu
  /-- What was enqueued and not read is one response to the open request,
  or nothing. -/
  pending : c.state.2.fromMcu ++ c.state.1.uart.tx.txQueue = [] ∨ OnItsWay start es c.state
  /-- The reader returns that response once it is sent; until then it can
  only time out. -/
  reader : (c.state.1.uart.tx.txQueue = [] ∧ ∃ request ∈ c.state.2.awaiting, ∃ response,
      Told start es c.state.2.transactions request response ∧
        Host.readProtocolFrame c.state.2.fromMcu = (.ok response, [])) ∨
    ∃ error, Host.readProtocolFrame c.state.2.fromMcu = (.error error, []) ∧
      error.serialTimeout = true
  /-- Between transactions nothing is under way. -/
  clean : c.state.2.awaiting = none → c.state.1.protocol.parserState = .waitSof ∧
    c.state.1.uart.rx.rxQueue = [] ∧ c.state.1.uart.tx.txQueue = [] ∧
    c.state.2.toMcu = [] ∧ c.state.2.fromMcu = []
  /-- A pass of `communication_task` that starts once the open request has
  arrived returns with its response on the way, or read. -/
  served : c.running = none → c.state.2.awaiting ≠ none → c.state.2.toMcu = [] →
    ∀ es' c₁ e c₂ d, world.run c es' = some c₁ → world.step c₁ e = some c₂ →
      c₂.finished = c₁.finished ++ [(d, ())] → d.task = .communication →
        c.state.2.transactions.length < c₂.state.2.transactions.length ∨
          OnItsWay start (es ++ es' ++ [e]) c₂.state
  /-- And it does return: what is in progress can always go on, and the
  pass is over once it has made so many steps of its own, whatever came
  between them. -/
  returns : (∀ d p, c.running = some (d, p) → ∃ c', world.step c .foreground = some c') ∧
    ∀ r es' c₁ c₂, world.step c (.dispatch ⟨.communication, r⟩) = some c₁ →
      world.run c₁ es' = some c₂ → passBound 14 ≤ es'.countP Event.isForeground →
        c.finished ++ [(⟨.communication, r⟩, ())] <+: c₂.finished

/-- A byte of the line arrives. -/
theorem Conversation.lossless {sending : Option Slot} {held : List Byte}
    (hc : Conversation origin sending held phase c.state) {byte : Byte} {rest : List Byte}
    (hline : c.state.2.toMcu = byte :: rest) :
    ∃ c', world.step c (.env .arrive) = some c' ∧
      c'.state.1.uart.rx.rxQueue = c.state.1.uart.rx.rxQueue ++ [byte] := by
  obtain ⟨⟨s, h⟩, running, finished⟩ := c
  have hto : h.toMcu = byte :: rest := hline
  have henv : worldEnv .arrive (s, h) =
      some (Firmware.rxLens.set (usartRxVect byte s.uart.rx) s, { h with toMcu := rest }) := by
    have hset : isSet s.uart.tx.ucsr0b rxcie0 = true := hc.enabled
    simp only [worldEnv, hto, Interrupt.handler, hset, if_true, Option.map_some]
  refine ⟨⟨(Firmware.rxLens.set (usartRxVect byte s.uart.rx) s, { h with toMcu := rest }),
    running, finished⟩, ?_, (hc.arrive hto).1⟩
  show (worldEnv .arrive (s, h)).map _ = _
  rw [henv]
  rfl

/-- **What the reader makes of what has come.** -/
theorem Conversation.reader {sending : Option Slot} {held : List Byte}
    (hc : Conversation origin sending held phase c.state) (ha : Account start es c.state) :
    (c.state.1.uart.tx.txQueue = [] ∧ ∃ request ∈ c.state.2.awaiting, ∃ response,
        Told start es c.state.2.transactions request response ∧
          Host.readProtocolFrame c.state.2.fromMcu = (.ok response, [])) ∨
      ∃ error, Host.readProtocolFrame c.state.2.fromMcu = (.error error, []) ∧
        error.serialTimeout = true := by
  rcases ha.pending with hnil | ⟨request, hopen, response, htold, hbytes⟩
  · -- with no response under way the reader has no byte
    have hshort : c.state.2.fromMcu.length < 5 := by
      rw [(List.append_eq_nil_iff.mp hnil).1]
      exact Nat.succ_pos 4
    exact .inr (Host.readProtocolFrame_timeout (.inl hshort))
  · have hdecode := Host.decodeFrame_of_encodeFrame hbytes
    have hawait := hc.awaiting
    rcases phase with _ | _ | ⟨_, _⟩ | ⟨_, sent⟩
    · rw [show c.state.2.awaiting = none from hawait] at hopen
      cases hopen
    · rw [show c.state.2.fromMcu ++ c.state.1.uart.tx.txQueue = [] from hc.out] at hdecode
      cases hdecode
    · rw [show c.state.2.fromMcu ++ c.state.1.uart.tx.txQueue = [] from hc.out] at hdecode
      cases hdecode
    · have hlen : sent.length.toNat ≤ 8 := hc.fits
      have hout : c.state.2.fromMcu ++ c.state.1.uart.tx.txQueue = encodedFrame sent := hc.out
      rw [hout, Host.decodeFrame_of_encodeFrame (encodeFrame_toHost hlen)] at hdecode
      obtain rfl := Except.ok.inj hdecode
      exact (readProtocolFrame_prefixed hlen hout).imp_left fun hread =>
        ⟨hread.1, request, hopen, sent.toHost, htold, hread.2⟩

/-- What was handed over in the open transaction. -/
theorem Conversation.handed {sending : Option Slot} {held : List Byte}
    (hc : Conversation origin sending held phase t) :
    phase.handed <+: t.2.awaiting.toList.map HostRequest.frame := by
  rw [hc.awaiting]
  rcases phase with _ | request | ⟨request, frame⟩ | ⟨request, response⟩
  · exact List.nil_prefix
  · exact List.nil_prefix
  · exact List.prefix_rfl
  · exact List.prefix_rfl

/-- Where the host is free nothing is under way in either direction. -/
theorem Conversation.clean {sending : Option Slot} {held : List Byte}
    (hc : Conversation origin sending held phase (s, h)) (ha : h.awaiting = none) :
    s.protocol.parserState = .waitSof ∧ s.uart.rx.rxQueue = [] ∧ s.uart.tx.txQueue = [] ∧
      h.toMcu = [] ∧ h.fromMcu = [] := by
  have hawait : none = phase.awaiting := ha.symm.trans hc.awaiting
  obtain rfl : phase = .free := by
    rcases phase with _ | _ | _ | _
    · rfl
    · cases hawait
    · cases hawait
    · cases hawait
  obtain ⟨hs, -, hrx, hto⟩ := hc.line_nil rfl
  have hout : h.fromMcu ++ s.uart.tx.txQueue = [] := hc.out
  obtain ⟨hfrom, htx⟩ := List.append_eq_nil_iff.mp hout
  exact ⟨hs, hrx, htx, hto, hfrom⟩

/-- **What was handed over is answered** where the machine is idle. -/
theorem Settled.answered {k : ℕ} (hs : Settled origin (some k) t)
    (hn : HandedOver origin (some k) t.1) :
    k < t.2.transactions.length ∨ t.2.fromMcu ++ t.1.uart.tx.txQueue ≠ [] := by
  obtain ⟨⟨phase, hc, hempty⟩, ha⟩ := hs
  have hcount : t.1.accepted.length =
      origin.accepted.length + t.2.transactions.length + phase.handed.length := by
    have hlist := congrArg List.length hc.handedOver
    simpa only [List.length_append, List.length_map] using hlist
  have hover := hn k rfl
  rcases phase with _ | request | ⟨request, frame⟩ | ⟨request, response⟩
  · left
    rw [hcount] at hover
    simp only [Phase.handed, List.length_nil] at hover
    omega
  · left
    rw [hcount] at hover
    simp only [Phase.handed, List.length_nil] at hover
    omega
  · have hbox := hempty request.slot
    cases (if_pos rfl).symm.trans hbox
  · right
    intro hnil
    have hout : encodedFrame response = [] := hc.out.symm.trans hnil
    cases hout

/-- The pass that follows the arrival of a request. -/
theorem Conversing.served (hc : Conversing origin none c) (hidle : c.running = none)
    (hawait : c.state.2.awaiting ≠ none) (hline : c.state.2.toMcu = [])
    {es' : List WorldEvent} {c₁ c₂ : WorldConfig} {e : WorldEvent} {d : Dispatch}
    (hrun : world.run c es' = some c₁) (hstep : world.step c₁ e = some c₂)
    (hfin : c₂.finished = c₁.finished ++ [(d, ())]) (htask : d.task = .communication) :
    c.state.2.transactions.length < c₂.state.2.transactions.length ∨
      c₂.state.2.fromMcu ++ c₂.state.1.uart.tx.txQueue ≠ [] := by
  obtain ⟨hphase, -⟩ := hc.idle hidle
  have harrived : Arrived (some c.state.2.transactions.length) c.state.2 := by
    intro m hm
    obtain rfl := Option.some.inj hm
    exact .inr ⟨rfl, hawait, hline⟩
  have hc' : Conversing origin (some c.state.2.transactions.length) c := by
    simp only [StagedConfig, hidle]
    exact ⟨hphase, harrived⟩
  obtain ⟨hs, hn⟩ := world_sound.completed (hc'.run hrun).1 hstep hfin
  exact hs.answered (hn htask)

/-- **A pass that starts returns**: it is over after so many steps of its own,
whatever comes between them. -/
theorem Conversing.returns (hc : Conversing origin none c) {c₁ c₂ : WorldConfig}
    {es' : List WorldEvent}
    (hstep : world.step c (.dispatch ⟨.communication, r⟩) = some c₁)
    (hrun : world.run c₁ es' = some c₂)
    (hcount : passBound 14 ≤ es'.countP Event.isForeground) :
    c.finished ++ [(⟨.communication, r⟩, ())] <+: c₂.finished := by
  obtain ⟨d, he, hidle, hready, rfl⟩ | ⟨_, _, _, _, he, -⟩ | ⟨_, _, he, -⟩ := step_cases hstep
  · obtain rfl := Event.dispatch.inj he
    have hlive : (world.task ⟨.communication, r⟩).result = none := rfl
    have hon : ¬ c.state.1.protocol.TimedOut r.nowMs := of_decide_eq_true hready rfl
    have hreturns := communication_returns_onTime r (hc.idle hidle) hon
    rw [settle_of_result_none hlive] at hrun
    obtain ⟨⟨⟩, hfinished⟩ := Returns.finished (c := ⟨c.state, some (_, _), c.finished⟩)
      ((world_sound (n := none)).env ⟨.communication, r⟩) hreturns rfl hlive hrun hcount
    exact hfinished
  · cases he
  · cases he

/-- **Transactions are answered exactly once, and correctly.** Whatever
quiet configuration the firmware has reached, whatever requests a waiting
host writes, and however the bytes that arrive, the other interrupts and
the tasks are interleaved: no byte is dropped, each request is handed over
once, what comes back is one documented response to each, in their order,
and a pass that starts once a request has arrived leaves its response on
the way and returns. -/
theorem transactions_answered (b : Boot) (s : Firmware) {es₀ : List FirmwareEvent}
    (h₀ : firmware.run (firmwareStart b s) es₀ = some start) (hq : AtRest start)
    (h : world.run (worldStart start) es = some c) : Transacted start es c := by
  have hstart := conversing_start h₀ hq
  obtain ⟨hc, hrequests⟩ := hstart.run h
  obtain ⟨sending, held, phase, hconv⟩ := hc.conversation
  have haccount := account_run hstart hq.tx h
  exact {
    lossless := fun byte rest hline => hconv.lossless hline
    requests := hrequests.symm
    answered := haccount.answered
    handedOver := ⟨phase.handed, hconv.handedOver, hconv.handed⟩
    transmitted := hconv.transmitted
    pending := haccount.pending
    reader := hconv.reader haccount
    clean := hconv.clean
    served := by
      intro hidle hawait hline es' c₁ e c₂ d hrun hstep hfin htask
      have hlonger : world.run (worldStart start) (es ++ es' ++ [e]) = some c₂ := by
        refine run_append_eq_some.mpr ⟨c₁, run_append_eq_some.mpr ⟨c, h, hrun⟩, ?_⟩
        exact run_cons_eq_some.mpr ⟨c₂, hstep, rfl⟩
      refine (hc.served hidle hawait hline hrun hstep hfin htask).imp_right ?_
      exact (account_run hstart hq.tx hlonger).pending.resolve_left
    returns := ⟨fun d p hr => hc.live hr, fun r es' c₁ c₂ hstep hrun hcount =>
      hc.returns hstep hrun hcount⟩ }

/-- After `main` has initialised nothing is under way. -/
theorem atRest_start (b : Boot) (s : Firmware) : AtRest (firmwareStart b s) := by
  obtain ⟨hu, hp, -⟩ := boot_spec b s
  have hidle : (firmwareStart b s).running = none := rfl
  refine ⟨?_, ?_, ?_, fun kind => ?_, ?_, ?_, fun d p hr => ?_⟩
  · exact congrArg Protocol.parserState hp
  · exact congrArg (fun p => p.slots.responsePending) hp
  · exact congrArg (fun p => p.slots.watchdogBlockRequestPending) hp
  · exact congrArg (fun p => p.slots.requestPending kind) hp
  · exact congrArg (fun u => u.rx.rxQueue) hu
  · exact congrArg (fun u => u.tx.txQueue) hu
  · rw [hidle] at hr
    cases hr

/-- A request of six bytes is written, arrives, and is answered in one pass
of `steps` accesses; the `size` bytes of the response are sent and read. -/
def exchange (request : HostRequest) (steps size : ℕ) : List WorldEvent :=
  .env (.write request) :: List.replicate 6 (.env .arrive) ++
    .dispatch ⟨.communication, .zeroed⟩ :: List.replicate steps .foreground ++
    List.replicate size (.env (.interrupt .usartUdre)) ++ [.env .read]

/-- A PING, and then the cause of the reset. -/
def pingAndResetCause : List WorldEvent :=
  exchange (.ping 0x10#8) 71 6 ++ exchange (.status .resetCause 0x11#8) 73 7

/-- A board that its watchdog has reset. -/
def watchdogReset : Firmware :=
  { Firmware.zeroed with profiler.watchdog.resetCause := 0x08#8 }

/-- The host reads a PONG with its sequence, and then what the register
held. -/
theorem transactions_answered_two :
    ∃ c, world.run (worldStart (firmwareStart ⟨0, 0, 0, 0⟩ watchdogReset)) pingAndResetCause =
        some c ∧
      c.state.2.transactions.map Prod.snd = [⟨0x81, 0x10, []⟩, ⟨0x89, 0x11, [0x08#8]⟩] ∧
      Transacted (firmwareStart ⟨0, 0, 0, 0⟩ watchdogReset) pingAndResetCause c := by
  have hrun : (world.run (worldStart (firmwareStart ⟨0, 0, 0, 0⟩ watchdogReset))
      pingAndResetCause).map (fun c => c.state.2.transactions.map Prod.snd) =
        some [⟨0x81, 0x10, []⟩, ⟨0x89, 0x11, [0x08#8]⟩] := by
    decide +kernel
  obtain ⟨c, hc, hread⟩ := Option.map_eq_some_iff.mp hrun
  have hstart : firmware.run (firmwareStart ⟨0, 0, 0, 0⟩ watchdogReset) [] =
      some (firmwareStart ⟨0, 0, 0, 0⟩ watchdogReset) := rfl
  exact ⟨c, hc, hread,
    transactions_answered ⟨0, 0, 0, 0⟩ watchdogReset hstart (atRest_start _ _) hc⟩

end SentryCell
