import SentryCell.Firmware.Tasks
/-!
# How long a pass takes

What `communication_task` does after its ring is empty it does within a
fixed number of accesses, whatever these return, as long as no block is
requested. Only the loop that drains the ring has no bound of its own, as
bytes may go on arriving: `communication_returns` asks for one on what can
still arrive.
-/

namespace SentryCell

open Foreground Word Machine

/-! ## Without the loop -/

/-- **A status takes one access more than its frame**: the one that clears
its flag, once the frame is enqueued. -/
theorem endsWithin_protocolSendStatus {kind : StatusKind} {sequence : Byte}
    {payload : List Byte} {n : ℕ}
    (hsend : EndsWithin n (protocolSendFrame (statusFrame kind sequence payload))) :
    EndsWithin (n + 1) (protocolSendStatus kind sequence payload) := by
  refine (hsend.zoom Firmware.txLens).bind fun sent => ?_
  by_cases hsent : sent = 0
  · rw [if_pos hsent]
    trivial
  · rw [if_neg hsent]
    exact fun _ => trivial

/-- Reading a word of each of the four tasks takes four accesses more than
sending them. -/
theorem endsWithin_readTaskWords {n : ℕ} (value : Byte → Profiler → Word16)
    {send : Word16 → Word16 → Word16 → Word16 → Prog Firmware Byte}
    (hsend : ∀ w₀ w₁ w₂ w₃, EndsWithin n (send w₀ w₁ w₂ w₃)) :
    EndsWithin (n + 4) (readTaskWords value send) :=
  fun _ _ _ _ => hsend _ _ _ _

/-- Up to four values are read, and a status is sent. -/
theorem endsWithin_collectStatus (r : Readings) (sequence : Byte) (kind : StatusKind) :
    EndsWithin 24 (collectStatus r sequence kind) := by
  have hsend : ∀ payload, EndsWithin 20 (protocolSendStatus kind sequence payload) :=
    fun payload => endsWithin_protocolSendStatus (endsWithin_protocolSendFrame _)
  rcases kind with _ | _ | _ | _ | _ | _ | _ | _
  · have h : EndsWithin 23 (collectStatus r sequence .commStatus) := fun _ _ _ => hsend _
    exact h.mono (by omega)
  · rw [collectStatus]
    exact endsWithin_readTaskWords (n := 20) _ fun _ _ _ _ => hsend _
  · rw [collectStatus]
    exact endsWithin_readTaskWords (n := 20) _ fun _ _ _ _ => hsend _
  · exact fun _ _ _ _ => hsend _
  · have h : EndsWithin 22 (collectStatus r sequence .cpuLoadStatus) := fun _ _ => hsend _
    exact h.mono (by omega)
  · rw [collectStatus]
    exact endsWithin_readTaskWords (n := 20) _ fun _ _ _ _ => hsend _
  · have h : EndsWithin 21 (collectStatus r sequence .resetCause) := fun _ => hsend _
    exact h.mono (by omega)
  · have h : EndsWithin 21 (collectStatus r sequence .watchdogStatus) := fun _ => hsend _
    exact h.mono (by omega)

/-- One status takes at most twenty-five accesses, its longest being a frame
of fourteen bytes. -/
theorem endsWithin_serveStatus (r : Readings) (kind : StatusKind) :
    EndsWithin 25 (serveStatus r kind) := by
  refine endsWithin_read_bind (n := 24) fun sequence => ?_
  rcases sequence with _ | sequence
  · trivial
  · exact EndsWithin.bind (n := 0) (endsWithin_collectStatus r sequence kind) fun _ => trivial

/-- Serving a list of statuses takes at most twenty-five accesses for each. -/
theorem endsWithin_serveStatuses (r : Readings) (kinds : List StatusKind) :
    EndsWithin (25 * kinds.length) (serveStatuses r kinds) := by
  induction kinds with
  | nil => trivial
  | cons kind kinds ih =>
    have h : EndsWithin (25 + 25 * kinds.length) (serveStatuses r (kind :: kinds)) :=
      (endsWithin_serveStatus r kind).bind fun _ => ih
    rw [List.length_cons]
    exact h.mono (by omega)

/-- Serving the response slot takes at most twenty-one accesses. -/
theorem endsWithin_serveResponse : EndsWithin 21 serveResponse := by
  refine endsWithin_read_bind (n := 20) fun response => ?_
  rcases response with _ | response
  · trivial
  · have hsend := endsWithin_protocolSendFrame response
    refine EndsWithin.bind (n := 1) (hsend.zoom Firmware.txLens) fun sent => ?_
    by_cases hsent : sent ≠ 0
    · rw [if_pos hsent]
      exact fun _ => trivial
    · rw [if_neg hsent]
      trivial

/-- **A turn of the loop**: five accesses for the byte, and one for the
parser. -/
theorem endsWithin_drainByte (r : Readings) (n : ℕ) : EndsWithin 6 (drainByte r n) := by
  refine EndsWithin.bind (m := 5) (n := 1) (EndsWithin.zoom _ ?_) fun byte => ?_
  · intro head tail
    show EndsWithin 3 (if head = tail then pure none else uartTakeByte)
    by_cases hht : head = tail
    · rw [if_pos hht]
      trivial
    · rw [if_neg hht]
      exact fun _ _ _ => trivial
  · rcases byte with _ | byte
    · trivial
    · exact fun _ => trivial

/-! ## A pass -/

/-- The accesses of an execution of `communication_task` that processes at
most `bytes` bytes. -/
def passBound (bytes : ℕ) : ℕ := 7 * (bytes + 1) + 226

section

variable {τ : Type} {L : Lens τ Firmware} {C : Contract τ} {r : Readings} {t : τ}

/-- **A pass returns** where each turn of its loop lowers a bound, `D`, on
the bytes still to come, and where no block is requested, `U`, once the
ring was seen empty. -/
theorem communication_returns {P U : τ → Prop} {D : ℕ → τ → Prop} {m : ℕ} (hP : Stable C P)
    (hD : ∀ m, Stable C (D m)) (hU : Stable C U)
    (hcheck : ∀ t, P t → D m (L.set ((L.get t).checkTimeout r.nowMs) t))
    (hturn : ∀ m n, Triple C (D m) ((drainByte r n).zoom L) fun o t => match o with
      | some _ => ∃ m' < m, D m' t
      | none => U t)
    (hblock : ∀ t, U t → (L.get t).protocol.slots.watchdogBlockRequestPending = 0) (ht : P t) :
    Returns C (fun _ _ => True) (7 * (m + 1) + 223) ((communication r).zoom L) t := by
  have hcount : 7 * (m + 1) + 223 = ((m + 1) * (6 + 1) + 0) + (1 + (21 + 200)) + 1 := by omega
  have hloop : ∀ t, D m t → Returns C (fun _ t => U t) ((m + 1) * (6 + 1) + 0)
      ((Prog.loop (drainByte r) 0 (.ret ())).zoom L) t := by
    intro t ht
    refine returns_loop (I := fun m _ => D m) (fun m _ => hD m) ?_ (fun t h => returns_ret h) ht
    intro m n t ht
    refine (returns_of_endsWithin ((endsWithin_drainByte r n).zoom L) (hturn m n t ht)).conseq ?_
    rintro (_ | _) t h
    · exact h
    · exact h
  simp only [communication, Prog.bind_eq, Prog.zoom_bind, Prog.zoom_write]
  rw [hcount]
  refine returns_access (B := fun _ => D m) hP ht hcheck fun _ t ht => ?_
  -- the loop ends where a turn finds the ring empty
  refine (hloop t ht).bind fun _ t ht => ?_
  -- the flag of a block is read, and is not set
  refine Returns.bind (n := 1) (m := 221) (B := fun _ _ => True) ?_ fun _ t _ => ?_
  · simp only [serveBlock, Prog.bind_eq, Prog.zoom_bind, Prog.zoom_read]
    refine returns_access hU ht (B := fun requested _ => requested = 0) hblock ?_
    rintro requested t rfl
    exact returns_ret trivial
  · have hserve : EndsWithin 200 (serveStatuses r servedStatuses) :=
      endsWithin_serveStatuses r servedStatuses
    have hrest := (endsWithin_serveResponse.zoom L).bind fun _ => hserve.zoom L
    exact hrest.returns

/-- **An execution returns** where its pass does. -/
theorem dispatch_returns {P : τ → Prop} {n : ℕ} (hP : Stable C P)
    (hstart : ∀ t p, P t → P (L.set (Firmware.profilerLens.set p (L.get t)) t))
    (hbody : ∀ t, P t → Returns C (fun _ _ => True) n ((communication r).zoom L) t) (ht : P t) :
    Returns C (fun _ _ => True) (n + 3)
      ((Dispatch.program ⟨.communication, r⟩).zoom L) t := by
  have hcount : n + 3 = n + 2 + 1 := rfl
  have hend : EndsWithin 2 ((recordEnd Task.communication.id Task.communication.periodMs
      r).zoom Firmware.profilerLens) := fun _ _ => trivial
  simp only [Dispatch.program, recordStart, Prog.bind_eq, Prog.zoom_bind, Prog.zoom_write]
  rw [hcount]
  refine returns_access (B := fun _ => P) hP ht (fun t ht => hstart t _ ht) fun _ t ht => ?_
  exact (hbody t ht).bind fun _ t _ => (hend.zoom L).returns

end

end SentryCell
