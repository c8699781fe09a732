import SentryCell.Host.Cycle
import Mathlib.Algebra.Ring.Int.Defs
/-!
# Resynchronisation of the poller

What stale bytes do to the cycles that follow, with a device that answers
every request. `Late` says of a buffer that it ends within a response, one
byte short of a sequence of chunks that are no frames: every cycle then
reads one chunk of it and is answered with the next, so that no cycle
succeeds. `resynchronises_iff` is exact on the number of stale bytes and
the counter.
-/

namespace SentryCell.Host

variable {T : Type} [LinearOrder T] [Sub T] [Zero T] {limits : StoreLimits T}
variable {device : Device} {now : ℕ → T} {clock : Clock T}
variable {p p' : Poller Port limits} {rx rest x data : List Byte} {s : Byte} {bound : ℕ}

/-! ## Cycles -/

variable (device now clock) in
/-- The poller after `n` cycles. -/
def afterCycles (n : ℕ) (p : Poller Port limits) : Poller Port limits :=
  (nextPoller device now clock)^[n] p

variable (device now clock) in
/-- **The poller has found its way back** after `bound` cycles. -/
def RecoversBy (bound : ℕ) (p : Poller Port limits) : Prop :=
  ∀ n ≥ bound, Succeeds device now clock (afterCycles device now clock n p)

variable (device now clock) in
/-- **The poller never succeeds again.** -/
def Stuck (p : Poller Port limits) : Prop :=
  ∀ n, ¬ Succeeds device now clock (afterCycles device now clock n p)

/-- The poller after a cycle is the one that the cycle left. -/
theorem nextPoller_of_eq {b : Bool}
    (h : pollOnce (portPeripherals device now) clock p = .ok b p') :
    nextPoller device now clock p = p' := by
  unfold nextPoller
  rw [h]

/-- A cycle that returned `False` did not succeed: from one state it has one
outcome. -/
theorem not_succeeds (h : pollOnce (portPeripherals device now) clock p = .ok false p') :
    ¬ Succeeds device now clock p := by
  rintro ⟨p'', h'⟩
  rw [h] at h'
  cases h'

/-- Some cycles and one more begin with a cycle. -/
theorem afterCycles_succ (n : ℕ) (p : Poller Port limits) :
    afterCycles device now clock (n + 1) p =
      afterCycles device now clock n (nextPoller device now clock p) := rfl

/-- A cycle that fails, and the recovery of those after it, one cycle
later. -/
theorem RecoversBy.of_failed {b : Bool}
    (h : pollOnce (portPeripherals device now) clock p = .ok b p')
    (hp' : RecoversBy device now clock bound p') : RecoversBy device now clock (bound + 1) p := by
  intro n hn
  obtain ⟨n, rfl⟩ : ∃ m, n = m + 1 := ⟨n - 1, by omega⟩
  rw [afterCycles_succ, nextPoller_of_eq h]
  exact hp' n (by omega)

/-- A poller that recovers by a bound recovers by a larger one. -/
theorem RecoversBy.mono {bound' : ℕ} (h : RecoversBy device now clock bound p)
    (hle : bound ≤ bound') : RecoversBy device now clock bound' p :=
  fun n hn => h n (hle.trans hn)

/-- A poller is stuck that fails once and is stuck from there. -/
theorem Stuck.of_failed (h : pollOnce (portPeripherals device now) clock p = .ok false p')
    (hp' : Stuck device now clock p') : Stuck device now clock p := by
  intro n
  rcases n with _ | n
  · exact not_succeeds h
  · rw [afterCycles_succ, nextPoller_of_eq h]
    exact hp' n

/-- **What every cycle keeps, no cycle escapes**: a poller is stuck whose
failures lead only to failures. -/
theorem stuck_of_invariant {I : Poller Port limits → Prop}
    (hstep : ∀ p, I p → ∃ p', pollOnce (portPeripherals device now) clock p = .ok false p' ∧ I p')
    (h : I p) : Stuck device now clock p := by
  intro n
  induction n generalizing p with
  | zero =>
    obtain ⟨p', hpoll, -⟩ := hstep p h
    exact not_succeeds hpoll
  | succ n ih =>
    obtain ⟨p', hpoll, hp'⟩ := hstep p h
    rw [afterCycles_succ, nextPoller_of_eq hpoll]
    exact ih hp'

/-- **A poller in step stays in step**: on an empty port a correct device
makes the next cycle succeed. -/
theorem recoversBy_empty (hd : device.Correct) (hp : p.At [] s) :
    RecoversBy device now clock 0 p := by
  intro n _
  induction n generalizing p s with
  | zero =>
    obtain ⟨p', -, hpoll, -⟩ := pollOnce_empty hd hp
    exact ⟨p', hpoll⟩
  | succ n ih =>
    obtain ⟨p', s', hpoll, hp'⟩ := pollOnce_empty hd hp
    rw [afterCycles_succ, nextPoller_of_eq hpoll]
    exact ih hp' (Nat.zero_le n)

/-! ## Devices -/

/-- A device that answers a request with a payload of its type and
sequence. -/
def frameDevice (payload : Byte → Byte → List Byte) : Device := fun _ data =>
  match decodeFrame data with
  | .ok request =>
    let type := BitVec.ofInt 8 request.frameType
    let sequence := BitVec.ofInt 8 request.sequence
    frameBytes (type ||| 0x80#8) sequence (payload type sequence)
  | .error _ => []

/-- Payloads of the lengths the decoders expect: zeros, but for the
communication counters. -/
def statusPayload (comm : Byte → List Byte) (type sequence : Byte) : List Byte :=
  if type = 0x03#8 then comm sequence
  else if type = 0x06#8 then List.replicate 6 0
  else if type = 0x0B#8 then [0]
  else List.replicate 8 0

variable {payload : Byte → Byte → List Byte} {comm : Byte → List Byte} {q : Query}

/-- What a device of frames answers to a request has its sequence, and its
type with the highest bit set. -/
theorem frameDevice_request (writes : List (List Byte)) :
    frameDevice payload writes (requestBytes q s) =
      frameBytes (BitVec.ofNat 8 q.requestType ||| 0x80#8) s
        (payload (BitVec.ofNat 8 q.requestType) s) := by
  have hdecode : decodeFrame (requestBytes q s) =
      .ok ⟨(BitVec.ofNat 8 q.requestType).toNat, s.toNat, []⟩ :=
    decodeFrame_eq_ok_iff.mpr ⟨_, s, [], Nat.zero_le _, rfl, rfl⟩
  unfold frameDevice
  rw [hdecode]
  have hoctet : ∀ b : Byte, BitVec.ofInt 8 (b.toNat : ℤ) = b := fun b => by simp
  simp only [hoctet]

/-- The request a device is asked is one with an octet for its sequence. -/
theorem eq_requestBytes {sequence : ℤ} (hq : q.requestType ≤ 255)
    (h : encodeFrame ⟨q.requestType, sequence, []⟩ = .ok data) :
    ∃ s : Byte, sequence = s.toNat ∧ data = requestBytes q s := by
  have hseq : 0 ≤ sequence ∧ sequence ≤ 255 := by
    by_contra hno
    have hnot : ¬ Frame.Encodable ⟨q.requestType, sequence, []⟩ := fun he => hno he.2.1
    obtain ⟨message, herror⟩ := encodeFrame_error hnot
    rw [herror] at h
    cases h
  have hs : sequence = (BitVec.ofNat 8 sequence.toNat).toNat := by
    rw [BitVec.toNat_ofNat, Nat.mod_eq_of_lt (by omega)]
    omega
  refine ⟨BitVec.ofNat 8 sequence.toNat, hs, ?_⟩
  rw [hs, encodeFrame_request hq] at h
  exact (Except.ok.inj h).symm

/-- A payload that is decoded is a correct response. -/
theorem frameDevice_answers {decodes : Frame → Bool} {writes : List (List Byte)}
    (htype : (BitVec.ofNat 8 q.requestType ||| 0x80#8).toNat = q.responseType)
    (hlen : (payload (BitVec.ofNat 8 q.requestType) s).length ≤ maxPayload)
    (hdecodes : decodes ⟨q.responseType, s.toNat, payload (BitVec.ofNat 8 q.requestType) s⟩ =
      true) :
    ∃ response, decodeFrame (frameDevice payload writes (requestBytes q s)) = .ok response ∧
      Answers q decodes s.toNat response := by
  refine ⟨⟨q.responseType, s.toNat, payload (BitVec.ofNat 8 q.requestType) s⟩, ?_,
    rfl, rfl, hdecodes⟩
  rw [frameDevice_request, ← htype]
  exact decodeFrame_eq_ok_iff.mpr ⟨_, _, _, hlen, rfl, rfl⟩

/-- A device of frames with these payloads is correct: each decoder accepts
its own. -/
theorem statusPayload_correct (hcomm : ∀ s, (comm s).length = 3) :
    (frameDevice (statusPayload comm)).Correct := by
  intro q decodes hq sequence data writes hdata
  have htype : ∀ r ∈ dashboardResponses, r.1.requestType ≤ 255 := by decide
  obtain ⟨s, rfl, rfl⟩ := eq_requestBytes (htype _ hq) hdata
  simp only [dashboardResponses, dashboardQueries, List.zip_cons_cons, List.zip_nil_right,
    List.mem_cons, Prod.mk.injEq, List.not_mem_nil, or_false] at hq
  rcases hq with ⟨rfl, rfl⟩ | ⟨rfl, rfl⟩ | ⟨rfl, rfl⟩ | ⟨rfl, rfl⟩ | ⟨rfl, rfl⟩ | ⟨rfl, rfl⟩ |
    ⟨rfl, rfl⟩
  · refine frameDevice_answers rfl ((hcomm s).trans_le (by decide)) ?_
    show (decodeCommStatus ⟨typeCommStatus, s.toNat, comm s⟩).isOk = true
    unfold decodeCommStatus
    rw [decode_ok rfl (hcomm s)]
    rfl
  -- the other payloads are the same for every sequence
  all_goals exact frameDevice_answers rfl (Nat.le_of_ble_eq_true rfl) rfl

/-- A device whose communication counters are `comm`. -/
def commDevice (comm : Byte → List Byte) : Device := frameDevice (statusPayload comm)

/-- The response to the first request of a cycle. -/
def commFrame (s : Byte) (counters : List Byte) : List Byte := frameBytes 0x83#8 s counters

omit [Sub T] in
/-- The first answer of that device is its COMM_STATUS. -/
theorem firstAnswer_commDevice (p : Poller Port limits) :
    p.firstAnswer (commDevice comm) s = commFrame s (comm s) :=
  frameDevice_request (q := commQuery) p.link.writes

/-! ## One response late -/

/-- **The poller is one response behind**, with the frame of the sequence
before in front, and stays so. -/
theorem stuck_behind (hcomm : ∀ s, (comm s).length = 3)
    (hp : p.At (commFrame s (comm s)) (s + 1)) : Stuck (commDevice comm) now clock p := by
  refine stuck_of_invariant (I := fun p => ∃ s, p.At (commFrame s (comm s)) (s + 1)) ?_ ⟨s, hp⟩
  rintro p ⟨s, hp⟩
  have hdecode : decodeFrame (commFrame s (comm s)) =
      .ok ⟨(0x83#8).toNat, s.toNat, comm s⟩ :=
    decodeFrame_eq_ok_iff.mpr ⟨_, _, _, (hcomm _).trans_le (by decide), rfl, rfl⟩
  have hunmatched : Unmatched (s + 1) (commFrame s (comm s)) := by
    refine ⟨(chunk_of_decodeFrame hdecode).1, fun frame hframe hseq => ?_⟩
    rw [hdecode] at hframe
    obtain rfl := Except.ok.inj hframe
    have hsame : s = s + 1 := BitVec.eq_of_toNat_eq (Int.ofNat.inj hseq)
    bv_omega
  obtain ⟨p', hpoll, hp'⟩ := pollOnce_refused _ now clock hp hunmatched
    (congrArg (_ ++ ·) (firstAnswer_commDevice p))
  exact ⟨p', hpoll, s + 1, hp'⟩

/-! ## Reading across the responses -/

/-- A chunk that does not begin like a frame. -/
def Garbled (x : List Byte) : Prop := Chunk x ∧ ¬ (x.getD 0 0 = sof ∧ x.getD 1 0 = version)

/-- A garbled chunk matches no request, whatever its sequence. -/
theorem Garbled.unmatched (h : Garbled x) : Unmatched s x := by
  refine ⟨h.1, fun frame hframe => ?_⟩
  obtain ⟨type, sequence, payload, -, rfl, -⟩ := decodeFrame_eq_ok_iff.mp hframe
  exact absurd ⟨rfl, rfl⟩ h.2

/-- **A buffer that ends within a response**, one byte short of garbled
chunks. -/
def Late (rx : List Byte) : Prop :=
  ∃ blocks, blocks ≠ [] ∧ (∀ x ∈ blocks, Garbled x) ∧ rx ++ [sof] = blocks.flatten

/-- A device whose overflow counter reads as the length of its frame. -/
def lateDevice (third : Byte → Byte) : Device := commDevice fun s => [3, 0, third s]

/-- **A cycle takes one chunk of a late buffer**, and is answered with
another. -/
theorem Late.step (h : Late rx) (third : Byte) :
    ∃ x rest, Garbled x ∧ rx ++ commFrame s [3, 0, third] = x ++ rest ∧ Late rest := by
  obtain ⟨blocks, hne, hblocks, hflat⟩ := h
  rcases blocks with _ | ⟨x, blocks⟩
  · exact absurd rfl hne
  let tail := frameBody 0x83#8 s [3, 0, third] ++
    [crc8Compute (frameBody 0x83#8 s [3, 0, third])]
  refine ⟨x, blocks.flatten ++ tail, hblocks x List.mem_cons_self, ?_, blocks ++ [tail ++ [sof]],
    ?_, ?_, ?_⟩
  · calc rx ++ commFrame s [3, 0, third] = (rx ++ [sof]) ++ tail := by
          rw [List.append_assoc]
          rfl
      _ = x ++ (blocks.flatten ++ tail) := by
          rw [hflat, List.flatten_cons, List.append_assoc]
  · exact List.append_ne_nil_of_right_ne_nil _ (List.cons_ne_nil _ _)
  · intro y hy
    rcases List.mem_append.mp hy with hy | hy
    · exact hblocks y (List.mem_cons_of_mem x hy)
    · -- the rest of the response, with the first byte of the next
      obtain rfl := List.mem_singleton.mp hy
      refine ⟨rfl, fun hhead => ?_⟩
      exact absurd (show version = sof from hhead.1) (by decide)
  · rw [List.flatten_append, List.flatten_singleton, List.append_assoc]

/-- **With a late buffer no cycle succeeds**, on any clock. -/
theorem stuck_late {third : Byte → Byte} (h : Late rx) (hp : p.At rx s) :
    Stuck (lateDevice third) now clock p := by
  refine stuck_of_invariant (I := fun p => ∃ rx s, p.At rx s ∧ Late rx) ?_ ⟨rx, s, hp, h⟩
  rintro p ⟨rx, s, hp, h⟩
  obtain ⟨x, rest, hx, hrx, hrest⟩ := h.step (s := s) (third s)
  obtain ⟨p', hpoll, hp'⟩ := pollOnce_refused (lateDevice third) now clock hp hx.unmatched
    ((congrArg (_ ++ ·) (firstAnswer_commDevice p)).trans hrx)
  exact ⟨p', hpoll, rest, s + 1, hp', hrest⟩

/-- A buffer that is a garbled chunk but for its last byte is late. -/
theorem late_of_garbled (h : Garbled (rx ++ [sof])) : Late rx := by
  refine ⟨[rx ++ [sof]], List.cons_ne_nil _ _, fun x hx => ?_, List.flatten_singleton.symm⟩
  exact List.mem_singleton.mp hx ▸ h

/-- A garbled chunk before a late buffer makes one that is late again. -/
theorem Late.append (hx : Garbled x) (h : Late rx) : Late (x ++ rx) := by
  obtain ⟨blocks, -, hblocks, hflat⟩ := h
  refine ⟨x :: blocks, List.cons_ne_nil _ _, fun y hy => ?_, ?_⟩
  · rcases List.mem_cons.mp hy with rfl | hy
    · exact hx
    · exact hblocks y hy
  · rw [List.append_assoc, hflat, List.flatten_cons]

/-- A chunk that begins with another byte is garbled. -/
theorem Garbled.of_head {b : Byte} (hb : b ≠ sof) (h : Chunk (b :: x)) : Garbled (b :: x) :=
  ⟨h, fun hhead => hb hhead.1⟩

/-- **Late buffers of every length** from 4, of bytes that begin no frame. -/
theorem exists_late : ∀ n : ℕ, ∃ rx, rx.length = n + 4 ∧ sof ∉ rx ∧ Late rx
  -- one chunk, whose length byte makes up the length
  | 0 => ⟨[255, 255, 255, 255], rfl, by decide, late_of_garbled (.of_head (by decide) rfl)⟩
  | 1 => ⟨[255, 255, 255, 255, 0], rfl, by decide, late_of_garbled (.of_head (by decide) rfl)⟩
  | 2 => ⟨[255, 255, 255, 255, 1, 255], rfl, by decide,
      late_of_garbled (.of_head (by decide) rfl)⟩
  | 3 => ⟨[255, 255, 255, 255, 2, 255, 255], rfl, by decide,
      late_of_garbled (.of_head (by decide) rfl)⟩
  | 4 => ⟨[255, 255, 255, 255, 3, 255, 255, 255], rfl, by decide,
      late_of_garbled (.of_head (by decide) rfl)⟩
  -- and a header that announces too much before them
  | n + 5 => by
    obtain ⟨rx, hlen, hsof, hlate⟩ := exists_late n
    refine ⟨[255, 255, 255, 255, 255] ++ rx, ?_, ?_, .append (.of_head (by decide) rfl) hlate⟩
    · rw [List.length_append, hlen]
      exact Nat.add_comm 5 (n + 4)
    · intro hmem
      rcases List.mem_append.mp hmem with hmem | hmem
      · exact absurd hmem (by decide)
      · exact hsof hmem

/-! ## Fewer than four stale bytes -/

/-- A cycle that takes a garbled chunk across the stale bytes and the first
answer. -/
theorem Stuck.of_garbled {third : Byte → Byte} (hp : p.At rx s) (hx : Garbled x)
    (hrx : rx ++ commFrame s [3, 0, third s] = x ++ rest)
    (hstuck : ∀ p' : Poller Port limits, p'.At rest (s + 1) →
      Stuck (lateDevice third) now clock p') : Stuck (lateDevice third) now clock p := by
  obtain ⟨p', hpoll, hp'⟩ := pollOnce_refused (lateDevice third) now clock hp hx.unmatched
    ((congrArg (_ ++ ·) (firstAnswer_commDevice p)).trans hrx)
  exact .of_failed hpoll (hstuck p' hp')

/-- The third counter that makes the checksum of a response 0. -/
def residueCounter (s : Byte) : Byte := crc8Compute (version :: 0x83#8 :: s :: 3#8 :: [3, 0])

/-- The COMM_STATUS whose third counter makes its checksum vanish. -/
theorem commFrame_residue (s : Byte) :
    commFrame s [3, 0, residueCounter s] =
      [sof, version, 0x83#8, s, 3, 3, 0, residueCounter s, 0] := by
  have hcrc : crc8Compute (frameBody 0x83#8 s [3, 0, residueCounter s]) = 0 := by
    show crc8Compute ((version :: 0x83#8 :: s :: 3#8 :: [3, 0]) ++ [residueCounter s]) = 0
    rw [crc8Compute, List.foldl_append]
    show crc8Shift^[8] (residueCounter s ^^^ residueCounter s) = 0
    rw [BitVec.xor_self]
    rfl
  unfold commFrame frameBytes
  rw [hcrc]
  rfl

/-- Three stale bytes, before a response that has the reader end one byte
into the next. -/
theorem stuck_three {b₀ b₁ b₂ : Byte} (hb : b₀ ≠ sof) (hp : p.At [b₀, b₁, b₂] s) :
    Stuck (lateDevice residueCounter) now clock p := by
  have hlate : Late [3, 3, 0, residueCounter s, 0] := late_of_garbled (.of_head (by decide) rfl)
  refine .of_garbled (x := [b₀, b₁, b₂, sof, version, 0x83#8, s]) hp (.of_head hb rfl) ?_
    fun p' hp' => stuck_late hlate hp'
  rw [commFrame_residue]
  rfl

/-- Two stale bytes: the sequence is read as the first byte of a frame. -/
theorem stuck_two {b₀ b₁ : Byte} (hb : b₀ ≠ sof) (hp : p.At [b₀, b₁] s) :
    Stuck (lateDevice fun _ => 1) now clock p := by
  let rest := [s, 3, 3, 0, 1, crc8Compute (frameBody 0x83#8 s [3, 0, 1])]
  have hlate : Late rest := by
    refine late_of_garbled ⟨rfl, fun hhead => ?_⟩
    -- the second byte is a length
    exact absurd (show (3#8 : Byte) = version from hhead.2) (by decide)
  exact .of_garbled (x := [b₀, b₁, sof, version, 0x83#8]) hp (.of_head hb rfl) rfl
    fun p' hp' => stuck_late hlate hp'

/-- **One stale byte**, unless the counter is read as a length that takes
all or all but one of the bytes. -/
theorem stuck_one (hs : s.toNat < 3 ∨ 8 < s.toNat) (hp : p.At [255] s) :
    ∃ third, Stuck (lateDevice third) now clock p := by
  by_cases hlarge : 8 < s.toNat
  · have hlate : Late [3, 3, 0, residueCounter s, 0] :=
      late_of_garbled (.of_head (by decide) rfl)
    have hchunk : Chunk [255, sof, version, 0x83#8, s] := by
      show 5 = readSize _
      exact (if_pos hlarge).symm
    refine ⟨residueCounter, .of_garbled hp (.of_head (by decide) hchunk) ?_
      fun p' hp' => stuck_late hlate hp'⟩
    rw [commFrame_residue]
    rfl
  have hthree : s.toNat < 3 := hs.resolve_right hlarge
  have hsmall : s = 0 ∨ s = 1 ∨ s = 2 := by bv_omega
  rcases hsmall with rfl | rfl | rfl
  · have hlate : Late [3, 0, residueCounter 0, 0] := late_of_garbled (.of_head (by decide) rfl)
    refine ⟨residueCounter, .of_garbled (x := [255, sof, version, 0x83#8, 0, 3]) hp
      (.of_head (by decide) rfl) ?_ fun p' hp' => stuck_late hlate hp'⟩
    rw [commFrame_residue]
    rfl
  · have hstuck : ∀ p' : Poller Port limits, p'.At [0, residueCounter 1, 0] (1 + 1) →
        Stuck (lateDevice residueCounter) now clock p' :=
      fun p' hp' => stuck_three (by decide) hp'
    refine ⟨residueCounter, .of_garbled (x := [255, sof, version, 0x83#8, 1, 3, 3]) hp
      (.of_head (by decide) rfl) ?_ hstuck⟩
    rw [commFrame_residue]
    rfl
  · exact ⟨fun _ => 1, .of_garbled (x := [255, sof, version, 0x83#8, 2, 3, 3, 0]) hp
      (.of_head (by decide) rfl) rfl fun p' hp' => stuck_two (by decide) hp'⟩

/-! ## Recovery -/

omit [Sub T] in
/-- What a correct device answers to the first request. -/
theorem firstAnswer_eq (hd : device.Correct) (p : Poller Port limits) (s : Byte) :
    ∃ c₀ c₁ c₂ crc, p.firstAnswer device s =
      [sof, version, 0x83#8, s, 3, c₀, c₁, c₂, crc] := by
  have hmem : (commQuery, fun frame => (decodeCommStatus frame).isOk) ∈ dashboardResponses :=
    List.mem_cons_self
  obtain ⟨response, hanswer, hmatch⟩ := hd _ _ hmem s.toNat _ p.link.writes
    (encodeFrame_request (q := commQuery) (by decide))
  obtain ⟨type, sequence, payload, hlen, hbytes, rfl⟩ := decodeFrame_eq_ok_iff.mp hanswer
  have htype : type = 0x83#8 := BitVec.eq_of_toNat_eq (Int.ofNat.inj hmatch.type)
  have hseq : sequence = s := BitVec.eq_of_toNat_eq (Int.ofNat.inj hmatch.sequence)
  have hthree : payload.length = 3 := by
    by_contra hne
    have htype : (type.toNat : ℤ) = typeCommStatus := hmatch.type
    have hdecoded := hmatch.decoded
    unfold decodeCommStatus expectStatus at hdecoded
    rw [if_neg (not_not.mpr htype), if_pos hne] at hdecoded
    cases hdecoded
  obtain ⟨c₀, c₁, c₂, rfl⟩ := List.length_eq_three.mp hthree
  subst htype hseq
  exact ⟨c₀, c₁, c₂, _, hbytes⟩

omit [Sub T] in
/-- The bytes that are buffered after the first request, behind one stale
byte. -/
theorem one_append (b : Byte) (hd : device.Correct) (p : Poller Port limits) (s : Byte) :
    ∃ c₀ c₁ c₂ crc, [b] ++ p.firstAnswer device s =
      [b, sof, version, 0x83#8, s, 3, c₀, c₁, c₂, crc] := by
  obtain ⟨c₀, c₁, c₂, crc, hanswer⟩ := firstAnswer_eq hd p s
  exact ⟨c₀, c₁, c₂, crc, congrArg ([b] ++ ·) hanswer⟩

/-- A chunk whose second byte begins a frame is garbled. -/
theorem Garbled.of_second {b : Byte} (h : Chunk (b :: sof :: x)) : Garbled (b :: sof :: x) :=
  ⟨h, fun hhead => absurd (show sof = version from hhead.2) (by decide)⟩

/-- With the counter at 4 the ten bytes are one chunk. -/
theorem recoversBy_four {b : Byte} (hd : device.Correct) (hp : p.At [b] 4) :
    RecoversBy device now clock 1 p := by
  obtain ⟨c₀, c₁, c₂, crc, hrx⟩ := one_append b hd p 4
  have hchunk : Garbled [b, sof, version, 0x83#8, 4, 3, c₀, c₁, c₂, crc] := .of_second rfl
  obtain ⟨p', hpoll, hp'⟩ := pollOnce_refused device now clock hp hchunk.unmatched
    (hrx.trans (List.append_nil _).symm)
  exact .of_failed hpoll (recoversBy_empty hd hp')

/-- **One stale byte that the counter makes up for.** The fifth byte the
reader reads is the counter: from 5 to 8 the bytes run out, with 4 they
are just read, and with 3 one byte is left for the next cycle. -/
theorem recoversBy_one {b : Byte} (hd : device.Correct) (hs : 3 ≤ s.toNat ∧ s.toNat ≤ 8)
    (hp : p.At [b] s) : RecoversBy device now clock 2 p := by
  obtain ⟨c₀, c₁, c₂, crc, hrx⟩ := one_append b hd p s
  by_cases hlong : 5 ≤ s.toNat
  · have hsize : 10 < 6 + s.toNat := by omega
    have hread : ∃ e, readProtocolFrame [b, sof, version, 0x83#8, s, 3, c₀, c₁, c₂, crc] =
        (.error e, []) ∧ e.serialTimeout = true :=
      readProtocolFrame_timeout (.inr ⟨hs.2, hsize⟩)
    rw [← hrx] at hread
    obtain ⟨p', hpoll, hp'⟩ := pollOnce_timeout device now clock hp hread
    exact (RecoversBy.of_failed hpoll (recoversBy_empty hd hp')).mono (by decide)
  have hfour : s = 4 ∨ s = 3 := by bv_omega
  rcases hfour with rfl | rfl
  · exact (recoversBy_four hd hp).mono (by decide)
  · have hchunk : Garbled [b, sof, version, 0x83#8, 3, 3, c₀, c₁, c₂] := .of_second rfl
    obtain ⟨p', hpoll, hp'⟩ := pollOnce_refused device now clock hp hchunk.unmatched
      (hrx.trans rfl)
    exact .of_failed hpoll (recoversBy_four hd hp')

/-! ## Resynchronisation -/

/-- **Stale bytes**: no whole frame among them has a sequence of the coming
cycle. -/
def Stale (rx : List Byte) (sequence : ℤ) : Prop :=
  ∀ before x after frame, rx = before ++ x ++ after → decodeFrame x = .ok frame →
    ∀ k < 7, frame.sequence ≠ nextOctet^[k] sequence

/-- Bytes without a start byte are stale for every sequence. -/
theorem stale_of_sof_not_mem {sequence : ℤ} (h : sof ∉ rx) : Stale rx sequence := by
  rintro before x after frame rfl hframe
  obtain ⟨type, s, payload, -, rfl, -⟩ := decodeFrame_eq_ok_iff.mp hframe
  exfalso
  refine h (List.mem_append_left _ (List.mem_append_right _ ?_))
  exact List.mem_cons_self

variable (clock limits) in
/-- **The poller resynchronises** after a number of stale bytes, with the
counter at `s`: there is a bound on the cycles it takes, whatever the bytes
are and whatever a correct device answers. -/
def Resynchronises (stale : ℕ) (s : Byte) : Prop :=
  ∃ bound, ∀ (device : Device) (now : ℕ → T) (p : Poller Port limits) (rx : List Byte),
    device.Correct → p.At rx s → rx.length = stale → Stale rx s.toNat →
    RecoversBy device now clock bound p

/-- The device that answers late is correct as well. -/
theorem lateDevice_correct (third : Byte → Byte) : (lateDevice third).Correct :=
  statusPayload_correct fun _ => rfl

/-- Bytes that some device keeps the poller stuck on. -/
theorem not_resynchronises (rx : List Byte) (hrx : sof ∉ rx)
    (hstuck : ∀ p : Poller Port limits, p.At rx s →
      ∃ third, Stuck (lateDevice third) (fun _ => 0) clock p) :
    ¬ Resynchronises limits clock rx.length s := by
  rintro ⟨bound, hbound⟩
  let p : Poller Port limits := { Poller.new limits ⟨rx, [], 0⟩ with sequence := s.toNat }
  have hp : p.At rx s := ⟨rfl, rfl⟩
  obtain ⟨third, hstuck⟩ := hstuck p hp
  have hrecovers := hbound (lateDevice third) (fun _ => 0) p rx (lateDevice_correct third) hp rfl
    (stale_of_sof_not_mem hrx)
  exact hstuck bound (hrecovers bound le_rfl)

/-- **When the poller resynchronises**: with nothing stale, or with one
byte where the counter is from 3 to 8. -/
theorem resynchronises_iff (stale : ℕ) (s : Byte) :
    Resynchronises limits clock stale s ↔
      stale = 0 ∨ (stale = 1 ∧ 3 ≤ s.toNat ∧ s.toNat ≤ 8) := by
  constructor
  · intro h
    rcases stale with _ | _ | _ | _ | n
    · exact .inl rfl
    · by_cases hs : s.toNat < 3 ∨ 8 < s.toNat
      · exact absurd h (not_resynchronises [255] (by decide) fun p hp => stuck_one hs hp)
      · exact .inr ⟨rfl, by omega, by omega⟩
    · exact absurd h (not_resynchronises [255, 255] (by decide)
        fun p hp => ⟨_, stuck_two (by decide) hp⟩)
    · exact absurd h (not_resynchronises [255, 255, 255] (by decide)
        fun p hp => ⟨_, stuck_three (by decide) hp⟩)
    · obtain ⟨rx, hlen, hsof, hlate⟩ := exists_late n
      rw [show n + 1 + 1 + 1 + 1 = rx.length by omega] at h
      exact absurd h (not_resynchronises rx hsof
        fun p hp => ⟨fun _ => 0, stuck_late hlate hp⟩)
  · rintro (rfl | ⟨rfl, hs⟩)
    · refine ⟨0, fun device now p rx hd hp hlen _ => ?_⟩
      obtain rfl := List.length_eq_zero_iff.mp hlen
      exact recoversBy_empty hd hp
    · refine ⟨2, fun device now p rx hd hp hlen _ => ?_⟩
      obtain ⟨b, rfl⟩ := List.length_eq_one_iff.mp hlen
      exact recoversBy_one hd hs hp

/-! ## A late response -/

/-- A whole frame of a sequence that is not used in the coming cycle. -/
theorem stale_of_frame {type : Byte} {tail : List Byte} {sequence : ℤ}
    (hsof : sof ∉ version :: type :: s :: tail)
    (hs : ∀ k < 7, (s.toNat : ℤ) ≠ nextOctet^[k] sequence) :
    Stale (sof :: version :: type :: s :: tail) sequence := by
  intro before x after frame hrx hframe
  obtain ⟨type', s', payload, -, rfl, rfl⟩ := decodeFrame_eq_ok_iff.mp hframe
  rcases before with _ | ⟨b, before⟩
  · -- the frame is the one in front
    obtain ⟨-, hrest⟩ := List.cons.inj hrx
    obtain ⟨-, hrest⟩ := List.cons.inj hrest
    obtain ⟨-, hrest⟩ := List.cons.inj hrest
    obtain ⟨rfl, -⟩ := List.cons.inj hrest
    exact hs
  · obtain ⟨-, hrest⟩ := List.cons.inj hrx
    exfalso
    refine hsof (hrest ▸ List.mem_append_left _ (List.mem_append_right _ ?_))
    exact List.mem_cons_self

/-- **A late response is never made up for**: with the frame of an earlier
request buffered, and a device that answers every request at once, no
cycle succeeds. -/
theorem late_response_lasts :
    let device := commDevice fun _ => [0, 0, 0]
    let limits : StoreLimits ℤ := ⟨300, 100, 3, by decide, by decide, by decide⟩
    let port : Port := ⟨commFrame 0x8F [0, 0, 0], [], 0⟩
    device.Correct ∧ Stale port.rx (Poller.new limits port).sequence ∧
      ¬ ∃ bound, RecoversBy device (fun _ => 0) ⟨toString, id⟩ bound (Poller.new limits port) := by
  intro device limits port
  refine ⟨statusPayload_correct fun _ => rfl, ?_, ?_⟩
  · exact stale_of_frame (by decide +kernel) (by decide)
  · rintro ⟨bound, hbound⟩
    have hstuck : Stuck device (fun _ => 0) ⟨toString, id⟩ (Poller.new limits port) :=
      stuck_behind (fun _ => rfl) ⟨rfl, rfl⟩
    exact hstuck bound (hbound bound le_rfl)

end SentryCell.Host
