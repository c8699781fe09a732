import SentryCell.Host.SerialLink
import Mathlib.Algebra.Order.Ring.Rat
import Mathlib.Data.List.Forall2
import Mathlib.Tactic.Linarith
/-!
# Reading the port in pieces

`SerialLink.read_exact` and `read_protocol_frame` with whatever
`time.monotonic`, `select.select` and `os.read` answer in each round of
the loop. `readRounds_takes` is what a call takes from the stream at most,
and `readRounds_delivered` what it returns where the bytes come in time,
in whatever pieces. With all bytes buffered and nothing arriving it is the
reader of the module before (`readExact_buffered`).
-/

namespace SentryCell.Host

/-! ## The calls -/

/-- What `os.read` does: it raises `BlockingIOError`, or it returns bytes,
at most this many. -/
inductive OsRead where
  | blocking
  | upTo (n : ℕ)
  deriving DecidableEq, Repr

/-- What the system answers in one round of the loop. -/
structure Round where
  /-- `time.monotonic()`. -/
  now : ℚ
  /-- Whether `select.select` returns the descriptor. -/
  readable : Bool
  read : OsRead
  deriving DecidableEq, Repr

/-- **What the system answers in one call of `read_exact`.** -/
structure Delivery where
  /-- `time.monotonic()` for the deadline. -/
  start : ℚ
  rounds : List Round
  deriving DecidableEq, Repr

/-- The port: whether it is open, and the stream that is still to be read. -/
structure RxPort where
  isOpen : Bool
  unread : List Byte
  deriving DecidableEq, Repr

/-- The loop of `read_exact`. Where the answers end it is still waiting. -/
def readRounds (size : ℕ) (deadline : ℚ) :
    List Round → List Byte → List Byte → Option (Except PyException (List Byte) × List Byte)
  | [], received, unread => if received.length < size then none else some (.ok received, unread)
  | round :: rounds, received, unread =>
    if received.length < size then
      let remaining := deadline - round.now
      if remaining ≤ 0 then some (.error (readTimeout size received.length), unread)
      else if round.readable = false then
        some (.error (readTimeout size received.length), unread)
      else
        match round.read with
        | .blocking => readRounds size deadline rounds received unread
        | .upTo n =>
          let wanted := size - received.length
          -- never more than is still wanted, whatever the system has
          let chunk := unread.take (min n wanted)
          readRounds size deadline rounds (received ++ chunk) (unread.drop (min n wanted))
    else some (.ok received, unread)

namespace RxPort

/-- `read_exact`. -/
def readExact (size : ℤ) (timeoutS : ℚ) (delivery : Delivery) (port : RxPort) :
    Option (Except PyException (List Byte) × RxPort) :=
  if size < 0 then some (.error ⟨"ValueError", "size must be non-negative", false⟩, port)
  else if timeoutS < 0 then
    some (.error ⟨"ValueError", "timeout_s must be non-negative", false⟩, port)
  else if size = 0 then some (.ok [], port)
  else if port.isOpen = false then
    some (.error ⟨"SerialLinkError", "serial port is not open", false⟩, port)
  else
    (readRounds size.toNat (delivery.start + timeoutS) delivery.rounds [] port.unread).map
      fun r => (r.1, { port with unread := r.2 })

/-- `read_protocol_frame`, with the answers of its two calls. -/
def readProtocolFrame (timeoutS : ℚ) (deliveries : Delivery × Delivery) (port : RxPort) :
    Option (Except PyException Frame × RxPort) :=
  match port.readExact 5 timeoutS deliveries.1 with
  | none => none
  | some (.error error, port) => some (.error error, port)
  | some (.ok header, port) =>
    let payloadLength := (header.getD 4 0).toNat
    if payloadLength > maxPayload then
      some (.error ⟨"ProtocolError", "response LENGTH " ++ toString payloadLength ++
        " exceeds " ++ toString maxPayload ++ " bytes", false⟩, port)
    else
      match port.readExact (payloadLength + 1 : ℕ) timeoutS deliveries.2 with
      | none => none
      | some (.error error, port) => some (.error error, port)
      | some (.ok payloadAndCrc, port) =>
        match decodeFrame (header ++ payloadAndCrc) with
        | .ok frame => some (.ok frame, port)
        | .error error => some (.error error.exception, port)

/-- Successive calls of `read_protocol_frame`. -/
def readFrames (timeoutS : ℚ) :
    List (Delivery × Delivery) → RxPort → Option (List (Except PyException Frame) × RxPort)
  | [], port => some ([], port)
  | deliveries :: more, port =>
    match port.readProtocolFrame timeoutS deliveries with
    | none => none
    | some (outcome, port) => (readFrames timeoutS more port).map fun r => (outcome :: r.1, r.2)

end RxPort

/-! ## What a call takes -/

variable {size : ℕ} {deadline timeoutS : ℚ} {rounds : List Round}
variable {received unread left : List Byte} {outcome : Except PyException (List Byte)}

/-- **A call takes from the front**, no more than it is asked for, and
returns just what it took. -/
theorem readRounds_takes (hle : received.length ≤ size)
    (h : readRounds size deadline rounds received unread = some (outcome, left)) :
    ∃ taken, unread = taken ++ left ∧ received.length + taken.length ≤ size ∧
      ∀ bytes, outcome = .ok bytes → bytes = received ++ taken ∧ bytes.length = size := by
  have hnone : ∀ {received : List Byte}, received.length ≤ size → ¬ received.length < size →
      ∀ bytes, Except.ok received = (.ok bytes : Except PyException (List Byte)) →
        bytes = received ++ [] ∧ bytes.length = size := by
    rintro received hle hge bytes ⟨rfl⟩
    exact ⟨(List.append_nil _).symm, by omega⟩
  induction rounds generalizing received unread with
  | nil =>
    simp only [readRounds] at h
    split at h
    · cases h
    · rename_i hge
      cases h
      exact ⟨[], rfl, by simpa using hle, hnone hle hge⟩
  | cons round rounds ih =>
    have herror : ∀ e, (.error e, unread) = (outcome, left) →
        ∃ taken, unread = taken ++ left ∧ received.length + taken.length ≤ size ∧
          ∀ bytes, outcome = .ok bytes → bytes = received ++ taken ∧ bytes.length = size := by
      rintro e ⟨rfl, rfl⟩
      refine ⟨[], rfl, by simpa using hle, ?_⟩
      intro bytes hbytes
      cases hbytes
    simp only [readRounds] at h
    split at h
    · rename_i hlt
      split at h
      · exact herror _ (Option.some.inj h)
      split at h
      · exact herror _ (Option.some.inj h)
      split at h
      · exact ih hle h
      · rename_i n _
        -- a piece, and what the rounds after it take
        have hpiece : (unread.take (min n (size - received.length))).length ≤
            size - received.length := by
          rw [List.length_take]
          omega
        obtain ⟨taken, hleft, hbound, hok⟩ := ih (by rw [List.length_append]; omega) h
        refine ⟨unread.take (min n (size - received.length)) ++ taken, ?_, ?_, ?_⟩
        · rw [List.append_assoc, ← hleft, List.take_append_drop]
        · rw [List.length_append] at hbound ⊢
          omega
        · intro bytes hbytes
          rw [← List.append_assoc]
          exact hok bytes hbytes
    · rename_i hge
      cases h
      exact ⟨[], rfl, by simpa using hle, hnone hle hge⟩

/-! ## What comes in time -/

/-- How many bytes a round has at most. -/
def OsRead.offered : OsRead → ℕ
  | .blocking => 0
  | .upTo n => n

/-- **The bytes come before the deadline**: no clock reading is at it or
past it, `select` does not run into it, and the pieces add up. -/
structure Delivery.InTime (size : ℕ) (timeoutS : ℚ) (delivery : Delivery) : Prop where
  before : ∀ round ∈ delivery.rounds, delivery.start ≤ round.now ∧
    round.now < delivery.start + timeoutS ∧ round.readable = true
  enough : size ≤ (delivery.rounds.map fun round => round.read.offered).sum

/-- **Bytes that come in time are returned**, in whatever pieces. -/
theorem readRounds_delivered (hle : received.length ≤ size)
    (hbefore : ∀ round ∈ rounds, round.now < deadline ∧ round.readable = true)
    (henough : size ≤ received.length + (rounds.map fun round => round.read.offered).sum)
    (hthere : size - received.length ≤ unread.length) :
    readRounds size deadline rounds received unread =
      some (.ok (received ++ unread.take (size - received.length)),
        unread.drop (size - received.length)) := by
  have hdone : ∀ {received unread : List Byte}, received.length ≤ size →
      ¬ received.length < size →
      (some (.ok received, unread) : Option (Except PyException (List Byte) × List Byte)) =
        some (.ok (received ++ unread.take (size - received.length)),
          unread.drop (size - received.length)) := by
    intro received unread hle hge
    have hzero : size - received.length = 0 := by omega
    rw [hzero, List.take_zero, List.drop_zero, List.append_nil]
  induction rounds generalizing received unread with
  | nil =>
    have hge : ¬ received.length < size := by
      simp at henough
      omega
    rw [readRounds, if_neg hge]
    exact hdone hle hge
  | cons round rounds ih =>
    by_cases hlt : received.length < size
    swap
    · rw [readRounds, if_neg hlt]
      exact hdone hle hlt
    obtain ⟨hnow, hreadable⟩ := hbefore round List.mem_cons_self
    have hrest : ∀ round ∈ rounds, round.now < deadline ∧ round.readable = true :=
      fun round hr => hbefore round (List.mem_cons_of_mem _ hr)
    have hremaining : ¬ deadline - round.now ≤ 0 := by linarith
    have hr : ¬ round.readable = false := by simp [hreadable]
    rw [List.map_cons, List.sum_cons] at henough
    simp only [readRounds, if_pos hlt, if_neg hremaining, if_neg hr]
    rcases hread : round.read with _ | n
    · rw [hread, OsRead.offered] at henough
      exact ih hle hrest (by omega) hthere
    · rw [hread, OsRead.offered] at henough
      have hpiece : (unread.take (min n (size - received.length))).length =
          min n (size - received.length) := List.length_take_of_le (by omega)
      -- the rounds after this piece return the rest
      have hlen : size - (received ++ unread.take (min n (size - received.length))).length =
          size - received.length - min n (size - received.length) := by
        rw [List.length_append, hpiece]
        omega
      simp only
      rw [ih (by rw [List.length_append]; omega) hrest (by rw [List.length_append]; omega)
        (by rw [hlen, List.length_drop]; omega), hlen]
      have hsum : size - received.length = min n (size - received.length) +
          (size - received.length - min n (size - received.length)) := by omega
      have htake : unread.take (size - received.length) =
          unread.take (min n (size - received.length)) ++
            (unread.drop (min n (size - received.length))).take
              (size - received.length - min n (size - received.length)) := by
        conv_lhs => rw [hsum, List.take_add]
      have hdrop : unread.drop (size - received.length) =
          (unread.drop (min n (size - received.length))).drop
            (size - received.length - min n (size - received.length)) := by
        rw [List.drop_drop, ← hsum]
      rw [List.append_assoc, ← htake, ← hdrop]

/-! ## Whole calls -/

variable {delivery : Delivery} {port port' : RxPort} {frame : Frame} {x rest : List Byte}

/-- **`read_exact` never over-reads.** It returns just the next bytes of the
stream, or raises with no more of them taken. -/
theorem readExact_takes {size : ℤ}
    (h : port.readExact size timeoutS delivery = some (outcome, port')) :
    ∃ taken, port.unread = taken ++ port'.unread ∧ taken.length ≤ size.toNat ∧
      ∀ bytes, outcome = .ok bytes → bytes = taken ∧ (bytes.length : ℤ) = size := by
  have herror : ∀ e, (Except.error e, port) = (outcome, port') →
      ∃ taken, port.unread = taken ++ port'.unread ∧ taken.length ≤ size.toNat ∧
        ∀ bytes, outcome = .ok bytes → bytes = taken ∧ (bytes.length : ℤ) = size := by
    rintro e ⟨rfl, rfl⟩
    refine ⟨[], rfl, Nat.zero_le _, ?_⟩
    intro bytes hbytes
    cases hbytes
  unfold RxPort.readExact at h
  split at h
  · exact herror _ (Option.some.inj h)
  rename_i hnonneg
  split at h
  · exact herror _ (Option.some.inj h)
  split at h
  · rename_i hzero
    cases h
    refine ⟨[], rfl, Nat.zero_le _, ?_⟩
    rintro bytes ⟨rfl⟩
    exact ⟨rfl, hzero.symm⟩
  split at h
  · exact herror _ (Option.some.inj h)
  obtain ⟨⟨outcome', left⟩, hrounds, hout⟩ := Option.map_eq_some_iff.mp h
  obtain ⟨rfl, rfl⟩ := Prod.mk.inj hout
  obtain ⟨taken, hunread, hbound, hok⟩ := readRounds_takes (Nat.zero_le _) hrounds
  refine ⟨taken, hunread, by simpa using hbound, fun bytes hbytes => ?_⟩
  obtain ⟨hbytes, hlength⟩ := hok bytes hbytes
  exact ⟨hbytes, by omega⟩

/-- A call whose bytes come in time, in any pieces, returns them and leaves
the rest. -/
theorem readExact_delivered (hpos : 0 < size) (hd : delivery.InTime size timeoutS)
    (hlen : x.length = size) :
    RxPort.readExact size timeoutS delivery ⟨true, x ++ rest⟩ = some (.ok x, ⟨true, rest⟩) := by
  have htimeout : ¬ timeoutS < 0 := by
    -- some round was before the deadline, and none before the start
    obtain ⟨round, hround⟩ : ∃ round, round ∈ delivery.rounds := by
      by_contra hnone
      have hempty : delivery.rounds = [] :=
        List.eq_nil_iff_forall_not_mem.mpr fun round hr => hnone ⟨round, hr⟩
      have henough := hd.enough
      rw [hempty, List.map_nil, List.sum_nil] at henough
      omega
    obtain ⟨hstart, hdeadline, -⟩ := hd.before round hround
    linarith
  have hroom : ([] : List Byte).length ≤ size := Nat.zero_le size
  have hlong : size - ([] : List Byte).length ≤ (x ++ rest).length := by
    rw [List.length_append, List.length_nil]
    omega
  have hrounds := readRounds_delivered hroom
    (fun round hr => (hd.before round hr).2) (by simpa using hd.enough) hlong
  rw [List.length_nil, Nat.sub_zero, ← hlen, List.take_left, List.drop_left, List.nil_append,
    hlen] at hrounds
  unfold RxPort.readExact
  rw [if_neg (by omega), if_neg htimeout, if_neg (by omega), if_neg (show ¬ true = false by decide),
    Int.toNat_natCast, hrounds]
  rfl

/-- The answers of one call of the reader, in time for a frame. -/
def FrameInTime (timeoutS : ℚ) (frame : Frame) (deliveries : Delivery × Delivery) : Prop :=
  deliveries.1.InTime 5 timeoutS ∧ deliveries.2.InTime (frame.payload.length + 1) timeoutS

/-- **A frame that comes in time is read**, and nothing after it. -/
theorem readProtocolFrame_delivered {deliveries : Delivery × Delivery}
    (hx : encodeFrame frame = .ok x) (hd : FrameInTime timeoutS frame deliveries) :
    RxPort.readProtocolFrame timeoutS deliveries ⟨true, x ++ rest⟩ =
      some (.ok frame, ⟨true, rest⟩) := by
  have hdecode := decodeFrame_of_encodeFrame hx
  obtain ⟨type, sequence, payload, hp, rfl, rfl⟩ := decodeFrame_eq_ok_iff.mp hdecode
  let header := (frameBytes type sequence payload).take 5
  let tail := (frameBytes type sequence payload).drop 5
  have hsplit : frameBytes type sequence payload = header ++ tail :=
    (List.take_append_drop 5 _).symm
  have hlen : (frameBytes type sequence payload).length = 6 + payload.length := length_frameBytes
  have hheader : header.length = 5 := List.length_take_of_le (by omega)
  have htail : tail.length = payload.length + 1 := by
    rw [List.length_drop, hlen]
    omega
  have hannounced : (header.getD 4 0).toNat = payload.length := by
    unfold maxPayload at hp
    show (BitVec.ofNat 8 payload.length).toNat = _
    rw [BitVec.toNat_ofNat, Nat.mod_eq_of_lt (by omega)]
  have hfirst : RxPort.readExact 5 timeoutS deliveries.1 ⟨true, header ++ (tail ++ rest)⟩ =
      some (.ok header, ⟨true, tail ++ rest⟩) :=
    readExact_delivered (by decide) hd.1 hheader
  have hsecond : RxPort.readExact (payload.length + 1 : ℕ) timeoutS deliveries.2
      ⟨true, tail ++ rest⟩ = some (.ok tail, ⟨true, rest⟩) :=
    readExact_delivered (Nat.succ_pos _) hd.2 htail
  rw [hsplit] at hdecode
  rw [hsplit, List.append_assoc]
  simp only [RxPort.readProtocolFrame, hfirst, hannounced, if_neg (Nat.not_lt.mpr hp), hsecond,
    hdecode]

/-- **Successive calls read successive frames**, each with its own bytes. -/
theorem readFrames_delivered {frames : List Frame} {encoded : List (List Byte)}
    {deliveries : List (Delivery × Delivery)}
    (hx : List.Forall₂ (fun frame x => encodeFrame frame = .ok x) frames encoded)
    (hd : List.Forall₂ (FrameInTime timeoutS) frames deliveries) :
    RxPort.readFrames timeoutS deliveries ⟨true, encoded.flatten ++ rest⟩ =
      some (frames.map .ok, ⟨true, rest⟩) := by
  induction hx generalizing deliveries with
  | nil =>
    cases hd
    rfl
  | @cons frame x frames encoded hframe _ ih =>
    rcases hd with _ | ⟨hfirst, hmore⟩
    rw [List.flatten_cons, List.append_assoc]
    simp only [RxPort.readFrames, readProtocolFrame_delivered hframe hfirst, ih hmore,
      Option.map_some, List.map_cons]

/-- **Reading is independent of the pieces and never over-reads.** Let the
stream hold any encoded frames and then any bytes, and let the bytes come
before the deadlines in any pieces, with empty reads and `BlockingIOError`
among them: the first `n` calls of `read_protocol_frame` return the first
`n` frames and have taken just their bytes. Whatever the answers of the
system, `read_exact` returns just the next bytes it was asked for, or
raises with no more than these taken. -/
theorem reading_exact (timeoutS : ℚ) :
    (∀ frames encoded rest deliveries,
      List.Forall₂ (fun frame x => encodeFrame frame = .ok x) frames encoded →
      List.Forall₂ (FrameInTime timeoutS) frames deliveries →
      ∀ n, RxPort.readFrames timeoutS (deliveries.take n) ⟨true, encoded.flatten ++ rest⟩ =
        some ((frames.take n).map .ok, ⟨true, (encoded.drop n).flatten ++ rest⟩)) ∧
    (∀ size delivery port outcome port',
      RxPort.readExact size timeoutS delivery port = some (outcome, port') →
      ∃ taken, port.unread = taken ++ port'.unread ∧ taken.length ≤ size.toNat ∧
        ∀ bytes, outcome = .ok bytes → bytes = taken ∧ (bytes.length : ℤ) = size) := by
  refine ⟨fun frames encoded rest deliveries hx hd n => ?_, fun _ _ _ _ _ h => readExact_takes h⟩
  have hsplit : encoded.flatten ++ rest =
      (encoded.take n).flatten ++ ((encoded.drop n).flatten ++ rest) := by
    rw [← List.append_assoc, ← List.flatten_append, List.take_append_drop]
  rw [hsplit]
  exact readFrames_delivered (List.forall₂_take n hx) (List.forall₂_take n hd)

/-- The answers of the system to the calls for a PONG and for a COMM_STATUS
behind it: the header of each comes in pieces, with an empty read or a
`BlockingIOError` between them, and the three bytes of the payload and the
check byte one and three at a time. -/
def splitDeliveries : List (Delivery × Delivery) :=
  [(⟨0, [⟨0, true, .upTo 2⟩, ⟨0, true, .upTo 0⟩, ⟨1 / 2, true, .upTo 3⟩]⟩,
      ⟨1 / 2, [⟨1 / 2, true, .blocking⟩, ⟨1, true, .upTo 9⟩]⟩),
    (⟨2, [⟨2, true, .upTo 1⟩, ⟨2, true, .blocking⟩, ⟨5 / 2, true, .upTo 9⟩]⟩,
      ⟨5 / 2, [⟨5 / 2, true, .upTo 1⟩, ⟨3, true, .upTo 3⟩]⟩)]

/-- Both frames are read whole, the second from the bytes behind the first,
and the byte after them is left. -/
theorem reading_exact_split :
    ∃ x y, encodeFrame ⟨0x81, 7, []⟩ = .ok x ∧ encodeFrame ⟨0x83, 8, [0, 2, 7]⟩ = .ok y ∧
      RxPort.readFrames 1 splitDeliveries ⟨true, x ++ y ++ [0xA5]⟩ =
        some ([.ok ⟨0x81, 7, []⟩, .ok ⟨0x83, 8, [0, 2, 7]⟩], ⟨true, [0xA5]⟩) := by
  have hpong : Frame.Encodable ⟨0x81, 7, []⟩ := by decide
  have hstatus : Frame.Encodable ⟨0x83, 8, [0, 2, 7]⟩ := by decide
  obtain ⟨x, hx, -⟩ := decodeFrame_encodeFrame hpong
  obtain ⟨y, hy, -⟩ := decodeFrame_encodeFrame hstatus
  have hdelivered : List.Forall₂ (FrameInTime 1) [⟨0x81, 7, []⟩, ⟨0x83, 8, [0, 2, 7]⟩]
      splitDeliveries := by
    refine .cons ⟨⟨?_, ?_⟩, ⟨?_, ?_⟩⟩ (.cons ⟨⟨?_, ?_⟩, ⟨?_, ?_⟩⟩ .nil) <;> decide +kernel
  have hread := (reading_exact 1).1 _ [x, y] [0xA5] _ (.cons hx (.cons hy .nil)) hdelivered 2
  rw [show splitDeliveries.take 2 = splitDeliveries from rfl] at hread
  refine ⟨x, y, hx, hy, ?_⟩
  simpa using hread

/-! ## The buffered port -/

/-- The answers where all bytes are buffered and none arrives: a round that
takes what there is, and one that runs into the deadline. -/
def buffered (size : ℕ) : Delivery := ⟨0, [⟨0, true, .upTo size⟩, ⟨0, false, .blocking⟩]⟩

/-- **With all bytes buffered** the call is that of the buffered reader. -/
theorem readExact_buffered (size : ℕ) (htimeout : 0 < timeoutS) (rx : List Byte) :
    RxPort.readExact size timeoutS (buffered size) ⟨true, rx⟩ =
      some ((readExact size rx).1, ⟨true, (readExact size rx).2⟩) := by
  have hneg : ¬ timeoutS < 0 := not_lt.mpr htimeout.le
  have hround : ¬ (0 : ℚ) + timeoutS - 0 ≤ 0 := by linarith
  by_cases hzero : size = 0
  · subst hzero
    simp [RxPort.readExact, hneg, readExact_ok (Nat.zero_le rx.length)]
  have hpos : 0 < size := Nat.pos_of_ne_zero hzero
  have hcall : RxPort.readExact size timeoutS (buffered size) ⟨true, rx⟩ =
      (readRounds size (0 + timeoutS) (buffered size).rounds [] rx).map
        fun r => (r.1, ⟨true, r.2⟩) := by
    unfold RxPort.readExact
    rw [if_neg (by omega), if_neg hneg, if_neg (by omega),
      if_neg (show ¬ true = false by decide), Int.toNat_natCast]
    rfl
  rw [hcall]
  simp only [buffered, readRounds, List.length_nil, if_pos hpos, if_neg hround, Nat.sub_zero,
    Nat.min_self, List.nil_append]
  rcases Nat.lt_or_ge rx.length size with hshort | hlong
  · -- the second round waits for what does not come
    have htake : rx.take size = rx := List.take_of_length_le (Nat.le_of_lt hshort)
    have hdrop : rx.drop size = [] := List.drop_of_length_le (Nat.le_of_lt hshort)
    rw [htake, hdrop, if_pos hshort, readExact_timeout hshort]
    rfl
  · have htake : (rx.take size).length = size := List.length_take_of_le hlong
    rw [htake, if_neg (Nat.lt_irrefl size), readExact_ok hlong]
    rfl

end SentryCell.Host
