import SentryCell.Protocol.Recovery
import Mathlib.Data.List.Chain
/-!
# The gaps inside a frame

The parser tests for a timeout once a pass and then processes bytes under
readings of their own. A log of the bytes, each with its reading and the
parser it was given to, is what a statement about the gaps speaks of.
`Timed` is the invariant: the bytes of an open candidate are the last of
the log, and each came close on the one before it.
-/

namespace SentryCell

/-- **A call of `protocol_process_byte`**, and the state it was made in. -/
structure Processed where
  byte : Byte
  nowMs : Word32
  before : Protocol

/-- The frame the call hands to `protocol_handle_frame`. -/
def Processed.handled (x : Processed) : Option ProtocolFrame := handledFrame x.byte x.before

/-- The test that `protocol_check_timeout` makes. -/
def Protocol.TimedOut (p : Protocol) (nowMs : Word32) : Prop :=
  p.parserState ≠ .waitSof ∧ nowMs - p.lastByteMs ≥ protocolInterbyteTimeoutMs

instance (p : Protocol) (nowMs : Word32) : Decidable (p.TimedOut nowMs) :=
  inferInstanceAs (Decidable (_ ∧ _))

/-- Processed less than 100 ms apart. -/
def Close (x y : Processed) : Prop := (y.nowMs - x.nowMs).toNat < 100

instance (x y : Processed) : Decidable (Close x y) := inferInstanceAs (Decidable (_ < _))

/-- **No gap in a frame**: the bytes of each frame that the log hands over
are the last of it up to there, and each came close on the one before. -/
def Unbroken (log : List Processed) : Prop :=
  ∀ done x rest frame, log = done ++ x :: rest → x.handled = some frame →
    ∃ earlier data, done ++ [x] = earlier ++ data ∧
      data.map Processed.byte = encodedFrame frame ∧ data.IsChain Close

/-- **The candidate that is open**, with its readings. -/
structure Timed (cur : List Processed) (p : Protocol) : Prop where
  collecting : Collecting (cur.map Processed.byte) p
  close : cur.IsChain Close
  last : ∀ x ∈ cur.getLast?, x.nowMs = p.lastByteMs

variable {p p' : Protocol} {cur log : List Processed} {byte : Byte} {nowMs : Word32}
variable {frame : ProtocolFrame} {tail : List Byte}

/-- Outside a frame no candidate is open. -/
theorem Timed.idle (h : p.parserState = .waitSof) : Timed [] p :=
  ⟨.idle h, .nil, fun _ hx => by simp at hx⟩

/-- What the parser has read of a candidate does not depend on the slots. -/
theorem Collecting.congr (h : Collecting tail p) (hs : p'.parserState = p.parserState)
    (hf : p'.receivedFrame = p.receivedFrame) (hi : p'.payloadIndex = p.payloadIndex) :
    Collecting tail p' := by
  rcases h with hs' | hs' | hs' | ⟨hs', ht⟩ | ⟨hs', ht, hq⟩ |
    ⟨hs', ht, hq, hlen, h8, hi', hle, hp⟩
  · exact .idle (hs.trans hs')
  · exact .sof (hs.trans hs')
  · exact .version (hs.trans hs')
  · exact .type (hs.trans hs') (hf ▸ ht)
  · exact .sequence (hs.trans hs') (hf ▸ ht) (hf ▸ hq)
  · exact .payload (hs.trans hs') (hf ▸ ht) (hf ▸ hq) (hf ▸ hlen) h8 (hi ▸ hi') hle (hf ▸ hp)

/-- The candidate does not depend on the slots or on the counters. -/
theorem Timed.congr (h : Timed cur p) (hs : p'.parserState = p.parserState)
    (hf : p'.receivedFrame = p.receivedFrame) (hi : p'.payloadIndex = p.payloadIndex)
    (hl : p'.lastByteMs = p.lastByteMs) : Timed cur p' :=
  ⟨h.collecting.congr hs hf hi, h.close, fun x hx => (h.last x hx).trans hl.symm⟩

/-- An open candidate has a byte. -/
theorem Collecting.ne_waitSof (h : Collecting tail p) (hne : tail ≠ []) :
    p.parserState ≠ .waitSof := by
  rcases h with hs | hs | hs | ⟨hs, -⟩ | ⟨hs, -, -⟩ | ⟨hs, -, -, -, -, -, -, -⟩
  · exact absurd rfl hne
  · simp [hs]
  · simp [hs]
  · simp [hs]
  · simp [hs]
  · rw [hs]
    split
    · exact ParserState.noConfusion
    · exact ParserState.noConfusion

/-- **A byte that leaves a candidate open leaves its own reading.** -/
theorem lastByteMs_processByte
    (h : (protocolProcessByte byte nowMs p).parserState ≠ .waitSof) :
    (protocolProcessByte byte nowMs p).lastByteMs = nowMs := by
  rcases hs : p.parserState with _ | _ | _ | _ | _ | _ | _
  · rw [processByte_waitSof hs] at h ⊢
    by_cases hb : byte = protocolSof
    · rw [if_pos hb]
    · rw [if_neg hb] at h
      exact absurd hs h
  · rw [processByte_readVersion hs] at h ⊢
    by_cases hb : byte = protocolVersion
    · rw [if_pos hb]
    · rw [if_neg hb] at h
      exact absurd rfl h
  · rw [processByte_readType hs]
  · rw [processByte_readSequence hs]
  · rw [processByte_readLength hs] at h ⊢
    by_cases hb : byte > protocolMaxPayload
    · rw [if_pos hb] at h
      exact absurd rfl h
    · rw [if_neg hb]
  · by_cases hi : p.payloadIndex < p.receivedFrame.length ∧ p.payloadIndex < protocolMaxPayload
    · rw [processByte_readPayload hs hi.1 hi.2]
    · refine absurd ?_ h
      unfold protocolProcessByte protocolSwitch
      simp only [ne_eq, hs, reduceCtorEq, not_false_eq_true, if_true, if_neg hi]
      rfl
  · rw [processByte_readCrc hs] at h
    split at h
    · exact absurd rfl h
    · exact absurd rfl h

/-- The bytes of a piece that is handed over are the frame's encoding. -/
theorem bytes_of_decoded {s : Segment} (h : s.decoded = some frame.toHost) :
    s.bytes = encodedFrame frame := by
  have hdec : Host.decodeFrame s.bytes = .ok frame.toHost := by
    rcases s with _ | _ | _ | ⟨type, sequence, payload, hlen, crc⟩
    · cases h
    · cases h
    · cases h
    · let bytes := (Segment.complete type sequence payload hlen crc).bytes
      have hopt : (Host.decodeFrame bytes).toOption = some frame.toHost := h
      show Host.decodeFrame bytes = _
      rcases hd : Host.decodeFrame bytes with e | f
      · rw [hd] at hopt
        cases hopt
      · rw [hd] at hopt
        rw [Option.some.inj hopt]
  obtain ⟨type, sequence, payload, hlen, -, hframe⟩ := Host.decodeFrame_eq_ok_iff.mp hdec
  have hpayload : frame.data = payload := congrArg Host.Frame.payload hframe
  have h8 : frame.length.toNat ≤ 8 := by
    rw [← length_data, hpayload]
    exact hlen
  have henc := Host.encodeFrame_decodeFrame hdec
  rw [encodeFrame_toHost h8] at henc
  exact (Except.ok.inj henc).symm

/-- The reading of a byte is close on the last one of the candidate,
unless the test would find it late. -/
theorem Timed.close_snoc (h : Timed cur p) (hot : ¬ p.TimedOut nowMs) :
    List.IsChain Close (cur ++ [⟨byte, nowMs, p⟩]) := by
  refine List.isChain_append.mpr ⟨h.close, .singleton _, ?_⟩
  intro x hx y hy
  obtain rfl : (⟨byte, nowMs, p⟩ : Processed) = y := by simpa using hy
  have hne : cur.map Processed.byte ≠ [] := by
    intro hnil
    rw [List.map_eq_nil_iff.mp hnil] at hx
    cases hx
  have hopen := h.collecting.ne_waitSof hne
  have hlt : ¬ (nowMs - p.lastByteMs ≥ protocolInterbyteTimeoutMs) := fun hge => hot ⟨hopen, hge⟩
  show (nowMs - x.nowMs).toNat < 100
  rw [h.last x hx]
  exact not_timedOut_iff.mp hlt

/-- **One byte of a candidate** that has not timed out goes on with it, or
closes it and starts anew. -/
theorem Timed.step (h : Timed cur p) (hot : ¬ p.TimedOut nowMs) :
    ∃ next, Timed next (protocolProcessByte byte nowMs p) ∧
      (∃ dropped, cur ++ [⟨byte, nowMs, p⟩] = dropped ++ next) ∧
      ∀ frame, handledFrame byte p = some frame →
        List.map Processed.byte (cur ++ [⟨byte, nowMs, p⟩]) = encodedFrame frame := by
  have hmap : List.map Processed.byte (cur ++ [⟨byte, nowMs, p⟩]) =
      cur.map Processed.byte ++ [byte] := by
    rw [List.map_append]
    rfl
  rcases h.collecting.step byte nowMs with ⟨hext, hf, -⟩ | ⟨s, hb, hs, hf, -⟩
  · refine ⟨cur ++ [⟨byte, nowMs, p⟩], ⟨?_, h.close_snoc hot, ?_⟩, ⟨[], rfl⟩, ?_⟩
    · rw [hmap]
      exact hext
    · intro x hx
      rw [List.getLast?_concat] at hx
      obtain rfl : (⟨byte, nowMs, p⟩ : Processed) = x := by simpa using hx
      have hopen := hext.ne_waitSof (by simp)
      exact (lastByteMs_processByte hopen).symm
    · intro frame hframe
      rw [hf] at hframe
      cases hframe
  · refine ⟨[], .idle hs, ⟨_, (List.append_nil _).symm⟩, ?_⟩
    intro frame hframe
    rw [hframe, Option.map_some] at hf
    rw [hmap, ← hb]
    exact bytes_of_decoded hf.symm

/-- A check leaves the candidate alone or closes it. -/
theorem Timed.check (h : Timed cur p) :
    Timed cur (protocolCheckTimeout nowMs p) ∨ Timed [] (protocolCheckTimeout nowMs p) := by
  unfold protocolCheckTimeout
  split
  · exact .inr (.idle rfl)
  · exact .inl h

/-! ## The log -/

/-- **The invariant of the log**: it is unbroken, and ends in what is open
of a candidate. -/
def Logged (log : List Processed) (p : Protocol) : Prop :=
  Unbroken log ∧ ∃ earlier cur, log = earlier ++ cur ∧ Timed cur p

/-- Before the first byte the log is empty. -/
theorem Logged.nil (h : p.parserState = .waitSof) : Logged [] p := by
  refine ⟨fun done x rest frame hlog => ?_, [], [], rfl, .idle h⟩
  cases List.append_ne_nil_of_right_ne_nil done (List.cons_ne_nil x rest) hlog.symm

/-- The log does not depend on the slots or on the counters. -/
theorem Logged.congr (h : Logged log p) (hs : p'.parserState = p.parserState)
    (hf : p'.receivedFrame = p.receivedFrame) (hi : p'.payloadIndex = p.payloadIndex)
    (hl : p'.lastByteMs = p.lastByteMs) : Logged log p' := by
  obtain ⟨hun, earlier, cur, hlog, htimed⟩ := h
  exact ⟨hun, earlier, cur, hlog, htimed.congr hs hf hi hl⟩

/-- A check closes a candidate and takes nothing from the log. -/
theorem Logged.check (h : Logged log p) : Logged log (protocolCheckTimeout nowMs p) := by
  obtain ⟨hun, earlier, cur, hlog, htimed⟩ := h
  rcases (htimed.check : Timed cur (protocolCheckTimeout nowMs p) ∨ _) with hopen | hclosed
  · exact ⟨hun, earlier, cur, hlog, hopen⟩
  · exact ⟨hun, log, [], (List.append_nil log).symm, hclosed⟩

/-- **A byte that is on time** keeps the log unbroken. -/
theorem Logged.step (h : Logged log p) (hot : ¬ p.TimedOut nowMs) :
    Logged (log ++ [⟨byte, nowMs, p⟩]) (protocolProcessByte byte nowMs p) := by
  obtain ⟨hun, earlier, cur, hlog, htimed⟩ := h
  obtain ⟨next, hnext, ⟨dropped, hdropped⟩, hframe⟩ := htimed.step hot
  constructor
  · intro done x rest frame heq hx
    rcases List.eq_nil_or_concat' rest with rfl | ⟨rest', y, rfl⟩
    · -- the byte that was logged last
      obtain ⟨rfl, hlast⟩ := List.append_inj' heq rfl
      obtain rfl : (⟨byte, nowMs, p⟩ : Processed) = x := by simpa using hlast
      refine ⟨earlier, cur ++ [⟨byte, nowMs, p⟩], ?_, hframe frame hx, htimed.close_snoc hot⟩
      rw [hlog, List.append_assoc]
    · have hsplit : log ++ [⟨byte, nowMs, p⟩] = (done ++ x :: rest') ++ [y] := by
        rw [heq]
        simp
      obtain ⟨hinit, -⟩ := List.append_inj' hsplit rfl
      exact hun done x rest' frame hinit hx
  · refine ⟨earlier ++ dropped, next, ?_, hnext⟩
    rw [hlog, List.append_assoc, hdropped, List.append_assoc]

end SentryCell
