import SentryCell.Lib.Encoding
import SentryCell.Protocol.Parser
/-!
# Byte streams and the frames in them

A stream of bytes is cut, in exactly one way, into ignored bytes,
abandoned candidates, complete candidates and an unfinished tail. The
parser follows this cut byte by byte (`Collecting.step`): it hands over
the complete candidates the supervisor's `decode_frame` accepts, counts
the others as CRC errors, and touches no slot on any other byte.
-/

namespace SentryCell

/-- **A piece of a byte stream.** -/
inductive Segment where
  | noise (b : Byte) (h : b ≠ protocolSof)
  | badVersion (version : Byte) (h : version ≠ protocolVersion)
  | badLength (type sequence length : Byte) (h : 8 < length.toNat)
  | complete (type sequence : Byte) (payload : List Byte) (h : payload.length ≤ 8) (crc : Byte)

/-- The bytes of a piece. -/
def Segment.bytes : Segment → List Byte
  | .noise b _ => [b]
  | .badVersion version _ => [protocolSof, version]
  | .badLength type sequence length _ => [protocolSof, protocolVersion, type, sequence, length]
  | .complete type sequence payload _ crc =>
    protocolSof :: protocolVersion :: type :: sequence :: BitVec.ofNat 8 payload.length ::
      (payload ++ [crc])

/-- What the supervisor makes of a piece, if it is a complete candidate
that `decode_frame` accepts. -/
def Segment.decoded (s : Segment) : Option Host.Frame :=
  match s with
  | .complete .. => (Host.decodeFrame s.bytes).toOption
  | _ => none

/-- A complete candidate that `decode_frame` rejects. -/
def Segment.rejected (s : Segment) : Bool :=
  match s with
  | .complete .. => s.decoded.isNone
  | _ => false

/-- **A candidate that is not finished**: nothing, or a SOF and a part of
what has to follow it. -/
inductive Unfinished : List Byte → Prop
  | nil : Unfinished []
  | sof : Unfinished [protocolSof]
  | version : Unfinished [protocolSof, protocolVersion]
  | type (type : Byte) : Unfinished [protocolSof, protocolVersion, type]
  | sequence (type sequence : Byte) : Unfinished [protocolSof, protocolVersion, type, sequence]
  | payload (type sequence length : Byte) (payload : List Byte) (hl : length.toNat ≤ 8)
      (hp : payload.length ≤ length.toNat) :
      Unfinished (protocolSof :: protocolVersion :: type :: sequence :: length :: payload)

/-! ## The cut is unique -/

theorem toNat_ofNat_length {payload : List Byte} (h : payload.length ≤ 8) :
    (BitVec.ofNat 8 payload.length).toNat = payload.length := by
  rw [BitVec.toNat_ofNat, Nat.mod_eq_of_lt (by omega)]

/-- The header of a candidate: what it starts with decides which it is. -/
theorem segment_free {s s' : Segment} {r r' : List Byte} (h : s.bytes ++ r = s'.bytes ++ r') :
    s = s' := by
  rcases s with ⟨b, hb⟩ | ⟨v, hv⟩ | ⟨t, q, l, hl⟩ | ⟨t, q, ps, hps, c⟩ <;>
    rcases s' with ⟨b', hb'⟩ | ⟨v', hv'⟩ | ⟨t', q', l', hl'⟩ | ⟨t', q', ps', hps', c'⟩ <;>
    simp only [Segment.bytes, List.cons_append, List.nil_append, List.cons.injEq] at h
  · simp [h.1]
  · exact absurd h.1 hb
  · exact absurd h.1 hb
  · exact absurd h.1 hb
  · exact absurd h.1.symm hb'
  · simp [h.2.1]
  · exact absurd h.2.1 hv
  · exact absurd h.2.1 hv
  · exact absurd h.1.symm hb'
  · exact absurd h.2.1.symm hv'
  · simp [h.2.2.1, h.2.2.2.1, h.2.2.2.2.1]
  · have := congrArg BitVec.toNat h.2.2.2.2.1
    rw [toNat_ofNat_length hps'] at this
    omega
  · exact absurd h.1.symm hb'
  · exact absurd h.2.1.symm hv'
  · have := congrArg BitVec.toNat h.2.2.2.2.1
    rw [toNat_ofNat_length hps] at this
    omega
  · obtain ⟨-, -, rfl, rfl, hlen, hrest⟩ := h
    have hlen := congrArg BitVec.toNat hlen
    rw [toNat_ofNat_length hps, toNat_ofNat_length hps'] at hlen
    rw [List.append_assoc, List.append_assoc] at hrest
    obtain ⟨rfl, hcrc⟩ := List.append_inj hrest hlen
    obtain ⟨rfl, -⟩ := List.cons.inj hcrc
    rfl

/-- No complete segment starts an unfinished one. -/
theorem segment_not_unfinished (s : Segment) (r : List Byte) : ¬ Unfinished (s.bytes ++ r) := by
  intro h
  rcases s with ⟨b, hb⟩ | ⟨v, hv⟩ | ⟨t, q, l, hl⟩ | ⟨t, q, ps, hps, c⟩ <;>
    simp only [Segment.bytes, List.cons_append, List.nil_append] at h
  · rcases h with _ | _ | _ | _ | _ | _ <;> exact hb rfl
  · rcases h with _ | _ | _ | _ | _ | _ <;> exact hv rfl
  · rcases h with _ | _ | _ | _ | _ | ⟨_, _, _, _, hl8, _⟩
    omega
  · rcases h with _ | _ | _ | _ | _ | ⟨_, _, _, _, _, hlen⟩
    rw [toNat_ofNat_length hps] at hlen
    simp only [List.length_append, List.length_cons, List.length_nil] at hlen
    omega

/-- **A stream is cut in one way.** -/
theorem segment_prefixCode : PrefixCode.Free Segment.bytes Unfinished where
  ne_nil s := by rcases s <;> exact List.cons_ne_nil _ _
  free _ _ _ _ h := segment_free h
  unfinished := segment_not_unfinished

/-! ## What the supervisor makes of a complete candidate -/

variable {type sequence crc byte : Byte} {payload tail data : List Byte} {p : Protocol}
variable {nowMs : Word32}

/-- A complete candidate decodes to what was sent if its check is right. -/
theorem decoded_complete (h : payload.length ≤ 8) :
    (Segment.complete type sequence payload h crc).decoded =
      if crc = crc8Compute (Host.frameBody type sequence payload) then
        some ⟨type.toNat, sequence.toNat, payload⟩
      else none := by
  have hlen := toNat_ofNat_length h
  have hmax : (BitVec.ofNat 8 payload.length).toNat ≤ Host.maxPayload := by
    rw [hlen]
    exact h
  show (Host.decodeFrame (Segment.complete type sequence payload h crc).bytes).toOption = _
  by_cases hc : crc = crc8Compute (Host.frameBody type sequence payload)
  · have hd : Host.decodeFrame (Segment.complete type sequence payload h crc).bytes =
        .ok ⟨type.toNat, sequence.toNat, payload⟩ :=
      Host.decodeFrame_cons.mpr ⟨rfl, rfl, hmax, hlen.symm, hc, rfl⟩
    rw [if_pos hc, hd]
    rfl
  · rw [if_neg hc]
    rcases hd : Host.decodeFrame (Segment.complete type sequence payload h crc).bytes with e | f
    · rfl
    · exact absurd (Host.decodeFrame_cons.mp hd).2.2.2.2.1 hc

/-- A complete candidate is rejected if its check is wrong, and for no other
reason. -/
theorem rejected_complete (h : payload.length ≤ 8) :
    (Segment.complete type sequence payload h crc).rejected =
      decide (crc ≠ crc8Compute (Host.frameBody type sequence payload)) := by
  unfold Segment.rejected
  simp only [decoded_complete h]
  by_cases hc : crc = crc8Compute (Host.frameBody type sequence payload)
  · simp [hc]
  · simp [hc]

/-! ## The parser inside a candidate -/

/-- **What the parser remembers of a candidate** is what it has read of it. -/
inductive Collecting : List Byte → Protocol → Prop
  | idle {p : Protocol} (hs : p.parserState = .waitSof) : Collecting [] p
  | sof {p : Protocol} (hs : p.parserState = .readVersion) : Collecting [protocolSof] p
  | version {p : Protocol} (hs : p.parserState = .readType) :
      Collecting [protocolSof, protocolVersion] p
  | type {p : Protocol} {type : Byte} (hs : p.parserState = .readSequence)
      (ht : p.receivedFrame.type = type) : Collecting [protocolSof, protocolVersion, type] p
  | sequence {p : Protocol} {type sequence : Byte} (hs : p.parserState = .readLength)
      (ht : p.receivedFrame.type = type) (hq : p.receivedFrame.sequence = sequence) :
      Collecting [protocolSof, protocolVersion, type, sequence] p
  | payload {p : Protocol} {type sequence length : Byte} {payload : List Byte}
      (hs : p.parserState = if payload.length = length.toNat then .readCrc else .readPayload)
      (ht : p.receivedFrame.type = type) (hq : p.receivedFrame.sequence = sequence)
      (hl : p.receivedFrame.length = length) (h8 : length.toNat ≤ 8)
      (hi : p.payloadIndex.toNat = payload.length) (hle : payload.length ≤ length.toNat)
      (hp : payload = (List.range payload.length).map p.receivedFrame.payload) :
      Collecting (protocolSof :: protocolVersion :: type :: sequence :: length :: payload) p

/-- What the parser is collecting is an unfinished segment. -/
theorem Collecting.unfinished (h : Collecting tail p) : Unfinished tail := by
  rcases h with _ | _ | _ | _ | _ | ⟨_, _, _, _, h8, _, hle, _⟩
  · exact .nil
  · exact .sof
  · exact .version
  · exact .type _
  · exact .sequence _ _
  · exact .payload _ _ _ _ h8 hle

/-- What a byte does inside a stream: it extends the candidate, or ends a
piece. -/
inductive ByteEffect (tail : List Byte) (byte : Byte) (p p' : Protocol) : Prop
  | extends (h : Collecting (tail ++ [byte]) p') (hf : handledFrame byte p = none)
      (hc : p'.crcErrorCount = p.crcErrorCount)
  | ends (s : Segment) (hb : s.bytes = tail ++ [byte]) (hs : p'.parserState = .waitSof)
      (hf : (handledFrame byte p).map ProtocolFrame.toHost = s.decoded)
      (hc : p'.crcErrorCount =
        if s.rejected then protocolIncrementSaturating p.crcErrorCount else p.crcErrorCount)

/-- The payload grows by the byte that was read. -/
theorem range_map_update (payload : ℕ → Byte) (n : ℕ) (b : Byte) :
    (List.range (n + 1)).map (Function.update payload n b) =
      (List.range n).map payload ++ [b] := by
  rw [List.range_succ, List.map_append]
  congr 1
  · refine List.map_congr_left fun i hi => ?_
    exact Function.update_of_ne (Nat.ne_of_lt (List.mem_range.mp hi)) _ _
  · simp

/-- **One byte of a stream** goes on with the candidate or completes a
segment, and the parser does what that segment asks for. -/
theorem Collecting.step (h : Collecting tail p) (byte : Byte) (nowMs : Word32) :
    ByteEffect tail byte p (protocolProcessByte byte nowMs p) := by
  rcases h with hs | hs | hs | ⟨hs, rfl⟩ | ⟨hs, rfl, rfl⟩ | ⟨hs, rfl, rfl, rfl, hl, hi, hle, hp⟩
  · rw [processByte_waitSof hs]
    have hf : handledFrame byte p = none := handledFrame_of_ne (by simp [hs])
    by_cases hb : byte = protocolSof
    · rw [if_pos hb, hb]
      rw [hb] at hf
      exact .extends (.sof rfl) hf rfl
    · rw [if_neg hb]
      exact .ends (.noise byte hb) rfl hs (by rw [hf]; rfl) rfl
  · rw [processByte_readVersion hs]
    have hf : handledFrame byte p = none := handledFrame_of_ne (by simp [hs])
    by_cases hb : byte = protocolVersion
    · rw [if_pos hb, hb]
      rw [hb] at hf
      exact .extends (.version rfl) hf rfl
    · rw [if_neg hb]
      exact .ends (.badVersion byte hb) rfl rfl (by rw [hf]; rfl) rfl
  · rw [processByte_readType hs]
    exact .extends (.type rfl rfl) (handledFrame_of_ne (by simp [hs])) rfl
  · rw [processByte_readSequence hs]
    exact .extends (.sequence rfl rfl rfl) (handledFrame_of_ne (by simp [hs])) rfl
  · rw [processByte_readLength hs]
    have hf : handledFrame byte p = none := handledFrame_of_ne (by simp [hs])
    by_cases hb : byte > protocolMaxPayload
    · rw [if_pos hb]
      refine .ends (.badLength p.receivedFrame.type p.receivedFrame.sequence byte
        (length_gt_maxPayload.mp hb)) rfl rfl (by rw [hf]; rfl) rfl
    · rw [if_neg hb]
      refine .extends (.payload ?_ rfl rfl rfl ?_ rfl (Nat.zero_le _) rfl) hf rfl
      · by_cases h0 : byte = 0
        · rw [if_pos h0, h0]
          rfl
        · have hne : 0 ≠ byte.toNat := fun h => h0 (BitVec.eq_of_toNat_eq h.symm)
          rw [if_neg h0]
          exact (if_neg hne).symm
      · exact Nat.le_of_not_lt (mt length_gt_maxPayload.mpr hb)
  · rename_i payload
    by_cases hfull : payload.length = p.receivedFrame.length.toNat
    · -- the byte is the check byte of a complete candidate
      rw [if_pos hfull] at hs
      have hdata : p.receivedFrame.data = payload := by
        rw [ProtocolFrame.data, ← hfull]
        exact hp.symm
      have hlen : BitVec.ofNat 8 payload.length = p.receivedFrame.length := by
        rw [hfull]
        simp
      have h8 : payload.length ≤ 8 := by omega
      have hcrc := protocolComputeCrc_eq hl
      rw [hdata] at hcrc
      have hbytes : (Segment.complete p.receivedFrame.type p.receivedFrame.sequence payload h8
          byte).bytes = (protocolSof :: protocolVersion :: p.receivedFrame.type ::
            p.receivedFrame.sequence :: p.receivedFrame.length :: payload) ++ [byte] := by
        rw [Segment.bytes, hlen]
        rfl
      rw [processByte_readCrc hs]
      by_cases hc : byte = protocolComputeCrc p.receivedFrame
      · rw [if_pos hc]
        refine .ends _ hbytes rfl ?_ ?_
        · rw [handledFrame, if_pos ⟨hs, hc⟩, decoded_complete h8, if_pos (hc.trans hcrc)]
          rw [← hdata]
          rfl
        · rw [rejected_complete h8, decide_eq_false (not_not.mpr (hc.trans hcrc))]
          rfl
      · have hne : byte ≠ crc8Compute (Host.frameBody p.receivedFrame.type
            p.receivedFrame.sequence payload) := fun h => hc (h.trans hcrc.symm)
        rw [if_neg hc]
        refine .ends _ hbytes rfl ?_ ?_
        · rw [handledFrame, if_neg fun h => hc h.2, decoded_complete h8, if_neg hne]
          rfl
        · rw [rejected_complete h8, decide_eq_true hne]
          rfl
    · rw [if_neg hfull] at hs
      have hi8 : p.payloadIndex < protocolMaxPayload := by
        show p.payloadIndex.toNat < 8
        omega
      have hil : p.payloadIndex < p.receivedFrame.length := by
        show p.payloadIndex.toNat < p.receivedFrame.length.toNat
        omega
      have hnext : (p.payloadIndex + 1).toNat = payload.length + 1 := by
        rw [BitVec.toNat_add, hi]
        show (payload.length + 1) % 256 = _
        omega
      have hsucc : (payload ++ [byte]).length = payload.length + 1 := by simp
      rw [processByte_readPayload hs hil hi8]
      have hstate : (if p.payloadIndex + 1 = p.receivedFrame.length then ParserState.readCrc
          else .readPayload) =
          if (payload ++ [byte]).length = p.receivedFrame.length.toNat then .readCrc
          else .readPayload := by
        rw [hsucc, ← hnext]
        by_cases hlast : p.payloadIndex + 1 = p.receivedFrame.length
        · rw [if_pos hlast, if_pos (congrArg BitVec.toNat hlast)]
        · rw [if_neg hlast, if_neg fun h => hlast (BitVec.eq_of_toNat_eq h)]
      have hpayload : payload ++ [byte] = (List.range (payload ++ [byte]).length).map
          (Function.update p.receivedFrame.payload p.payloadIndex.toNat byte) := by
        rw [hsucc, hi, range_map_update, ← hp]
      have hle' : (payload ++ [byte]).length ≤ p.receivedFrame.length.toNat := by omega
      exact .extends (.payload hstate rfl rfl rfl hl (hnext.trans hsucc.symm) hle' hpayload)
        (handledFrame_of_ne (by simp [hs])) rfl

/-! ## Whole streams -/

/-- A stream of bytes, each with the time it is processed at. -/
def protocolProcessBytes : List (Byte × Word32) → Protocol → Protocol
  | [], p => p
  | (byte, nowMs) :: input, p => protocolProcessBytes input (protocolProcessByte byte nowMs p)

/-- The frames `protocol_handle_frame` is called with on a stream, in order. -/
def handledFrames : List (Byte × Word32) → Protocol → List ProtocolFrame
  | [], _ => []
  | (byte, nowMs) :: input, p =>
    (handledFrame byte p).toList ++ handledFrames input (protocolProcessByte byte nowMs p)

/-- **A cut of a stream** into pieces and an unfinished tail. -/
structure Cut (data : List Byte) (segs : List Segment) (tail : List Byte) : Prop where
  eq : data = segs.flatMap Segment.bytes ++ tail
  unfinished : Unfinished tail

variable {input more : List (Byte × Word32)} {segs : List Segment}

/-- What a stream does from inside a candidate. -/
structure StreamEffect (tail : List Byte) (input : List (Byte × Word32)) (p : Protocol)
    (segs : List Segment) (tail' : List Byte) : Prop where
  eq : tail ++ input.map Prod.fst = segs.flatMap Segment.bytes ++ tail'
  collecting : Collecting tail' (protocolProcessBytes input p)
  handled : (handledFrames input p).map ProtocolFrame.toHost = segs.filterMap Segment.decoded
  crcErrors : (protocolProcessBytes input p).crcErrorCount.toNat =
    min 255 (p.crcErrorCount.toNat + segs.countP Segment.rejected)

/-- **The parser follows the cut**: by induction on the bytes, from whatever
it has collected. -/
theorem Collecting.run (h : Collecting tail p) (input : List (Byte × Word32)) :
    ∃ segs tail', StreamEffect tail input p segs tail' := by
  induction input generalizing tail p with
  | nil =>
    have hlt := p.crcErrorCount.isLt
    refine ⟨[], tail, by simp, h, rfl, ?_⟩
    show p.crcErrorCount.toNat = min 255 (p.crcErrorCount.toNat + 0)
    omega
  | cons x input ih =>
    obtain ⟨byte, nowMs⟩ := x
    have hcons : tail ++ ((byte, nowMs) :: input).map Prod.fst =
        (tail ++ [byte]) ++ input.map Prod.fst := by simp
    rcases h.step byte nowMs with ⟨hext, hf, hc⟩ | ⟨s, hb, hs, hf, hc⟩
    · obtain ⟨segs, tail', heq, hcol, hh, hcrc⟩ := ih hext
      refine ⟨segs, tail', hcons.trans heq, hcol, ?_, ?_⟩
      · rw [handledFrames, hf]
        exact hh
      · rw [hc] at hcrc
        exact hcrc
    · obtain ⟨segs, tail', heq, hcol, hh, hcrc⟩ := ih (.idle hs)
      refine ⟨s :: segs, tail', ?_, hcol, ?_, ?_⟩
      · rw [hcons, ← hb, List.flatMap_cons, List.append_assoc]
        exact congrArg _ heq
      · rw [handledFrames, List.map_append, hh]
        rcases hd : s.decoded with _ | f
        · rw [hd, Option.map_eq_none_iff] at hf
          rw [hf, List.filterMap_cons_none hd]
          rfl
        · rw [hd, Option.map_eq_some_iff] at hf
          obtain ⟨frame, hfr, hto⟩ := hf
          rw [hfr, List.filterMap_cons_some hd, ← hto]
          rfl
      · rw [hc] at hcrc
        show (protocolProcessBytes input _).crcErrorCount.toNat = _
        rw [hcrc]
        rcases hr : s.rejected with _ | _
        · rw [List.countP_cons_of_neg (by simp [hr])]
          rfl
        · rw [List.countP_cons_of_pos hr]
          show min 255 ((protocolIncrementSaturating p.crcErrorCount).toNat + _) = _
          rw [toNat_protocolIncrementSaturating]
          omega

/-- A stream is cut into segments and an unfinished rest in one way only. -/
theorem Cut.unique {segs' : List Segment} {tail' : List Byte} (h : Cut data segs tail)
    (h' : Cut data segs' tail') : segs = segs' ∧ tail = tail' :=
  segment_prefixCode.unique (h.eq.symm.trans h'.eq) h.unfinished h'.unfinished

/-- From outside a frame the effect on the parser tells how the stream
was cut. -/
theorem StreamEffect.cut {tail' : List Byte} (h : StreamEffect [] input p segs tail') :
    Cut (input.map Prod.fst) segs tail' := ⟨h.eq, h.collecting.unfinished⟩

end SentryCell
