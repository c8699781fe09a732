import SentryCell.Protocol.Stream
import Mathlib.Data.List.Nodup
/-!
# What corruption the frame check detects

A frame on the wire ends the register in a value that depends on its
length alone (`feed_frameBytes`), so two frames of one length never differ
by a few bits: the difference would be a sum of one to three distinct
powers of the step, which is not zero. The SOF, VERSION and LENGTH checks
need no case of their own, since an accepted frame has the right ones.
-/

namespace SentryCell

open ShiftRegister

variable {type sequence : Byte} {payload data : List Byte} {ps : List (ℕ × ℕ)}
variable {f g : Host.Frame} {p : Protocol} {input : List (Byte × Word32)}

/-- **The register after a whole frame** depends on its length only. -/
theorem feed_frameBytes :
    feed crc8Shift 8 0 (Host.frameBytes type sequence payload) =
      crc8Shift^[8 * (payload.length + 5)] (crc8Shift^[8] Host.sof) := by
  have hxor : ∀ b : Byte, 0 ^^^ b = b := fun b => BitVec.zero_xor
  have hstart : crc8Shift^[8] (0 ^^^ Host.sof) = 0 ^^^ crc8Shift^[8] Host.sof := by
    rw [hxor, hxor]
  have hzero := (feed_append_crc8 (Host.frameBody type sequence payload)
    (crc8Compute (Host.frameBody type sequence payload))).mpr rfl
  rw [Host.frameBytes, feed_cons, hstart, linear_crc8Shift.feed_xor, hzero, hxor]
  congr 2
  simp [Host.frameBody]

/-- **Two frames of one length differ in more than three bits.** -/
theorem flipBits_rejected (hdata : Host.decodeFrame data = .ok f) (hnodup : ps.Nodup)
    (hne : ps ≠ []) (hlen : ps.length ≤ 3) (hps : ∀ p ∈ ps, p.1 < data.length ∧ p.2 < 8) :
    Host.decodeFrame (flipBits data ps) ≠ .ok g := by
  intro hflip
  obtain ⟨t, q, pl, hpl, rfl, -⟩ := Host.decodeFrame_eq_ok_iff.mp hdata
  obtain ⟨t', q', pl', -, heq, -⟩ := Host.decodeFrame_eq_ok_iff.mp hflip
  have hlength : pl'.length = pl.length := by
    have := congrArg List.length heq
    rw [length_flipBits, Host.length_frameBytes, Host.length_frameBytes] at this
    omega
  have hfeed := linear_crc8Shift.feed_flips (n := 8) (c := 0)
    (fun i hi => iterate_crc8Shift_one_of_lt hi) hps
  rw [heq, feed_frameBytes, feed_frameBytes, hlength] at hfeed
  have hzero : pattern crc8Shift
      (ps.map (exponent 8 (Host.frameBytes t q pl).length)) = 0 := by
    have := congrArg (crc8Shift^[8 * (pl.length + 5)] (crc8Shift^[8] Host.sof) ^^^ ·) hfeed
    simp only [← BitVec.xor_assoc, BitVec.xor_self, BitVec.zero_xor] at this
    exact this.symm
  refine separates_crc8Shift.pattern_ne_zero ?_ ?_ ?_ ?_ hzero
  · refine List.Nodup.map_on (fun x hx y hy h => ?_) hnodup
    exact exponent_inj (hps x hx) (hps y hy) h
  · exact fun h => hne (List.map_eq_nil_iff.mp h)
  · rw [List.length_map]
    exact hlen
  · intro k hk
    obtain ⟨x, hx, rfl⟩ := List.mem_map.mp hk
    obtain ⟨hx1, hx2⟩ := hps x hx
    unfold Host.maxPayload at hpl
    unfold exponent
    rw [Host.length_frameBytes] at hx1 ⊢
    omega

/-- A flipped bit is in its own byte. -/
theorem getElem?_flipBits {j : ℕ} (h : ∀ p ∈ ps, p.1 ≠ j) : (flipBits data ps)[j]? = data[j]? := by
  induction ps generalizing data with
  | nil => rfl
  | cons x ps ih =>
    obtain ⟨hx, hrest⟩ := List.forall_mem_cons.mp h
    have htail : (flipBits (flipBit data x) ps)[j]? = (flipBit data x)[j]? := ih hrest
    show (flipBits (flipBit data x) ps)[j]? = data[j]?
    rw [htail, flipBit, List.getElem?_modify]
    simp [hx]

/-- Where the frame is cut is not corrupted: a complete candidate of the
same length. -/
theorem flipBits_complete (hdata : Host.decodeFrame data = .ok f)
    (hps : ∀ p ∈ ps, p.1 ≠ 0 ∧ p.1 ≠ 1 ∧ p.1 ≠ 4) :
    ∃ t q pl h crc, flipBits data ps = (Segment.complete t q pl h crc).bytes := by
  obtain ⟨t, q, pl, hpl, rfl, -⟩ := Host.decodeFrame_eq_ok_iff.mp hdata
  have hlen : (flipBits (Host.frameBytes t q pl) ps).length = 6 + pl.length := by
    rw [length_flipBits, Host.length_frameBytes]
  obtain ⟨b0, b1, b2, b3, b4, mid, last, hmid, heq⟩ := Host.eq_cons_of_length hlen
  have hkept {j : ℕ} (h : ∀ p ∈ ps, p.1 ≠ j) :
      (flipBits (Host.frameBytes t q pl) ps)[j]? = (Host.frameBytes t q pl)[j]? :=
    getElem?_flipBits h
  have h0 := hkept fun p hp => (hps p hp).1
  have h1 := hkept fun p hp => (hps p hp).2.1
  have h4 := hkept fun p hp => (hps p hp).2.2
  rw [heq] at h0 h1 h4
  obtain rfl : b0 = protocolSof := Option.some.inj h0
  obtain rfl : b1 = protocolVersion := Option.some.inj h1
  obtain rfl : b4 = BitVec.ofNat 8 pl.length := Option.some.inj h4
  refine ⟨b2, b3, mid, by rw [hmid]; exact hpl, last, ?_⟩
  rw [heq, Segment.bytes, hmid]

/-- Where no frame is handed over, no slot changes. -/
theorem slots_of_handledFrames_nil (h : handledFrames input p = []) :
    (protocolProcessBytes input p).slots = p.slots := by
  induction input generalizing p with
  | nil => rfl
  | cons x input ih =>
    obtain ⟨byte, nowMs⟩ := x
    obtain ⟨hf, hrest⟩ := List.append_eq_nil_iff.mp h
    have hstep := slots_protocolProcessByte byte nowMs p
    rw [Option.toList_eq_nil_iff.mp hf] at hstep
    exact (ih hrest).trans hstep

/-- **A candidate that is not accepted** is counted and changes nothing
else. -/
theorem rejected_candidate {s : Segment} (hp : p.parserState = .waitSof)
    (hinput : input.map Prod.fst = s.bytes) (hs : s.rejected = true) :
    (protocolProcessBytes input p).crcErrorCount.toNat = min 255 (p.crcErrorCount.toNat + 1) ∧
      (protocolProcessBytes input p).slots = p.slots ∧
      (protocolProcessBytes input p).parserState = .waitSof := by
  obtain ⟨segs, tail, h⟩ := (Collecting.idle hp).run input
  have hcut : Cut (input.map Prod.fst) [s] [] := ⟨by simp [hinput], .nil⟩
  obtain ⟨rfl, rfl⟩ := hcut.unique h.cut
  have hnone : s.decoded = none := by
    rcases s with _ | _ | _ | _
    · cases hs
    · cases hs
    · cases hs
    · exact Option.isNone_iff_eq_none.mp hs
  refine ⟨?_, ?_, ?_⟩
  · rw [h.crcErrors, List.countP_singleton, hs]
    rfl
  · refine slots_of_handledFrames_nil ?_
    have := h.handled
    rw [List.filterMap_cons_none hnone] at this
    exact List.map_eq_nil_iff.mp this
  · obtain ⟨hw⟩ := h.collecting
    exact hw

/-- **Corruption of up to three bits is always detected.** Flipping one to
three bits of an encoded frame gives bytes that `decode_frame` rejects; if
none of them is in SOF, VERSION or LENGTH, the parser, fed those bytes from
`WAIT_SOF`, counts one CRC error, changes no slot and ends in `WAIT_SOF`. -/
theorem corruption_detected (f : Host.Frame) (data : List Byte)
    (hdata : Host.encodeFrame f = .ok data) (ps : List (ℕ × ℕ)) (hnodup : ps.Nodup)
    (hne : ps ≠ []) (hlen : ps.length ≤ 3) (hps : ∀ p ∈ ps, p.1 < data.length ∧ p.2 < 8) :
    (∀ g, Host.decodeFrame (flipBits data ps) ≠ .ok g) ∧
    ((∀ p ∈ ps, p.1 ≠ 0 ∧ p.1 ≠ 1 ∧ p.1 ≠ 4) →
      ∀ (p : Protocol) (input : List (Byte × Word32)), p.parserState = .waitSof →
        input.map Prod.fst = flipBits data ps →
        (protocolProcessBytes input p).crcErrorCount.toNat = min 255 (p.crcErrorCount.toNat + 1) ∧
          (protocolProcessBytes input p).slots = p.slots ∧
          (protocolProcessBytes input p).parserState = .waitSof) := by
  have hf : f.Encodable := by
    by_contra hbad
    obtain ⟨message, he⟩ := Host.encodeFrame_error hbad
    rw [he] at hdata
    cases hdata
  have hdec : Host.decodeFrame data = .ok f := by
    obtain ⟨data', henc, hdec⟩ := Host.decodeFrame_encodeFrame hf
    rw [hdata] at henc
    cases henc
    exact hdec
  have hrej : ∀ g, Host.decodeFrame (flipBits data ps) ≠ .ok g := fun g =>
    flipBits_rejected hdec hnodup hne hlen hps
  refine ⟨hrej, fun hhead p input hp hinput => ?_⟩
  obtain ⟨t, q, pl, h, crc, hbytes⟩ := flipBits_complete hdec hhead
  refine rejected_candidate hp (hinput.trans hbytes) ?_
  show (Host.decodeFrame (Segment.complete t q pl h crc).bytes).toOption.isNone = true
  rw [← hbytes]
  rcases hd : Host.decodeFrame (flipBits data ps) with e | g
  · rfl
  · exact absurd hd (hrej g)

/-- A PING with a bit of its type, one of its sequence and one of its check
byte inverted: `decode_frame` rejects it, and the parser counts it. -/
theorem corruption_detected_ping :
    Host.encodeFrame ⟨1, 0x10, []⟩ = .ok [0xA5#8, 0x01#8, 0x01#8, 0x10#8, 0x00#8, 0x2A#8] ∧
      flipBits [0xA5#8, 0x01#8, 0x01#8, 0x10#8, 0x00#8, 0x2A#8] [(2, 3), (3, 6), (5, 0)] =
        [0xA5#8, 0x01#8, 0x09#8, 0x50#8, 0x00#8, 0x2B#8] ∧
      (∀ g, Host.decodeFrame [0xA5#8, 0x01#8, 0x09#8, 0x50#8, 0x00#8, 0x2B#8] ≠ .ok g) ∧
      (protocolProcessBytes ([0xA5#8, 0x01#8, 0x09#8, 0x50#8, 0x00#8, 0x2B#8].map
        fun b => (b, 0)) Protocol.zeroed).crcErrorCount.toNat = min 255 (0 + 1) := by
  have hdata : Host.encodeFrame ⟨1, 0x10, []⟩ =
      .ok [0xA5#8, 0x01#8, 0x01#8, 0x10#8, 0x00#8, 0x2A#8] := by
    decide +kernel
  have hflipped : flipBits [0xA5#8, 0x01#8, 0x01#8, 0x10#8, 0x00#8, 0x2A#8]
      [(2, 3), (3, 6), (5, 0)] = [0xA5#8, 0x01#8, 0x09#8, 0x50#8, 0x00#8, 0x2B#8] := by
    decide
  obtain ⟨hrejected, hcounted⟩ := corruption_detected ⟨1, 0x10, []⟩ _ hdata
    [(2, 3), (3, 6), (5, 0)] (by decide) (by decide) (by decide) (by decide)
  rw [hflipped] at hrejected hcounted
  exact ⟨hdata, hflipped, hrejected,
    (hcounted (by decide) Protocol.zeroed _ rfl (by decide)).1⟩

end SentryCell
