import SentryCell.Firmware.Profilers
import SentryCell.Lib.Machine
import SentryCell.Lib.Watermark
/-!
# The SRAM watermark

`memory_profiler.c` on the data memory it paints and scans. The region lies
between the heap and a guard below the stack pointer; other code writes to
it between the calls, and what is reported is the least number of bytes any
call has found untouched.
-/

namespace SentryCell

/-- The data memory, by address. -/
abbrev Sram := Word16 → Byte

/-- The addresses that the loop of `memory_profiler_init` stores to, in order. -/
def memoryProfilerStores (paintStart stackPointer : Word16) : List Word16 :=
  (List.range (memoryProfilerInit paintStart stackPointer).paintedBytes.toNat).map fun offset =>
    paintStart + BitVec.ofNat 16 offset

/-- **The loop of `memory_profiler_get_min_free_bytes`**, for at most `fuel`
tests of its condition: the value of `free_bytes` it ends with, and the
addresses it reads. -/
def memoryProfilerLoop (sram : Sram) (paintStart paintedBytes : Word16) :
    ℕ → Word16 → Option (Word16 × List Word16)
  | 0, _ => none
  | fuel + 1, freeBytes =>
    if freeBytes < paintedBytes then
      if sram (paintStart + freeBytes) = memoryCanary then
        (memoryProfilerLoop sram paintStart paintedBytes fuel (freeBytes + 1)).map fun result =>
          (result.1, (paintStart + freeBytes) :: result.2)
      else some (freeBytes, [paintStart + freeBytes])
    else some (freeBytes, [])

/-- The data memory, with the static variables of `memory_profiler.c` apart:
`__heap_start` is the end of all of these. -/
structure SramProfiler where
  sram : Sram
  paintStart : Word16
  memory : MemoryProfiler

namespace SramProfiler

/-- `memory_profiler_init`. -/
def init (paintStart stackPointer : Word16) (sram : Sram) : SramProfiler where
  sram := (memoryProfilerStores paintStart stackPointer).foldl
    (fun sram address => Function.update sram address memoryCanary) sram
  paintStart := paintStart
  memory := memoryProfilerInit paintStart stackPointer

/-- `memory_profiler_get_min_free_bytes`: what it returns, what it reads, and
the variables it leaves. There is no result if the loop does not end before
its counter comes round. -/
def getMinFreeBytes (s : SramProfiler) : Option (Word16 × List Word16 × SramProfiler) :=
  (memoryProfilerLoop s.sram s.paintStart s.memory.paintedBytes (2 ^ 16) 0).map fun result =>
    let memory :=
      if result.1 < s.memory.minFreeBytes then { s.memory with minFreeBytes := result.1 }
      else s.memory
    (memory.minFreeBytes, result.2, { s with memory := memory })

end SramProfiler

/-- What happens to the region: a byte of it is written, or the watermark is
asked for. -/
inductive MemoryEvent where
  | write (offset : Word16) (value : Byte)
  | getMinFreeBytes
  deriving DecidableEq, Repr

/-- The offset that is written, if one is. -/
def MemoryEvent.offset? : MemoryEvent → Option Word16
  | write offset _ => some offset
  | getMinFreeBytes => none

/-- **One event.** A write outside the region is not one. -/
def SramProfiler.step (s : SramProfiler) : MemoryEvent → Option SramProfiler
  | .write offset value =>
    if offset < s.memory.paintedBytes then
      some { s with sram := Function.update s.sram (s.paintStart + offset) value }
    else none
  | .getMinFreeBytes => s.getMinFreeBytes.map fun result => result.2.2

/-- The region as the bytes from `__heap_start` on. -/
def SramProfiler.region (s : SramProfiler) (offset : ℕ) : Byte :=
  s.sram (s.paintStart + BitVec.ofNat 16 offset)

/-- The offset of the first byte of the region that is not the canary, the
size of the region if there is none. -/
def SramProfiler.firstChanged (s : SramProfiler) : ℕ :=
  Watermark.firstChanged memoryCanary s.region s.memory.paintedBytes.toNat

/-- The lowest offset that the events write, `low` if they write none below. -/
def lowestWritten (low : ℕ) (events : List MemoryEvent) : ℕ :=
  (events.filterMap MemoryEvent.offset?).foldl (fun low offset => min low offset.toNat) low

/-! ## What is painted -/

variable {paintStart stackPointer : Word16} {sram : Sram}

/-- The region ends a guard below the stack pointer, or is empty. -/
theorem memoryProfilerInit_room (paintStart stackPointer : Word16) :
    (memoryProfilerInit paintStart stackPointer).paintedBytes.toNat = 0 ∨
      paintStart.toNat + (memoryProfilerInit paintStart stackPointer).paintedBytes.toNat + 32 =
        stackPointer.toNat := by
  unfold memoryProfilerInit
  split
  · exact Or.inl rfl
  · rename_i hin
    dsimp only
    split
    · exact Or.inl rfl
    · rename_i hmore
      right
      simp only [memoryStackGuardBytes, BitVec.le_def, BitVec.lt_def, not_or] at hin hmore ⊢
      bv_omega

/-- Right after painting all the painted bytes are free. -/
theorem memoryProfilerInit_minFreeBytes :
    (memoryProfilerInit paintStart stackPointer).minFreeBytes =
      (memoryProfilerInit paintStart stackPointer).paintedBytes := by
  unfold memoryProfilerInit
  split
  · rfl
  · dsimp only
    split <;> rfl

/-- An address of the region is computed without a carry. -/
theorem toNat_address {n i : ℕ} (hroom : paintStart.toNat + n ≤ 2 ^ 16) (hi : i < n) :
    (paintStart + BitVec.ofNat 16 i).toNat = paintStart.toNat + i := by
  rw [BitVec.toNat_add, BitVec.toNat_ofNat, Nat.mod_eq_of_lt (by omega : i < 2 ^ 16)]
  exact Nat.mod_eq_of_lt (by omega)

/-- The region does not run past the end of the address space. -/
theorem memoryProfilerInit_room_le :
    paintStart.toNat + (memoryProfilerInit paintStart stackPointer).paintedBytes.toNat ≤
      2 ^ 16 := by
  have hstart := paintStart.isLt
  have hpointer := stackPointer.isLt
  rcases memoryProfilerInit_room paintStart stackPointer
    with hempty | hroom <;> omega

/-- **Nothing is painted at or above the guard.** -/
theorem toNat_of_mem_stores {address : Word16}
    (h : address ∈ memoryProfilerStores paintStart stackPointer) :
    address.toNat + 32 < stackPointer.toNat := by
  obtain ⟨offset, hoffset, rfl⟩ := List.mem_map.mp h
  rw [List.mem_range] at hoffset
  rw [toNat_address memoryProfilerInit_room_le hoffset]
  rcases memoryProfilerInit_room paintStart stackPointer
    with hempty | hroom <;> omega

/-- With no more than the guard there, nothing is. -/
theorem stores_eq_nil (h : stackPointer.toNat < paintStart.toNat + 33) :
    memoryProfilerStores paintStart stackPointer = [] := by
  have hempty : (memoryProfilerInit paintStart stackPointer).paintedBytes.toNat = 0 := by
    rcases memoryProfilerInit_room paintStart stackPointer
      with hempty | hroom <;> omega
  rw [memoryProfilerStores, hempty]
  rfl

/-- What was stored to stays stored, whichever stores follow. -/
theorem foldl_update_of_mem {stores : List Word16} {value : Byte} {address : Word16}
    (h : address ∈ stores ∨ sram address = value) :
    stores.foldl (fun sram address => Function.update sram address value) sram address = value := by
  induction stores generalizing sram with
  | nil => simpa using h
  | cons store stores ih =>
    rw [List.foldl_cons]
    apply ih
    by_cases hat : address = store
    · right
      rw [hat, Function.update_self]
    · rw [Function.update_of_ne hat]
      simpa [hat] using h

namespace SramProfiler

variable {s s' : SramProfiler}

/-- **After `init` the region holds the canary throughout.** -/
theorem firstChanged_init :
    (init paintStart stackPointer sram).firstChanged =
      (memoryProfilerInit paintStart stackPointer).paintedBytes.toNat := by
  refine Watermark.firstChanged_filled fun offset hoffset => foldl_update_of_mem (Or.inl ?_)
  exact List.mem_map.mpr ⟨offset, List.mem_range.mpr hoffset, rfl⟩

end SramProfiler

/-! ## The scan -/

/-- The scan stops at the first byte that is not the canary. -/
theorem memoryProfilerScan_spec (bytes : ℕ → Byte) (left free : ℕ) :
    free ≤ memoryProfilerScan bytes left free ∧
      memoryProfilerScan bytes left free ≤ free + left ∧
      (∀ j, free ≤ j → j < memoryProfilerScan bytes left free → bytes j = memoryCanary) ∧
      (memoryProfilerScan bytes left free < free + left →
        bytes (memoryProfilerScan bytes left free) ≠ memoryCanary) := by
  induction left generalizing free with
  | zero =>
    refine ⟨Nat.le_refl _, Nat.le_refl _, fun j hj hlt => ?_, fun hlt => ?_⟩
    · exact absurd hlt (Nat.not_lt.mpr hj)
    · exact absurd hlt (Nat.lt_irrefl _)
  | succ left ih =>
    rw [memoryProfilerScan]
    split
    · rename_i hcanary
      obtain ⟨hge, hle, hbefore, hat⟩ := ih (free + 1)
      refine ⟨by omega, by omega, fun j hj hlt => ?_, fun hlt => hat (by omega)⟩
      rcases Nat.eq_or_lt_of_le hj with rfl | hgt
      · exact hcanary
      · exact hbefore j hgt hlt
    · rename_i hchanged
      refine ⟨Nat.le_refl _, by omega, fun j hj hlt => ?_, fun _ => hchanged⟩
      exact absurd hlt (Nat.not_lt.mpr hj)

/-- The scan finds the first byte that is no canary any more. -/
theorem memoryProfilerScan_eq (bytes : ℕ → Byte) (n : ℕ) :
    memoryProfilerScan bytes n 0 = Watermark.firstChanged memoryCanary bytes n := by
  obtain ⟨-, hle, hbefore, hat⟩ := memoryProfilerScan_spec bytes n 0
  rw [Nat.zero_add] at hle hat
  exact (Watermark.firstChanged_eq hle (fun j hj => hbefore j (Nat.zero_le j) hj) hat).symm

/-- **The loop ends**, with what the scan finds, and has read the region
only. -/
theorem memoryProfilerLoop_eq (sram : Sram) (paintStart paintedBytes : Word16) (fuel : ℕ) {free : ℕ}
    (hfree : free ≤ paintedBytes.toNat) (hfuel : paintedBytes.toNat - free < fuel) :
    ∃ reads, memoryProfilerLoop sram paintStart paintedBytes fuel (BitVec.ofNat 16 free) =
        some (BitVec.ofNat 16 (memoryProfilerScan (fun i => sram (paintStart + BitVec.ofNat 16 i))
          (paintedBytes.toNat - free) free), reads) ∧
      ∀ address ∈ reads, ∃ i < paintedBytes.toNat, address = paintStart + BitVec.ofNat 16 i := by
  have hpainted := paintedBytes.isLt
  induction fuel generalizing free with
  | zero => omega
  | succ fuel ih =>
    have hword : (BitVec.ofNat 16 free).toNat = free := by
      rw [BitVec.toNat_ofNat, Nat.mod_eq_of_lt (by omega)]
    rw [memoryProfilerLoop]
    by_cases hlt : free < paintedBytes.toNat
    · have hleft : paintedBytes.toNat - free = (paintedBytes.toNat - (free + 1)) + 1 := by omega
      rw [if_pos (by rw [BitVec.lt_def, hword]; exact hlt), hleft, memoryProfilerScan]
      split
      · obtain ⟨reads, hloop, hreads⟩ := ih (show free + 1 ≤ _ by omega) (by omega)
        refine ⟨(paintStart + BitVec.ofNat 16 free) :: reads, ?_, ?_⟩
        · have hnext : BitVec.ofNat 16 free + 1 = BitVec.ofNat 16 (free + 1) :=
            (BitVec.ofNat_add free 1).symm
          rw [hnext, hloop]
          rfl
        · intro address haddress
          rcases List.mem_cons.mp haddress with rfl | hmem
          · exact ⟨free, hlt, rfl⟩
          · exact hreads address hmem
      · refine ⟨[paintStart + BitVec.ofNat 16 free], rfl, ?_⟩
        intro address haddress
        exact ⟨free, hlt, List.mem_singleton.mp haddress⟩
    · have hleft : paintedBytes.toNat - free = 0 := by omega
      rw [if_neg (by rw [BitVec.lt_def, hword]; exact hlt), hleft, memoryProfilerScan]
      exact ⟨[], rfl, fun _ hmem => absurd hmem List.not_mem_nil⟩

/-! ## Events -/

namespace SramProfiler

/-- **What every event keeps**: the region is the one that was painted, and
the watermark is not above its size. -/
structure Sound (paintStart stackPointer : Word16) (s : SramProfiler) : Prop where
  start : s.paintStart = paintStart
  painted : s.memory.paintedBytes = (memoryProfilerInit paintStart stackPointer).paintedBytes
  watermark : s.memory.minFreeBytes ≤ s.memory.paintedBytes

theorem sound_init : (init paintStart stackPointer sram).Sound paintStart stackPointer where
  start := rfl
  painted := rfl
  watermark := by
    have hmin : (init paintStart stackPointer sram).memory.minFreeBytes =
        (init paintStart stackPointer sram).memory.paintedBytes := memoryProfilerInit_minFreeBytes
    rw [hmin]
    exact Nat.le_refl _

variable {s s' : SramProfiler}

/-- The scan does not go beyond what was painted. -/
theorem firstChanged_le : s.firstChanged ≤ s.memory.paintedBytes.toNat :=
  Watermark.firstChanged_le

/-- **A call returns**, and what it returns and leaves is what
`memoryProfilerGetMinFreeBytes` says on the bytes of the region. It has
read the region only. -/
theorem getMinFreeBytes_eq (s : SramProfiler) :
    ∃ reads, s.getMinFreeBytes =
        some ((memoryProfilerGetMinFreeBytes s.region s.memory).minFreeBytes, reads,
          { s with memory := memoryProfilerGetMinFreeBytes s.region s.memory }) ∧
      ∀ address ∈ reads, ∃ i < s.memory.paintedBytes.toNat,
        address = s.paintStart + BitVec.ofNat 16 i := by
  have hpainted := s.memory.paintedBytes.isLt
  obtain ⟨reads, hloop, hreads⟩ := memoryProfilerLoop_eq s.sram s.paintStart
    s.memory.paintedBytes (2 ^ 16) (Nat.zero_le _) (by omega)
  refine ⟨reads, ?_, hreads⟩
  have hzero : (0 : Word16) = BitVec.ofNat 16 0 := rfl
  rw [getMinFreeBytes, hzero, hloop]
  rfl

/-- **The watermark a call leaves**: the lower of the one before and the
first byte that is not the canary. -/
theorem toNat_getMinFreeBytes (s : SramProfiler) :
    (memoryProfilerGetMinFreeBytes s.region s.memory).minFreeBytes.toNat =
      min s.memory.minFreeBytes.toNat s.firstChanged := by
  have hpainted := s.memory.paintedBytes.isLt
  have hle : s.firstChanged ≤ s.memory.paintedBytes.toNat := firstChanged_le
  have hword : (BitVec.ofNat 16 s.firstChanged).toNat = s.firstChanged := by
    rw [BitVec.toNat_ofNat, Nat.mod_eq_of_lt (by omega)]
  have hscan : memoryProfilerScan s.region s.memory.paintedBytes.toNat 0 = s.firstChanged :=
    memoryProfilerScan_eq _ _
  unfold memoryProfilerGetMinFreeBytes
  rw [hscan]
  dsimp only
  split
  · rename_i hlt
    rw [BitVec.lt_def, hword] at hlt
    change (BitVec.ofNat 16 s.firstChanged).toNat = _
    omega
  · rename_i hge
    rw [BitVec.lt_def, hword] at hge
    omega

theorem paintedBytes_getMinFreeBytes (bytes : ℕ → Byte) (m : MemoryProfiler) :
    (memoryProfilerGetMinFreeBytes bytes m).paintedBytes = m.paintedBytes := by
  unfold memoryProfilerGetMinFreeBytes
  dsimp only
  split <;> rfl

/-- **One event**, and what it does: a write changes one byte of the region,
a call the watermark. -/
theorem step_cases {event : MemoryEvent} (h : s.step event = some s') :
    (∃ offset value, event = .write offset value ∧ offset < s.memory.paintedBytes ∧
      s' = { s with sram := Function.update s.sram (s.paintStart + offset) value }) ∨
    (event = .getMinFreeBytes ∧
      s' = { s with memory := memoryProfilerGetMinFreeBytes s.region s.memory }) := by
  cases event with
  | write offset value =>
    simp only [step, Option.ite_none_right_eq_some, Option.some.injEq] at h
    exact Or.inl ⟨offset, value, rfl, h.1, h.2.symm⟩
  | getMinFreeBytes =>
    obtain ⟨reads, heq, -⟩ := getMinFreeBytes_eq s
    simp only [step, heq, Option.map_some, Option.some.injEq] at h
    exact Or.inr ⟨rfl, h.symm⟩

/-- The watermark never rises, whatever the event. -/
theorem step_watermark {event : MemoryEvent} (h : s.step event = some s') :
    s'.memory.minFreeBytes ≤ s.memory.minFreeBytes := by
  obtain ⟨offset, value, -, -, rfl⟩ | ⟨-, rfl⟩ := step_cases h
  · exact Nat.le_refl _
  · rw [BitVec.le_def, toNat_getMinFreeBytes]
    exact Nat.min_le_left _ _

/-- **Every event keeps the watermark sound**: a write somewhere in the
region, or a scan of it. -/
theorem Sound.step {event : MemoryEvent} (hs : s.Sound paintStart stackPointer)
    (h : s.step event = some s') : s'.Sound paintStart stackPointer := by
  have hwatermark := step_watermark h
  obtain ⟨offset, value, -, -, rfl⟩ | ⟨-, rfl⟩ := step_cases h
  · exact ⟨hs.start, hs.painted, hs.watermark⟩
  · have hpainted := paintedBytes_getMinFreeBytes s.region s.memory
    refine ⟨hs.start, hpainted.trans hs.painted, ?_⟩
    rw [hpainted]
    exact BitVec.le_trans hwatermark hs.watermark

/-- **No underflow**: what is reported as used and the watermark add up. -/
theorem Sound.used (hs : s.Sound paintStart stackPointer) :
    (memoryProfilerGetUsedPaintedBytes s.memory).toNat + s.memory.minFreeBytes.toNat =
      s.memory.paintedBytes.toNat := by
  have hle := hs.watermark
  rw [BitVec.le_def] at hle
  rw [memoryProfilerGetUsedPaintedBytes, BitVec.toNat_sub_of_le hs.watermark]
  omega

/-- A write that is not the canary brings the first changed byte down to
where it writes. -/
theorem firstChanged_write {offset : Word16} {value : Byte}
    (hoffset : offset < s.memory.paintedBytes) (hvalue : value ≠ memoryCanary) :
    ({ s with sram := Function.update s.sram (s.paintStart + offset) value } :
        SramProfiler).firstChanged = min s.firstChanged offset.toNat := by
  rw [firstChanged, firstChanged, ← Watermark.firstChanged_update hoffset hvalue]
  refine Watermark.firstChanged_congr fun j hj => ?_
  -- two offsets of the region are two addresses
  have hpainted := s.memory.paintedBytes.isLt
  have hword : s.paintStart + BitVec.ofNat 16 j = s.paintStart + offset ↔ j = offset.toNat := by
    rw [BitVec.add_right_inj]
    constructor
    · intro heq
      rw [← heq, BitVec.toNat_ofNat, Nat.mod_eq_of_lt (by omega)]
    · rintro rfl
      exact BitVec.ofNat_toNat 16 offset
  simp only [region, Function.update_apply, hword]

/-- **Writes that are not the canary**: the first changed byte is the lowest
offset written, and the watermark is not below it. -/
theorem run_lowest {events : List MemoryEvent} {low : ℕ}
    (hvalues : ∀ offset value, MemoryEvent.write offset value ∈ events → value ≠ memoryCanary)
    (hchanged : s.firstChanged = low) (hwatermark : low ≤ s.memory.minFreeBytes.toNat)
    (h : Runs.run SramProfiler.step s events = some s') :
    s'.firstChanged = lowestWritten low events ∧
      lowestWritten low events ≤ s'.memory.minFreeBytes.toNat := by
  induction events generalizing s low with
  | nil =>
    obtain rfl : s = s' := by simpa using h
    exact ⟨hchanged, hwatermark⟩
  | cons event events ih =>
    obtain ⟨s₁, hstep, hrun⟩ := Runs.run_cons_eq_some.mp h
    have hrest : ∀ offset value, MemoryEvent.write offset value ∈ events → value ≠ memoryCanary :=
      fun offset value hmem => hvalues offset value (List.mem_cons_of_mem _ hmem)
    obtain ⟨offset, value, rfl, hoffset, rfl⟩ | ⟨rfl, rfl⟩ := step_cases hstep
    · have hvalue := hvalues offset value List.mem_cons_self
      have hwrite := firstChanged_write hoffset hvalue
      rw [hchanged] at hwrite
      exact ih hrest hwrite (Nat.le_trans (Nat.min_le_left _ _) hwatermark) hrun
    · refine ih hrest ?_ ?_ hrun
      · rw [← hchanged]
        unfold firstChanged
        rw [paintedBytes_getMinFreeBytes]
        rfl
      · rw [toNat_getMinFreeBytes, hchanged]
        omega

/-- Events that write the region only all happen. -/
theorem run_isSome {events : List MemoryEvent} (hs : s.Sound paintStart stackPointer)
    (hwrites : ∀ offset value, MemoryEvent.write offset value ∈ events →
      offset < (memoryProfilerInit paintStart stackPointer).paintedBytes) :
    ∃ s', Runs.run SramProfiler.step s events = some s' := by
  induction events generalizing s with
  | nil => exact ⟨s, rfl⟩
  | cons event events ih =>
    have hpossible : ∃ s₁, s.step event = some s₁ := by
      cases event with
      | write offset value =>
        have hoffset := hwrites offset value List.mem_cons_self
        rw [← hs.painted] at hoffset
        exact ⟨_, if_pos hoffset⟩
      | getMinFreeBytes =>
        obtain ⟨reads, heq, -⟩ := getMinFreeBytes_eq s
        exact ⟨_, by rw [SramProfiler.step, heq]; rfl⟩
    obtain ⟨s₁, hstep⟩ := hpossible
    obtain ⟨s', hrun⟩ := ih (hs.step hstep) fun offset value hmem =>
      hwrites offset value (List.mem_cons_of_mem _ hmem)
    exact ⟨s', Runs.run_cons_eq_some.mpr ⟨s₁, hstep, hrun⟩⟩

end SramProfiler

/-- **The SRAM watermark is sound and consistent.** `init` stores nothing at
or above the guard below the stack pointer, and nothing at all when fewer
than 33 bytes are there. After every sequence of writes to the region and
calls: what is reported as used and the watermark add up to what was
painted; no event raises the watermark; and a call returns, has read the
region only, and answers the lower of the watermark and the first byte that
is not the canary, which is the lowest offset written where no canary was
written. -/
theorem watermark_sound (paintStart stackPointer : Word16) (sram : Sram)
    (events : List MemoryEvent)
    (hwrites : ∀ offset value, MemoryEvent.write offset value ∈ events →
      offset < (memoryProfilerInit paintStart stackPointer).paintedBytes) :
    (∀ address ∈ memoryProfilerStores paintStart stackPointer,
      address.toNat + 32 < stackPointer.toNat) ∧
    (stackPointer.toNat < paintStart.toNat + 33 →
      memoryProfilerStores paintStart stackPointer = []) ∧
    ∃ s, Runs.run SramProfiler.step (SramProfiler.init paintStart stackPointer sram) events =
        some s ∧
      (memoryProfilerGetUsedPaintedBytes s.memory).toNat + s.memory.minFreeBytes.toNat =
        (memoryProfilerInit paintStart stackPointer).paintedBytes.toNat ∧
      (∀ event s', s.step event = some s' → s'.memory.minFreeBytes ≤ s.memory.minFreeBytes) ∧
      ∃ value reads s', s.getMinFreeBytes = some (value, reads, s') ∧
        s.step .getMinFreeBytes = some s' ∧ s'.memory.minFreeBytes = value ∧
        (∀ address ∈ reads, paintStart.toNat ≤ address.toNat ∧ address.toNat <
          paintStart.toNat + (memoryProfilerInit paintStart stackPointer).paintedBytes.toNat) ∧
        value.toNat = min s.memory.minFreeBytes.toNat s.firstChanged ∧
        ((∀ offset value, MemoryEvent.write offset value ∈ events → value ≠ memoryCanary) →
          value.toNat = lowestWritten
            (memoryProfilerInit paintStart stackPointer).paintedBytes.toNat events) := by
  refine ⟨fun _ => toNat_of_mem_stores, stores_eq_nil, ?_⟩
  have hinit : (SramProfiler.init paintStart stackPointer sram).Sound paintStart stackPointer :=
    SramProfiler.sound_init
  obtain ⟨s, hrun⟩ := SramProfiler.run_isSome hinit hwrites
  have hs := Runs.kept (fun _ _ _ hs h => SramProfiler.Sound.step hs h) hinit hrun
  obtain ⟨reads, hcall, hreads⟩ := SramProfiler.getMinFreeBytes_eq s
  have hused := hs.used
  rw [hs.painted] at hused hreads
  rw [hs.start] at hreads
  refine ⟨s, hrun, hused, fun _ _ => SramProfiler.step_watermark, _, reads, _, hcall, ?_, rfl, ?_,
    SramProfiler.toNat_getMinFreeBytes s, ?_⟩
  · rw [SramProfiler.step, hcall]
    rfl
  · intro address hmem
    obtain ⟨i, hi, rfl⟩ := hreads address hmem
    rw [toNat_address memoryProfilerInit_room_le hi]
    omega
  · intro hvalues
    have hwatermark : (SramProfiler.init paintStart stackPointer sram).memory.minFreeBytes =
        (memoryProfilerInit paintStart stackPointer).paintedBytes := memoryProfilerInit_minFreeBytes
    obtain ⟨hchanged, hle⟩ := SramProfiler.run_lowest hvalues SramProfiler.firstChanged_init
      (by rw [hwatermark]) hrun
    rw [SramProfiler.toNat_getMinFreeBytes, hchanged]
    exact Nat.min_eq_right hle

/-- The stack comes down to offset 5 of a region of 8 bytes, after a call
that found it whole. -/
theorem watermark_sound_stack :
    ∃ s, Runs.run SramProfiler.step (SramProfiler.init 0x0400#16 0x0428#16 fun _ => 0)
        [.getMinFreeBytes, .write 7 0x12, .write 5 0x34] = some s ∧
      ∃ value reads s', s.getMinFreeBytes = some (value, reads, s') ∧ value.toNat = 5 := by
  obtain ⟨-, -, s, hrun, -, -, value, reads, s', hcall, -, -, -, -, hlowest⟩ :=
    watermark_sound 0x0400#16 0x0428#16 (fun _ => 0)
      [.getMinFreeBytes, .write 7 0x12, .write 5 0x34] (by
        intro offset value hmem
        simp only [List.mem_cons, MemoryEvent.write.injEq, reduceCtorEq, false_or, List.not_mem_nil,
          or_false] at hmem
        rcases hmem with ⟨rfl, rfl⟩ | ⟨rfl, rfl⟩ <;> decide)
  refine ⟨s, hrun, value, reads, s', hcall, hlowest ?_⟩
  intro offset value hmem
  simp only [List.mem_cons, MemoryEvent.write.injEq, reduceCtorEq, false_or, List.not_mem_nil,
    or_false] at hmem
  rcases hmem with ⟨rfl, rfl⟩ | ⟨rfl, rfl⟩ <;> decide

end SentryCell
