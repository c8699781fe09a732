import SentryCell.Firmware.Board
/-!
# Reading the counter among the interrupts

`firmware/hal/timing.c`. Timer1 has one byte, `TEMP`, through which every
16-bit access goes: reading the low byte of `TCNT1` or `ICR1` puts the high
byte there, and the high byte of `OCR1A` waits there for the low one.
`timing_counter_ticks` is two accesses, and either handler may run between
them and leave another byte in `TEMP`. `counter_read_exact` says exactly
when the word put together is one that the counter held.
-/

namespace SentryCell

open Foreground Word Machine

/-! ## The timer -/

/-- **Timer1**, as the tasks and the two handlers share it. `ticks` is the
time since reset, of which `TCNT1` keeps sixteen bits. -/
structure Timer1 where
  ticks : ℕ
  temp : Byte
  icr1 : Word16
  control : Control

/-- `TCNT1`. -/
def Timer1.tcnt1 (s : Timer1) : Word16 := BitVec.ofNat 16 s.ticks

def highByte (w : Word16) : Byte := BitVec.ofNat 8 (w.toNat / 256)

def lowByte (w : Word16) : Byte := BitVec.ofNat 8 w.toNat

/-- `timing_counter_ticks`, byte by byte. -/
def timingCounterTicks : Prog Timer1 Word16 := do
  let low ← .access (fun s : Timer1 =>
    (lowByte s.tcnt1, { s with temp := highByte s.tcnt1 })) .ret
  let high ← Prog.read Timer1.temp
  pure (BitVec.ofNat 16 (high.toNat * 256 + low.toNat))

/-- What happens to the timer meanwhile: a tick, an edge on `ICP1`, and the
two handlers. -/
inductive Timer1Event where
  | tick
  | edge
  | capt
  | compa
  deriving DecidableEq, Repr

/-- **The word a handler moves through `TEMP`**: the capture it reads, or
the compare value it writes. -/
def Timer1Event.moved (s : Timer1) : Timer1Event → Option Word16
  | .capt => some s.icr1
  | .compa => some (timer1CompaVect s.control).servo.ocr1a
  | .tick => none
  | .edge => none

/-- An event, where a handler is enabled. -/
def Timer1Event.apply (s : Timer1) : Timer1Event → Option Timer1
  | .tick => some { s with ticks := s.ticks + 1 }
  | .edge => some { s with icr1 := s.tcnt1 }
  | .capt =>
    if isSet s.control.timsk1 icie1 then
      some { s with temp := highByte s.icr1, control := timer1CaptVect s.icr1 s.control }
    else none
  | .compa =>
    if isSet s.control.timsk1 ocie1a then
      some { s with
        temp := highByte (timer1CompaVect s.control).servo.ocr1a
        control := timer1CompaVect s.control }
    else none

/-- Calls of `timing_counter_ticks` on the timer. -/
def timer1 : Machine Timer1 Unit Word16 Timer1Event where
  task _ := timingCounterTicks
  ready _ _ := true
  env e s := e.apply s

abbrev Timer1Config := Config Timer1 Unit Word16

/-- The last word that is moved through `TEMP` by the events of a list. -/
def Timer1.lastMoved : Timer1 → List Timer1Event → Option Word16
  | _, [] => none
  | s, e :: es =>
    match e.apply s with
    | none => none
    | some s' => (s'.lastMoved es).or (e.moved s)

section

variable {s s' : Timer1} {e : Timer1Event} {es : List Timer1Event} {c c' : Timer1Config}

/-- **What one event does** to the time and to `TEMP`. -/
theorem apply_spec (h : e.apply s = some s') :
    s.ticks ≤ s'.ticks ∧ s'.temp = ((e.moved s).map highByte).getD s.temp := by
  rcases e with _ | _ | _ | _ <;>
    simp only [Timer1Event.apply, Option.ite_none_right_eq_some, Option.some.injEq] at h
  · subst h
    exact ⟨Nat.le_succ _, rfl⟩
  · subst h
    exact ⟨Nat.le_refl _, rfl⟩
  · obtain ⟨-, rfl⟩ := h
    exact ⟨Nat.le_refl _, rfl⟩
  · obtain ⟨-, rfl⟩ := h
    exact ⟨Nat.le_refl _, rfl⟩

/-- **What a run of events leaves** in `TEMP` is the high byte of the last
word moved through it, if there was any. -/
theorem run_env_spec (h : timer1.run c (es.map .env) = some c') :
    c' = { c with state := c'.state } ∧ c.state.ticks ≤ c'.state.ticks ∧
      c'.state.temp = ((c.state.lastMoved es).map highByte).getD c.state.temp := by
  induction es generalizing c with
  | nil =>
    obtain rfl : c = c' := by simpa using h
    exact ⟨rfl, Nat.le_refl _, rfl⟩
  | cons e es ih =>
    obtain ⟨c₁, hs, hr⟩ := run_cons_eq_some.mp h
    obtain ⟨s₁, ha, rfl⟩ : ∃ s₁, e.apply c.state = some s₁ ∧ { c with state := s₁ } = c₁ :=
      Option.map_eq_some_iff.mp hs
    obtain ⟨hticks, htemp⟩ := apply_spec ha
    obtain ⟨hc', hticks', htemp'⟩ := ih hr
    refine ⟨hc', Nat.le_trans hticks hticks', ?_⟩
    have hmoved : c.state.lastMoved (e :: es) = (s₁.lastMoved es).or (e.moved c.state) := by
      simp only [Timer1.lastMoved, ha]
    rw [htemp', htemp, hmoved]
    rcases s₁.lastMoved es with _ | w
    · rfl
    · rfl

/-- What the events move last through `TEMP` does not depend on what it
held. -/
theorem lastMoved_temp (b : Byte) : ({ s with temp := b } : Timer1).lastMoved es =
    s.lastMoved es := by
  induction es generalizing s with
  | nil => rfl
  | cons e es ih =>
    rcases e with _ | _ | _ | _
    · exact congrArg (·.or none) (ih (s := { s with ticks := s.ticks + 1 }))
    · exact congrArg (·.or none) (ih (s := { s with icr1 := s.tcnt1 }))
    · simp only [Timer1.lastMoved, Timer1Event.apply, Timer1Event.moved]
    · simp only [Timer1.lastMoved, Timer1Event.apply, Timer1Event.moved]

end

/-! ## Whole reads -/

/-- The counter held `r` at a moment between `a` and `b`. -/
def Held (a b : ℕ) (r : Word16) : Prop := ∃ t, a ≤ t ∧ t ≤ b ∧ r = BitVec.ofNat 16 t

/-- By how many high bytes a word is ahead of the counter at `t₀`. -/
def ahead (t₀ : ℕ) (w : Word16) : ℕ := (w.toNat / 256 + 256 - t₀ / 256 % 256) % 256

/-- And by how many it is behind. -/
def behind (t₀ : ℕ) (w : Word16) : ℕ := (t₀ / 256 % 256 + 256 - w.toNat / 256) % 256

/-- **Where a read is whole**, for the low byte read at `t₀` in a call from
`a` to `b`: nothing was moved through `TEMP` before the high byte was read,
or the last word moved has the high byte that was latched, or one that the
call was long enough for, at 256 ticks for each high byte between. -/
def ReadsWhole (a b t₀ : ℕ) (moved : Option Word16) : Prop :=
  ∀ w, moved = some w → t₀ + 256 * ahead t₀ w ≤ b ∨ a + 256 * behind t₀ w ≤ t₀

theorem toNat_highByte (w : Word16) : (highByte w).toNat = w.toNat / 256 := by
  have hlt := w.isLt
  rw [highByte, BitVec.toNat_ofNat]
  omega

/-- The word put together of two bytes. -/
theorem joined_eq_iff {high : Byte} {t₀ t : ℕ} :
    BitVec.ofNat 16 (high.toNat * 256 + (lowByte (BitVec.ofNat 16 t₀)).toNat) =
      BitVec.ofNat 16 t ↔ t % 256 = t₀ % 256 ∧ t / 256 % 256 = high.toNat := by
  have hlt := high.isLt
  rw [← BitVec.toNat_inj, lowByte]
  simp only [BitVec.toNat_ofNat]
  omega

/-- **The counter passes the word put together** in a call that is long
enough for its high byte, and in no other: the low byte comes round every
256 ticks. -/
theorem passes_iff {a b t₀ : ℕ} {w : Word16} (ha : a ≤ t₀) (hb : t₀ ≤ b) :
    (∃ t, a ≤ t ∧ t ≤ b ∧ t % 256 = t₀ % 256 ∧ t / 256 % 256 = w.toNat / 256) ↔
      t₀ + 256 * ahead t₀ w ≤ b ∨ a + 256 * behind t₀ w ≤ t₀ := by
  have hlt := w.isLt
  unfold ahead behind
  constructor
  · rintro ⟨t, hlo, hhi, hlow, hhigh⟩
    rcases Nat.le_total t₀ t with hle | hle
    · left
      omega
    · right
      omega
  · rintro (hahead | hbehind)
    · exact ⟨t₀ + 256 * ((w.toNat / 256 + 256 - t₀ / 256 % 256) % 256), by omega, hahead,
        by omega, by omega⟩
    · exact ⟨t₀ - 256 * ((t₀ / 256 % 256 + 256 - w.toNat / 256) % 256), by omega, by omega,
        by omega, by omega⟩

/-- **In a call that is short** on both sides of the low byte, a handler
that runs has to leave the byte it found. -/
theorem readsWhole_iff_of_short {a b t₀ : ℕ} {moved : Option Word16} (ha : t₀ < a + 256)
    (hb : b < t₀ + 256) (hlo : a ≤ t₀) (hhi : t₀ ≤ b) :
    ReadsWhole a b t₀ moved ↔ ∀ w, moved = some w → w.toNat / 256 = t₀ / 256 % 256 := by
  refine forall_congr' fun w => imp_congr_right fun _ => ?_
  have hlt := w.isLt
  unfold ahead behind
  omega

section

variable {s : Timer1} {before between : List Timer1Event} {c₁ c₂ c₃ : Timer1Config}

/-- **A read is whole unless a handler leaves another byte in `TEMP`.**
Between the call and its return let the events of `before` come before the
low byte is read, and those of `between` before the high byte. The value
returned is one that the counter held during the call if and only if the
last word that `between` moves through `TEMP`, if any, has the high byte
latched with the low one, or a high byte that the call was long enough to
reach. -/
theorem counter_read_exact
    (hbefore : timer1.run ⟨s, none, []⟩ (.dispatch () :: before.map .env) = some c₁)
    (hbetween : timer1.run c₁ (.foreground :: between.map .env) = some c₂)
    (hreturn : timer1.step c₂ .foreground = some c₃) :
    ∃ r, c₃.finished = [((), r)] ∧ (Held s.ticks c₃.state.ticks r ↔
      ReadsWhole s.ticks c₃.state.ticks c₁.state.ticks (c₁.state.lastMoved between)) := by
  -- the call, and the events before the low byte is read
  obtain ⟨c₀, hdispatch, hrun₁⟩ := run_cons_eq_some.mp hbefore
  obtain rfl : ⟨s, some ((), timingCounterTicks), []⟩ = c₀ := Option.some.inj hdispatch
  obtain ⟨hc₁, hticks₁, -⟩ := run_env_spec hrun₁
  -- the low byte, and the events before the high byte is read
  obtain ⟨c₁', hlow, hrun₂⟩ := run_cons_eq_some.mp hbetween
  rw [hc₁] at hlow
  obtain rfl : _ = c₁' := Option.some.inj hlow
  obtain ⟨hc₂, hticks₂, htemp⟩ := run_env_spec hrun₂
  -- the high byte, and the return
  rw [hc₂] at hreturn
  obtain rfl : _ = c₃ := Option.some.inj hreturn
  have hlast : c₂.state.temp =
      ((c₁.state.lastMoved between).map highByte).getD (highByte c₁.state.tcnt1) := by
    rw [← lastMoved_temp (highByte c₁.state.tcnt1)]
    exact htemp
  refine ⟨_, rfl, ?_⟩
  show Held s.ticks c₂.state.ticks (BitVec.ofNat 16 (c₂.state.temp.toNat * 256 +
    (lowByte (BitVec.ofNat 16 c₁.state.ticks)).toNat)) ↔ _
  unfold Held ReadsWhole
  simp only [joined_eq_iff]
  rcases hmoved : c₁.state.lastMoved between with _ | w
  · -- the latched byte was still there, so the word is the one first seen
    have htemp' : c₂.state.temp.toNat = c₁.state.ticks / 256 % 256 := by
      rw [hlast, hmoved, Option.map_none, Option.getD_none, toNat_highByte, Timer1.tcnt1,
        BitVec.toNat_ofNat]
      omega
    refine iff_of_true ⟨c₁.state.ticks, hticks₁, hticks₂, rfl, htemp'.symm⟩ ?_
    intro w hw
    cases hw
  · have htemp' : c₂.state.temp.toNat = w.toNat / 256 := by
      rw [hlast, hmoved, Option.map_some, Option.getD_some, toNat_highByte]
    simp only [htemp', Option.some.injEq, forall_eq']
    exact passes_iff hticks₁ hticks₂

end

/-- The timer while a measurement waits for its edge. -/
def Timer1.measuring (ticks : ℕ) : Timer1 where
  ticks := ticks
  temp := 0
  icr1 := 0
  control := { Control.zeroed with
    timsk1 := bit icie1 ||| bit ocie1a
    tccr1b := bit ices1 ||| bit cs11
    hcsr04 := ⟨0, 0, .waitRising, 0⟩
    measurementActive := 1 }

/-- An edge that is captured between the two byte reads leaves the byte
that was latched, where the counter has not gone on. -/
theorem counter_read_exact_captured :
    ∃ c₁ c₂ c₃, timer1.run ⟨.measuring 511, none, []⟩ [.dispatch ()] = some c₁ ∧
      timer1.run c₁ (.foreground :: [Timer1Event.edge, .capt].map .env) = some c₂ ∧
      timer1.step c₂ .foreground = some c₃ ∧
      c₁.state.lastMoved [.edge, .capt] = some 511#16 ∧
      ∃ r, c₃.finished = [((), r)] ∧ Held 511 c₃.state.ticks r := by
  have hrun : ((timer1.run ⟨.measuring 511, none, []⟩ [.dispatch ()]).bind fun c₁ =>
      (timer1.run c₁ (.foreground :: [Timer1Event.edge, .capt].map .env)).bind fun c₂ =>
        (timer1.step c₂ .foreground).map fun c₃ =>
          (c₁.state.ticks, c₁.state.lastMoved [.edge, .capt], c₃.state.ticks)) =
      some (511, some 511#16, 511) := rfl
  obtain ⟨c₁, hbefore, hrest⟩ := Option.bind_eq_some_iff.mp hrun
  obtain ⟨c₂, hbetween, hlast⟩ := Option.bind_eq_some_iff.mp hrest
  obtain ⟨c₃, hreturn, hvalues⟩ := Option.map_eq_some_iff.mp hlast
  obtain ⟨hticks, hrest⟩ := Prod.mk.inj hvalues
  obtain ⟨hmoved, hticks'⟩ := Prod.mk.inj hrest
  obtain ⟨r, hfin, hexact⟩ :=
    @counter_read_exact _ [] [.edge, .capt] _ _ _ hbefore hbetween hreturn
  refine ⟨c₁, c₂, c₃, hbefore, hbetween, hreturn, hmoved, r, hfin, hexact.mpr ?_⟩
  rw [hticks, hmoved, hticks']
  intro w hw
  obtain rfl := Option.some.inj hw
  exact .inl (by decide)

/-- **A torn read.** The counter goes from 511 to 512, where the edge is
captured; the read that the capture interrupts returns 767. -/
theorem counter_read_torn :
    ∃ c₁ c₂ c₃, timer1.run ⟨.measuring 511, none, []⟩ [.dispatch ()] = some c₁ ∧
      timer1.run c₁ (.foreground :: [Timer1Event.tick, .edge, .capt].map .env) = some c₂ ∧
      timer1.step c₂ .foreground = some c₃ ∧ c₃.state.ticks = 512 ∧
      c₃.finished = [((), 767#16)] ∧ ¬ Held 511 512 767#16 := by
  refine ⟨_, _, _, rfl, rfl, rfl, rfl, rfl, ?_⟩
  rintro ⟨t, hlo, hhi, ht⟩
  have hvalue := congrArg BitVec.toNat ht
  rw [BitVec.toNat_ofNat, BitVec.toNat_ofNat] at hvalue
  omega

end SentryCell
