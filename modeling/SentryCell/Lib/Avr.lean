import SentryCell.Lib.Word
import Mathlib.Logic.Function.Basic
/-!
# A little AVR assembly

The instructions that straight pieces of start-up code are written in, with
the assembler's numeric labels. A jump names the next label of its number
further on, so that code is run in one pass over its text: while a jump
looks for its label, instructions are passed over. `run_frame` is what
code leaves alone, read off its text.
-/

namespace Avr

/-- **An instruction**, or a label. Registers are numbered, and addresses
are those of data memory. -/
inductive Instr where
  /-- `sts address, r` -/
  | sts (address : Word16) (r : ℕ)
  /-- `lds d, address` -/
  | lds (d : ℕ) (address : Word16)
  /-- `ldi d, k` -/
  | ldi (d : ℕ) (k : Byte)
  /-- `clr d` -/
  | clr (d : ℕ)
  /-- `cpi d, k` -/
  | cpi (d : ℕ) (k : Byte)
  /-- `brne lf` -/
  | brne (l : ℕ)
  /-- `rjmp lf` -/
  | rjmp (l : ℕ)
  /-- `l:` -/
  | label (l : ℕ)
  deriving DecidableEq, Repr

/-- The registers, data memory and the zero flag. -/
structure State where
  reg : ℕ → Byte
  mem : Word16 → Byte
  zero : Bool

/-- What an instruction does to the state. Only `clr` and `cpi` write the
flag. -/
def Instr.effect : Instr → State → State
  | .sts address r, s => { s with mem := Function.update s.mem address (s.reg r) }
  | .lds d address, s => { s with reg := Function.update s.reg d (s.mem address) }
  | .ldi d k, s => { s with reg := Function.update s.reg d k }
  | .clr d, s => { s with reg := Function.update s.reg d 0, zero := true }
  | .cpi d k, s => { s with zero := decide (s.reg d = k) }
  | .brne _, s => s
  | .rjmp _, s => s
  | .label _, s => s

/-- The label an instruction jumps to, if it jumps. -/
def Instr.jump (s : State) : Instr → Option ℕ
  | .brne l => if s.zero then none else some l
  | .rjmp l => some l
  | _ => none

/-- **A run** of code, from its start or in search of a label. There is no
result where the label does not follow. -/
def run : List Instr → Option ℕ → State → Option State
  | [], none, s => some s
  | [], some _, _ => none
  | i :: code, none, s => run code (i.jump s) (i.effect s)
  | i :: code, some l, s => run code (if i = .label l then none else some l) s

variable {i : Instr} {code code' : List Instr} {l : ℕ} {s s' : State}

@[simp] theorem run_nil : run [] none s = some s := rfl

/-- The next instruction has its effect, and its jump if it is one is looked
for behind it. -/
theorem run_cons : run (i :: code) none s = run code (i.jump s) (i.effect s) := rfl

/-- The registers that code writes. -/
def Instr.writesReg (i : Instr) (r : ℕ) : Bool :=
  match i with
  | .lds d _ => d == r
  | .ldi d _ => d == r
  | .clr d => d == r
  | _ => false

/-- The addresses that code writes. -/
def Instr.writesMem (i : Instr) (address : Word16) : Bool :=
  match i with
  | .sts address' _ => address' == address
  | _ => false

/-- An instruction leaves the registers alone that it does not write. -/
theorem reg_effect {r : ℕ} (h : i.writesReg r = false) : (i.effect s).reg r = s.reg r := by
  cases i with
  | lds d address =>
    have hne : r ≠ d := fun he => by simp [Instr.writesReg, he] at h
    exact Function.update_of_ne hne _ _
  | ldi d k =>
    have hne : r ≠ d := fun he => by simp [Instr.writesReg, he] at h
    exact Function.update_of_ne hne _ _
  | clr d =>
    have hne : r ≠ d := fun he => by simp [Instr.writesReg, he] at h
    exact Function.update_of_ne hne _ _
  | _ => rfl

/-- An instruction leaves every memory cell alone that is not among those it
writes. -/
theorem mem_effect {address : Word16} (h : i.writesMem address = false) :
    (i.effect s).mem address = s.mem address := by
  cases i with
  | sts address' r =>
    have hne : address ≠ address' := fun he => by simp [Instr.writesMem, he] at h
    exact Function.update_of_ne hne _ _
  | _ => rfl

/-- **What code does not write** it leaves alone, wherever its jumps lead. -/
theorem run_frame {seek : Option ℕ} (h : run code seek s = some s') :
    (∀ r, (∀ i ∈ code, i.writesReg r = false) → s'.reg r = s.reg r) ∧
      ∀ address, (∀ i ∈ code, i.writesMem address = false) → s'.mem address = s.mem address := by
  induction code generalizing seek s with
  | nil =>
    cases seek with
    | none =>
      obtain rfl : s = s' := by simpa using h
      exact ⟨fun _ _ => rfl, fun _ _ => rfl⟩
    | some l => cases h
  | cons i code ih =>
    cases seek with
    | none =>
      obtain ⟨hreg, hmem⟩ := ih h
      refine ⟨fun r hr => ?_, fun address ha => ?_⟩
      · rw [hreg r fun j hj => hr j (List.mem_cons_of_mem _ hj)]
        exact reg_effect (hr i List.mem_cons_self)
      · rw [hmem address fun j hj => ha j (List.mem_cons_of_mem _ hj)]
        exact mem_effect (ha i List.mem_cons_self)
    | some l =>
      -- an instruction that is passed over does nothing
      obtain ⟨hreg, hmem⟩ := ih h
      exact ⟨fun r hr => hreg r fun j hj => hr j (List.mem_cons_of_mem _ hj),
        fun address ha => hmem address fun j hj => ha j (List.mem_cons_of_mem _ hj)⟩

end Avr
