import RegisterWindows.Cva6.Core
import RegisterWindows.Lib.Code
import RegisterWindows.Port.Context

namespace RegisterWindows.Bench
open RegisterWindows.Core WindowedCore LawfulCore

@[simp] abbrev s0 : Reg := 8
@[simp] abbrev s1 : Reg := 9
@[simp] abbrev a3 : Reg := 13
@[simp] abbrev a4 : Reg := 14
@[simp] abbrev s2 : Reg := 18
@[simp] abbrev s3 : Reg := 19
@[simp] abbrev s4 : Reg := 20
@[simp] abbrev s5 : Reg := 21
@[simp] abbrev s6 : Reg := 22

inductive Alu where
  | add
  | sub
  | mul
  | divu
  | remu
  | and
  | xor
  | sll
  | srl
deriving DecidableEq, Repr

/-- A division by 0 has all bits set and leaves the dividend as remainder. -/
def Alu.eval : Alu → Word → Word → Word
  | add, a, b => a + b
  | sub, a, b => a - b
  | mul, a, b => a * b
  | divu, a, b => if b = 0 then BitVec.allOnes 32 else a / b
  | remu, a, b => a % b
  | and, a, b => a &&& b
  | xor, a, b => a ^^^ b
  | sll, a, b => a <<< (b.toNat % 32)
  | srl, a, b => a >>> (b.toNat % 32)

@[simp] theorem Alu.add_eval_zero (a : Word) : Alu.add.eval a 0#32 = a := BitVec.add_zero a

theorem add_neg_one (w : Word) : w + 4294967295#32 = w - 1#32 := by
  rw [BitVec.sub_eq_add_neg]
  exact congrArg (w + ·) (by decide)

theorem ofNat_succ_sub_one (k : Nat) : BitVec.ofNat 32 (k + 1) - 1 = BitVec.ofNat 32 k := by
  rw [BitVec.ofNat_add]
  exact BitVec.add_sub_cancel _ _

theorem ofNat_succ_ne_zero {k : Nat} (hk : k + 1 < 4294967296) : BitVec.ofNat 32 (k + 1) ≠ 0 := by
  intro h0
  have hn := congrArg BitVec.toNat h0
  rw [BitVec.toNat_ofNat, Nat.mod_eq_of_lt hk] at hn
  exact Nat.succ_ne_zero k hn

/-- The instructions of the programs in `verif/tests/custom/context_switch`. -/
inductive Inst where
  /-- `lw rd, off(base)` -/
  | lw (rd : Reg) (off : Word) (base : Reg)
  /-- `sw rs, off(base)` -/
  | sw (rs : Reg) (off : Word) (base : Reg)
  /-- `li`, and `la` of an address. -/
  | li (rd : Reg) (imm : Word)
  | op (o : Alu) (rd rs rs' : Reg)
  | opi (o : Alu) (rd rs : Reg) (imm : Word)
  | csrr (rd : Reg) (csr : Csr)
  | csrw (csr : Csr) (rs : Reg)
  /-- `csrr rd, 0xB00` -/
  | mcycle (rd : Reg)
  /-- `csrr rd, 0x800` -/
  | active (rd : Reg)
deriving DecidableEq, Repr

/-- `mv rd, rs` -/
abbrev Inst.mv (rd rs : Reg) : Inst := .opi .add rd rs 0

inductive Cond where
  | beqz (r : Reg)
  | bgez (r : Reg)
  | bltz (r : Reg)
  | bnez (r : Reg)
  | beq (r r' : Reg)
  | bne (r r' : Reg)
  | blt (r r' : Reg)
  | bltu (r r' : Reg)
deriving DecidableEq, Repr

/-- A core that can read the active configuration. -/
class ActiveConfig (H : Type) extends WindowedCore H where
  /-- What `csrr rd, 0x800` returns. -/
  activeConfig : H → Word

instance : ActiveConfig Cva6.Regs where
  activeConfig := Cva6.Regs.windowConfig

/-- A core whose only window is the kernel's. -/
instance : ActiveConfig Flat where
  active _ := Window.kernel
  cell f p := f.regs ⟨p.val % 32, Nat.mod_lt _ (by decide)⟩
  interrupted _ := Window.kernel.config
  trap f := { f with staged := Window.kernel.config }
  mret f := f
  activeConfig _ := Window.kernel.config

/-- A machine, and how often its cycle counter has been read. -/
structure Timed (H : Type) extends Machine H where
  reads : Nat

namespace Timed
variable {H : Type}

section
variable [Core H]

def x (m : Timed H) (r : Reg) : Word := m.toMachine.x r

def setX (m : Timed H) (r : Reg) (v : Word) : Timed H :=
  { m with toMachine := m.toMachine.setX r v }

def store (m : Timed H) (a v : Word) : Timed H := { m with toMachine := m.toMachine.store a v }

def writeCsr (m : Timed H) (c : Csr) (v : Word) : Timed H :=
  { m with toMachine := m.toMachine.writeCsr c v }

def tick (m : Timed H) : Timed H := { m with reads := m.reads + 1 }

end

variable [ActiveConfig H]

/-- `clock k` is the reading that `mcycle` gives when it is read for the `k`-th time. -/
def step (clock : Nat → Word) (m : Timed H) : Inst → Timed H
  | .lw rd off base => m.setX rd (m.mem (m.x base + off))
  | .sw rs off base => m.store (m.x base + off) (m.x rs)
  | .li rd imm => m.setX rd imm
  | .op o rd rs rs' => m.setX rd (o.eval (m.x rs) (m.x rs'))
  | .opi o rd rs imm => m.setX rd (o.eval (m.x rs) imm)
  | .csrr rd c => m.setX rd (m.readCsr c)
  | .csrw c rs => m.writeCsr c (m.x rs)
  | .mcycle rd => (m.setX rd (clock m.reads)).tick
  | .active rd => m.setX rd (ActiveConfig.activeConfig m.core)

def holds (m : Timed H) : Cond → Bool
  | .beqz r => m.x r == 0
  | .bgez r => !(m.x r).msb
  | .bltz r => (m.x r).msb
  | .bnez r => m.x r != 0
  | .beq r r' => m.x r == m.x r'
  | .bne r r' => m.x r != m.x r'
  | .blt r r' => (m.x r).slt (m.x r')
  | .bltu r r' => (m.x r).ult (m.x r')

/-- `ecall` in machine mode. -/
def ecall (m : Timed H) : Timed H := { m with toMachine := m.toMachine.takeTrap 11 }

/-- The code after the `ecall` is what is next to the instruction that `mepc` named. -/
def mret (entry m : Timed H) : Option (Timed H) :=
  if m.mepc = entry.mepc + 4 then some { m with toMachine := m.toMachine.execMret } else none

end Timed

def ops (H : Type) [ActiveConfig H] (clock : Nat → Word) : Code.Ops Inst Cond (Timed H) where
  step := Timed.step clock
  holds := Timed.holds
  enter := Timed.ecall
  leave := Timed.mret

abbrev Asm := Code Inst Cond

namespace Timed

def view (m : Timed Cva6.Regs) : Timed Flat := { toMachine := m.toMachine.view, reads := m.reads }

def Default (m : Timed Cva6.Regs) : Prop := m.core.windowConfig = Cva6.defaultWindowConfig 32

theorem Default.kernel {m : Timed Cva6.Regs} (h : m.Default) : m.toMachine.Kernel :=
  (congrArg Cva6.decode h).trans (Cva6.decode_default (.inl rfl))

@[simp] theorem view_x (m : Timed Cva6.Regs) (r : Reg) : m.view.x r = m.x r := Machine.view_x _ _

theorem view_setX {m : Timed Cva6.Regs} (h : m.Default) (r : Reg) (v : Word) :
    (m.setX r v).view = m.view.setX r v :=
  congrArg (fun n => (⟨n, m.reads⟩ : Timed Flat)) (Machine.view_setX h.kernel r v)

theorem Default.setX {m : Timed Cva6.Regs} (h : m.Default) (r : Reg) (v : Word) :
    (m.setX r v).Default := h

theorem Default.writeCsr {m : Timed Cva6.Regs} (h : m.Default) (c : Csr) (v : Word) :
    (m.writeCsr c v).Default := by
  cases c <;> exact h

theorem view_step (clock : Nat → Word) {m : Timed Cva6.Regs} (h : m.Default) (i : Inst) :
    (m.step clock i).view = m.view.step clock i ∧ (m.step clock i).Default := by
  cases i with
  | sw rs off base =>
    refine ⟨?_, h⟩
    simp only [step, view_x]
    rfl
  | csrw c rs =>
    refine ⟨?_, h.writeCsr c _⟩
    simp only [step, view_x]
    exact congrArg (fun n => (⟨n, m.reads⟩ : Timed Flat)) (Machine.view_writeCsr h.kernel c _)
  | mcycle rd =>
    refine ⟨?_, h.setX _ _⟩
    exact congrArg tick (view_setX h rd _)
  | active rd =>
    refine ⟨(view_setX h rd _).trans (congrArg (m.view.setX rd) ?_), h.setX _ _⟩
    exact h
  | csrr rd c =>
    exact ⟨(view_setX h rd _).trans (congrArg (m.view.setX rd) (Machine.view_readCsr _ c).symm), h⟩
  | lw | li | op | opi =>
    simp only [step, view_x]
    exact ⟨view_setX h _ _, h⟩

theorem view_holds (m : Timed Cva6.Regs) (c : Cond) : m.holds c = m.view.holds c := by
  cases c <;> simp only [holds, view_x]

/-- CSR 0x801 names the window that the trap has interrupted. -/
def Handling (m : Timed Cva6.Regs) : Prop :=
  m.core.prevWindowConfig = Cva6.defaultWindowConfig 32

theorem view_ecall {m : Timed Cva6.Regs} (h : m.Default) :
    m.ecall.view = m.view.ecall ∧ m.ecall.Default ∧ m.ecall.Handling := by
  refine ⟨?_, rfl, h⟩
  have hregs : (fun r => m.ecall.toMachine.x r) = fun r => m.toMachine.x r :=
    funext fun r => Machine.Kernel.x_takeTrap h.kernel 11 r
  have hstaged : staged m.ecall.core = Window.kernel.config := h
  simp only [view, Machine.view, hregs, hstaged]
  rfl

theorem view_mret {entry m : Timed Cva6.Regs} (h : m.Default) (hh : m.Handling) :
    (entry.mret m).map view = entry.view.mret m.view ∧
      ∀ n, entry.mret m = some n → n.Default := by
  unfold mret
  by_cases hpc : m.mepc = entry.mepc + 4
  · have hpc' : m.view.mepc = entry.view.mepc + 4 := hpc
    rw [if_pos hpc, if_pos hpc']
    refine ⟨congrArg some ?_, fun n hn => by cases hn; exact hh⟩
    have hk : m.toMachine.execMret.Kernel :=
      (congrArg Cva6.decode hh).trans (Cva6.decode_default (.inl rfl))
    have hregs : (fun r => m.toMachine.execMret.x r) = fun r => m.toMachine.x r :=
      funext fun r => Machine.Kernel.x_execMret h.kernel hk r
    simp only [view, Machine.view, hregs]
    rfl
  · have hpc' : ¬ m.view.mepc = entry.view.mepc + 4 := hpc
    rw [if_neg hpc, if_neg hpc']
    exact ⟨rfl, fun n hn => absurd hn.symm (Option.some_ne_none n)⟩

end Timed

/-- An instruction that a handler may have without changing what its `mret` installs. -/
def Inst.keepsStaged : Inst → Bool
  | .csrw .windowStaged _ => false
  | _ => true

theorem handling_step (clock : Nat → Word) {m : Timed Cva6.Regs} (hh : m.Handling) {i : Inst}
    (hi : i.keepsStaged = true) : (m.step clock i).Handling := by
  cases i with
  | csrw c rs =>
    cases c with
    | windowStaged => cases hi
    | mstatus | mepc | mcause => exact hh
  | lw | sw | li | op | opi | csrr | mcycle | active => exact hh

/-- What is staged between two measurements is lost at the next trap: on CVA6 the programs never
leave the window they start in, and share its registers with the handler. -/
theorem views (clock : Nat → Word) :
    Code.Views (ops Cva6.Regs clock) (ops Flat clock) Timed.view Timed.Default Timed.Handling
      Inst.keepsStaged where
  step _ i h := Timed.view_step clock h i
  holds m c _ := Timed.view_holds m c
  enter _ h := Timed.view_ecall h
  handler _ _ _ hh hi := handling_step clock hh hi
  leave _ _ _ h hh := Timed.view_mret h hh

/-- Code that has been followed on a flat register file ends the same way on CVA6. -/
theorem ends_of_flat {clock : Nat → Word} {c : Asm} (hc : c.handled Inst.keepsStaged = true)
    {m : Timed Cva6.Regs} (h : m.Default) {Q : Timed Flat → Prop}
    (hq : Code.Ends (ops Flat clock) c m.view Q) :
    Code.Ends (ops Cva6.Regs clock) c m fun t => Q t.view ∧ t.Default := by
  obtain ⟨t, ht, hq⟩ := hq
  obtain ⟨hv, hd⟩ := (views clock).exec c hc m h
  rw [ht] at hv
  obtain ⟨u, hu, rfl⟩ := Option.map_eq_some_iff.mp hv
  exact ⟨u, hu, hq, hd u hu⟩

theorem after_of_flat {clock : Nat → Word} {init body : Asm}
    (hi : init.handled Inst.keepsStaged = true) (hb : body.handled Inst.keepsStaged = true)
    {m : Timed Cva6.Regs} (h : m.Default) {n : Nat} {Q : Timed Flat → Prop}
    (hq : ∃ t, Code.after (ops Flat clock) init body n m.view = some t ∧ Q t) :
    ∃ t, Code.after (ops Cva6.Regs clock) init body n m = some t ∧ Q t.view ∧ t.Default := by
  obtain ⟨t, ht, hq⟩ := hq
  obtain ⟨hv, hd⟩ := (views clock).after hi hb n h
  rw [ht] at hv
  obtain ⟨u, hu, rfl⟩ := Option.map_eq_some_iff.mp hv
  exact ⟨u, hu, hq, hd u hu⟩

/-- CVA6 after reset. -/
def Timed.reset : Timed Cva6.Regs := ⟨⟨Cva6.Regs.reset, 0, 0, 0, 0, fun _ => 0⟩, 0⟩

theorem Timed.default_reset : Timed.reset.Default := rfl

end RegisterWindows.Bench
