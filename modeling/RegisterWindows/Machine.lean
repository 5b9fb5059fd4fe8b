import Mathlib.Logic.Function.Basic
import RegisterWindows.Window

namespace RegisterWindows

/-- What the port's instructions can do to the integer registers of a core:
read and write `x0` .. `x31` through the active window, and access CSR 0x801. -/
class Core (H : Type) where
  reg : H → Reg → Word
  setReg : H → Reg → Word → H
  /-- What `csrr rd, 0x801` returns. -/
  staged : H → Word
  /-- `csrw 0x801, rs`. -/
  stage : H → Word → H

/-- The C and assembly objects the port's assembly names. -/
inductive Sym where
  | pxCurrentTCB
  | xISRStackTop
  | xCriticalNesting
  | pxCriticalNesting
  | xTaskReturnAddress
  | portCurrentTaskWindowBase
  | portWindowInvalidMinimalRestore
  | portWindowKernelBorrowRestores
  | portWindowKernelStageCount
deriving DecidableEq, Repr

/-- Which object a word of memory belongs to. -/
inductive Region where
  | sym (s : Sym)
  | tcb (handle : Word)
  | stack (handle : Word)
  | other
deriving DecidableEq, Repr

/-- Neither a global of the port nor a TCB. -/
def Region.Free : Region → Prop
  | .sym _ => False
  | .tcb _ => False
  | .stack _ => True
  | .other => True

instance : DecidablePred Region.Free
  | .sym _ => inferInstanceAs (Decidable False)
  | .tcb _ => inferInstanceAs (Decidable False)
  | .stack _ => inferInstanceAs (Decidable True)
  | .other => inferInstanceAs (Decidable True)

/-- A linked image: every address lies in one object, every symbol in its own, and
no object at the null pointer. -/
structure Image where
  addr : Sym → Word
  region : Word → Region
  region_addr : ∀ s, region (addr s) = .sym s
  region_null : region 0 = .other

namespace Image

@[simp] theorem addr_inj (L : Image) {s s' : Sym} : L.addr s = L.addr s' ↔ s = s' := by
  refine ⟨fun h => ?_, fun h => h ▸ rfl⟩
  have hs := L.region_addr s
  rw [h, L.region_addr s'] at hs
  cases hs
  rfl

theorem addr_ne (L : Image) {s : Sym} {a : Word} (h : ∀ s, L.region a ≠ .sym s) :
    a ≠ L.addr s := by
  intro he
  exact h s (he ▸ L.region_addr s)

theorem ne_addr_of_free (L : Image) {a : Word} (ha : (L.region a).Free) (s : Sym) :
    a ≠ L.addr s := by
  rintro rfl
  rw [L.region_addr] at ha
  exact ha

theorem ne_tcb_of_free (L : Image) {a t t' : Word} (ha : (L.region a).Free)
    (ht : L.region t = .tcb t') : a ≠ t := by
  rintro rfl
  rw [ht] at ha
  exact ha

end Image

/-- CSRs the port's assembly accesses; 0x800 is named there but never used. -/
inductive Csr where
  | mstatus
  | mepc
  | mcause
  | windowStaged
deriving DecidableEq, Repr

/-- A hart: the core's integer registers, the trap CSRs and word-addressed memory. -/
structure Machine (H : Type) where
  core : H
  pc : Word
  mepc : Word
  mcause : Word
  mstatus : Word
  mem : Word → Word

/-- The instructions the port's context-switch assembly is made of. -/
inductive Instr where
  /-- `store_x rs, off(base)` -/
  | storeX (rs : Reg) (off : Word) (base : Reg)
  /-- `load_x rd, off(base)` -/
  | loadX (rd : Reg) (off : Word) (base : Reg)
  /-- `load_x rd, symbol` -/
  | loadSym (rd : Reg) (s : Sym)
  /-- `la rd, symbol` -/
  | la (rd : Reg) (s : Sym)
  | li (rd : Reg) (imm : Word)
  | addi (rd rs : Reg) (imm : Word)
  | add (rd rs rs' : Reg)
  | and (rd rs rs' : Reg)
  | andi (rd rs : Reg) (imm : Word)
  | or (rd rs rs' : Reg)
  | slli (rd rs : Reg) (shamt : Nat)
  | csrr (rd : Reg) (csr : Csr)
  | csrw (csr : Csr) (rs : Reg)
deriving DecidableEq, Repr

namespace Machine
open RegisterWindows.Core

variable {H : Type} [Core H]

/-- Register `r` through the active window. -/
def x (m : Machine H) (r : Reg) : Word := reg m.core r

def setX (m : Machine H) (r : Reg) (v : Word) : Machine H :=
  { m with core := setReg m.core r v }

def store (m : Machine H) (a v : Word) : Machine H :=
  { m with mem := Function.update m.mem a v }

def readCsr (m : Machine H) : Csr → Word
  | .mstatus => m.mstatus
  | .mepc => m.mepc
  | .mcause => m.mcause
  | .windowStaged => staged m.core

def writeCsr (m : Machine H) (c : Csr) (v : Word) : Machine H :=
  match c with
  | .mstatus => { m with mstatus := v }
  | .mepc => { m with mepc := v }
  | .mcause => { m with mcause := v }
  | .windowStaged => { m with core := stage m.core v }

/-- One instruction; the program counter of straight-line port code is not tracked. -/
def exec (L : Image) (m : Machine H) : Instr → Machine H
  | .storeX rs off base => m.store (m.x base + off) (m.x rs)
  | .loadX rd off base => m.setX rd (m.mem (m.x base + off))
  | .loadSym rd s => m.setX rd (m.mem (L.addr s))
  | .la rd s => m.setX rd (L.addr s)
  | .li rd imm => m.setX rd imm
  | .addi rd rs imm => m.setX rd (m.x rs + imm)
  | .add rd rs rs' => m.setX rd (m.x rs + m.x rs')
  | .and rd rs rs' => m.setX rd (m.x rs &&& m.x rs')
  | .andi rd rs imm => m.setX rd (m.x rs &&& imm)
  | .or rd rs rs' => m.setX rd (m.x rs ||| m.x rs')
  | .slli rd rs n => m.setX rd (m.x rs <<< n)
  | .csrr rd c => m.setX rd (m.readCsr c)
  | .csrw c rs => m.writeCsr c (m.x rs)

/-- A straight-line block. -/
def run (L : Image) (m : Machine H) (is : List Instr) : Machine H := is.foldl (exec L) m

@[simp] theorem run_nil (L : Image) (m : Machine H) : m.run L [] = m := rfl

@[simp] theorem run_cons (L : Image) (m : Machine H) (i : Instr) (is : List Instr) :
    m.run L (i :: is) = (m.exec L i).run L is := rfl

theorem run_append (L : Image) (m : Machine H) (is js : List Instr) :
    m.run L (is ++ js) = (m.run L is).run L js := List.foldl_append

end Machine

end RegisterWindows
