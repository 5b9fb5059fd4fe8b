import Mathlib.Data.List.FinRange
import RegisterWindows.Port.Start

namespace RegisterWindows.Port
open Machine RegisterWindows.Core

abbrev FReg := Fin 32

/-- A hart with 32 floating point registers, no part of the integer window. -/
structure FpuMachine (H : Type) extends Machine H where
  f : FReg → Word
  fcsr : BitVec 8

/-- A build with `configENABLE_FPU` set to 1. `__riscv_flen` is 32, as the 32-bit configurations of
CVA6 have no D extension; with 64 the save area would begin at 4 modulo 8, where `fsd` traps. -/
inductive FpuInstr where
  | int (i : Instr)
  /-- `srl rd, rs, shamt` -/
  | srl (rd rs : Reg) (shamt : Nat)
  /-- `store_f fs, off(base)` -/
  | storeF (fs : FReg) (off : Word) (base : Reg)
  /-- `load_f fd, off(base)` -/
  | loadF (fd : FReg) (off : Word) (base : Reg)
  /-- `csrr rd, fcsr` -/
  | csrrFcsr (rd : Reg)
  /-- `csrw fcsr, rs` -/
  | csrwFcsr (rs : Reg)
deriving DecidableEq, Repr

def ints (is : List Instr) : List FpuInstr := is.map .int

namespace FpuMachine

variable {H : Type} [Core H]

def exec (L : Image) (m : FpuMachine H) : FpuInstr → FpuMachine H
  | .int i => { m with toMachine := m.toMachine.exec L i }
  | .srl rd rs n => { m with toMachine := m.setX rd (m.x rs >>> n) }
  | .storeF fs off base => { m with toMachine := m.store (m.x base + off) (m.f fs) }
  | .loadF fd off base => { m with f := Function.update m.f fd (m.mem (m.x base + off)) }
  | .csrrFcsr rd => { m with toMachine := m.setX rd (m.fcsr.setWidth 32) }
  | .csrwFcsr rs => { m with fcsr := (m.x rs).setWidth 8 }

def run (L : Image) (m : FpuMachine H) (is : List FpuInstr) : FpuMachine H :=
  is.foldl (exec L) m

theorem run_append (L : Image) (m : FpuMachine H) (is js : List FpuInstr) :
    m.run L (is ++ js) = (m.run L is).run L js := List.foldl_append

theorem run_ints (L : Image) (m : FpuMachine H) (is : List Instr) :
    m.run L (ints is) = { m with toMachine := m.toMachine.run L is } := by
  induction is generalizing m with
  | nil => rfl
  | cons i is ih => exact ih (m.exec L (.int i))

end FpuMachine

/-- The field FS of `mstatus`, shifted by `MSTATUS_FS_OFFSET`. -/
def statusFs (mstatus : Word) : Word := (mstatus >>> 13) &&& 3

def mstatusFsMask : Word := 0x6000
def mstatusFsClean : Word := 0x4000
def mstatusFsDirty : Word := 0x6000

/-- FS is 3. -/
def Dirty (mstatus : Word) : Prop := statusFs mstatus = 3

instance (mstatus : Word) : Decidable (Dirty mstatus) := inferInstanceAs (Decidable (_ = _))

/-- `portFPU_REG_OFFSET` in words; `portFPU_REG_SIZE` is one word. -/
def portFpuRegSlot (regIndex : Nat) : Nat := 2 + regIndex

def portFpuRegOffset (regIndex : Nat) : Word := slot (portFpuRegSlot regIndex)

/-- `portFPU_REG_COUNT`: the registers and `fcsr`. -/
def portFpuRegCount : Nat := 33

def portFpuContextSize : Word := slot portFpuRegCount

def storeFs (fs : List FReg) : List FpuInstr :=
  fs.map fun i => .storeF i (portFpuRegOffset i) sp

def loadFs (fs : List FReg) : List FpuInstr :=
  fs.map fun i => .loadF i (portFpuRegOffset i) sp

def portcontexSaveFpuContext : List FpuInstr :=
  ints [.addi sp sp (-portFpuContextSize)] ++
  storeFs (List.finRange 32) ++
  [.csrrFcsr t0,
   .int (.storeX t0 (portFpuRegOffset 32) sp)]

def portcontextRestoreFpuContext : List FpuInstr :=
  loadFs (List.finRange 32) ++
  [.int (.loadX t0 (portFpuRegOffset 32) sp),
   .csrwFcsr t0,
   .int (.addi sp sp portFpuContextSize)]

/-- The three instructions before each `bne t1, t2`. -/
def fsTest (rs : Reg) : List FpuInstr :=
  [.srl t1 rs 13,
   .int (.andi t1 t1 3),
   .int (.addi t2 0 3)]

namespace Fpu

def fullSaveHead : List Instr :=
  [.addi sp sp (-portContextSize)] ++
  storeGprs highGprs ++
  storeGprs lowGprs ++
  [.loadSym t0 .xCriticalNesting,
   .storeX t0 (slot portCriticalNestingOffset) sp]

def statusSave : List Instr :=
  [.csrr t0 .mstatus,
   .storeX t0 (slot 1) sp]

/-- "Mark the FPU as clean, if it was dirty and we saved FPU registers." -/
def markClean : List Instr :=
  [.li t1 (~~~mstatusFsMask),
   .and t0 t0 t1,
   .li t1 mstatusFsClean,
   .or t0 t0 t1,
   .csrw .mstatus t0]

def saveTail : List Instr :=
  [.storeX 0 (slot portWindowCfgOffset) sp,
   .storeX 0 (slot portContextTypeOffset) sp,
   .loadSym t0 .pxCurrentTCB,
   .storeX sp 0 t0]

section
variable {H : Type} [Core H]

/-- Between the window test and label 1. -/
def fullSave (L : Image) (m : FpuMachine H) : FpuMachine H :=
  let m := m.run L (ints fullSaveHead)
  let m := m.run L (ints [.csrr t0 .mstatus] ++ fsTest t0)
  -- bne t1, t2, 1f
  if m.x t1 ≠ m.x t2 then m else m.run L portcontexSaveFpuContext

/-- From label 1 of the FPU block on. That is the next label 1 of the text after the window test:
the minimal save has one too, behind the `j 2f` that this ends with, and no branch reaches it. -/
def saveRest (L : Image) (m : FpuMachine H) : FpuMachine H :=
  let m := m.run L (ints statusSave ++ fsTest t0)
  -- bne t1, t2, 3f
  let m := if m.x t1 ≠ m.x t2 then m else m.run L (ints markClean)
  m.run L (ints saveTail)

def portcontextSaveContextInternal (L : Image) (m : FpuMachine H) : FpuMachine H :=
  let m := m.run L (ints windowBaseTest)
  -- bnez t0, 1f
  if m.x t0 ≠ 0 then saveRest L m else saveRest L (fullSave L m)

def freertosRiscvTrapHandler (L : Image) (m : FpuMachine H) : FpuMachine H :=
  let m := portcontextSaveContextInternal L m
  let m := m.run L (ints [.csrr a0 .mcause, .csrr a1 .mepc])
  -- bge a0, x0, synchronous_exception
  if (m.x a0).msb = false then
    m.run L (ints [.addi a1 a1 4, .storeX a1 0 sp, .loadSym sp .xISRStackTop])
  else
    m.run L (ints [.storeX a1 0 sp, .loadSym sp .xISRStackTop])

end

def headLoad : List Instr :=
  [.loadX t0 (slot 0) sp,
   .csrw .mepc t0,
   .loadX t3 (slot 1) sp,
   .csrw .mstatus t3]

def nestingLoad : List Instr :=
  [.loadX t0 (slot portCriticalNestingOffset) sp,
   .loadSym t1 .pxCriticalNesting,
   .storeX t0 0 t1]

section
variable {H : Type} [Core H]

/-- From label 4 to label 6 of the FPU block. -/
def headRestore (L : Image) (m : FpuMachine H) : FpuMachine H :=
  let m := m.run L (ints headLoad ++ fsTest t3)
  -- bne t1, t2, 6f
  if m.x t1 ≠ m.x t2 then m else m.run L portcontextRestoreFpuContext

def fullRestore (L : Image) (m : FpuMachine H) : FpuMachine H :=
  let m := headRestore L m
  let m := m.run L (ints (nestingLoad ++ loadGprs (lowGprs ++ highGprs) ++ fullLoadTail))
  -- beqz t2, 7f
  let m := if m.x t2 = 0 then
      m.run L (ints (countOne .portWindowKernelBorrowRestores ++
        countOne .portWindowKernelStageCount))
    else m
  m.run L (ints [.csrw .windowStaged t2])

/-- Up to the `mret` both paths end with. -/
def portcontextRestoreContext (L : Image) (m : FpuMachine H) : FpuMachine H :=
  let m := m.run L (ints restoreHead)
  -- beqz t2, 4f
  if m.x t2 = 0 then fullRestore L m
  else
    let m := m.run L (ints [.loadX t4 (slot portWindowCfgOffset) sp])
    -- bnez t4, 3f
    if m.x t4 ≠ 0 then m.run L (ints minimalRestore)
    else fullRestore L (m.run L (ints (countOne .portWindowInvalidMinimalRestore)))

end

/-- The last line of the FPU block takes `t2` where it has just loaded `t1`. -/
def initialiseStack : List Instr :=
  [.addi a0 a0 (-slot 1),
   .storeX 0 0 a0,
   .addi a0 a0 (-slot 1),
   .storeX 0 0 a0,
   .addi a0 a0 (-slot 1),
   .storeX 0 0 a0,
   .addi a0 a0 (-slot 22),
   .storeX a2 0 a0,
   .addi a0 a0 (-slot 6),
   .loadSym t0 .xTaskReturnAddress,
   .storeX t0 0 a0,
   .csrr t0 .mstatus,
   .andi t0 t0 (~~~0x8#32),
   .addi t1 0 0x188,
   .slli t1 t1 4,
   .or t0 t0 t1,
   .li t1 (~~~mstatusFsMask),
   .and t0 t0 t1,
   .li t1 mstatusFsClean,
   .or t0 t0 t2,
   .addi a0 a0 (-slot 1),
   .storeX t0 0 a0,
   .addi t0 0 0,
   .addi a0 a0 (-slot 1),
   .storeX a1 0 a0]

/-- The memory and the new top of stack; `x7` is what the caller has in `t2`. -/
def pxPortInitialiseStack (L : Image) (mstatus : Word) (mem : Word → Word)
    (pxTopOfStack pxCode pvParameters x7 : Word) : (Word → Word) × Word :=
  let args : Reg → Word := fun r =>
    if r = a0 then pxTopOfStack else if r = a1 then pxCode else if r = a2 then pvParameters
    else if r = t2 then x7 else 0
  let m : Machine Flat := ⟨⟨args, 0⟩, 0, 0, 0, mstatus, mem⟩
  let m := m.run L initialiseStack
  (m.mem, m.x a0)

end Fpu

end RegisterWindows.Port
