import RegisterWindows.Core

namespace RegisterWindows.Port

@[simp] abbrev ra : Reg := 1
@[simp] abbrev sp : Reg := 2
@[simp] abbrev t0 : Reg := 5
@[simp] abbrev t1 : Reg := 6
@[simp] abbrev t2 : Reg := 7
@[simp] abbrev a0 : Reg := 10
@[simp] abbrev a1 : Reg := 11
@[simp] abbrev a2 : Reg := 12
@[simp] abbrev t3 : Reg := 28
@[simp] abbrev t4 : Reg := 29
@[simp] abbrev t5 : Reg := 30
@[simp] abbrev t6 : Reg := 31

def portWordSize : Nat := 4
@[simp] def portCriticalNestingOffset : Nat := 30
@[simp] def portWindowCfgOffset : Nat := 31
@[simp] def portContextTypeOffset : Nat := 32

/-- Byte offset of word `k` of a frame. -/
def slot (k : Nat) : Word := BitVec.ofNat 32 (k * portWordSize)

def portContextSize : Word := slot 33

/-- `x1` and `x5` .. `x29` with their frame words, in the order of the macros. -/
def lowGprs : List (Reg × Nat) :=
  [(1, 2), (5, 3), (6, 4), (7, 5), (8, 6), (9, 7), (10, 8), (11, 9), (12, 10), (13, 11),
   (14, 12), (15, 13), (16, 14), (17, 15), (18, 16), (19, 17), (20, 18), (21, 19), (22, 20),
   (23, 21), (24, 22), (25, 23), (26, 24), (27, 25), (28, 26), (29, 27)]

/-- `x30` and `x31`, which the save stores first and the restore loads last. -/
def highGprs : List (Reg × Nat) := [(30, 28), (31, 29)]

def storeGprs (gprs : List (Reg × Nat)) : List Instr :=
  gprs.map (fun g => .storeX g.1 (slot g.2) sp)

def loadGprs (gprs : List (Reg × Nat)) : List Instr :=
  gprs.map (fun g => .loadX g.1 (slot g.2) sp)

def windowBaseTest : List Instr :=
  [.la t0 .portCurrentTaskWindowBase,
   .loadX t0 0 t0]

def fullSave : List Instr :=
  [.addi sp sp (-portContextSize)] ++
  storeGprs highGprs ++
  storeGprs lowGprs ++
  [.loadSym t0 .xCriticalNesting,
   .storeX t0 (slot portCriticalNestingOffset) sp,
   .csrr t0 .mstatus,
   .storeX t0 (slot 1) sp,
   .storeX 0 (slot portWindowCfgOffset) sp,
   .storeX 0 (slot portContextTypeOffset) sp,
   .loadSym t0 .pxCurrentTCB,
   .storeX sp 0 t0]

def minimalSave : List Instr :=
  [.addi sp sp (-portContextSize),
   .csrr t0 .mstatus,
   .storeX t0 (slot 1) sp,
   .loadSym t0 .xCriticalNesting,
   .storeX t0 (slot portCriticalNestingOffset) sp,
   .csrr t0 .windowStaged,
   .storeX t0 (slot portWindowCfgOffset) sp,
   .addi t0 0 1,
   .storeX t0 (slot portContextTypeOffset) sp,
   .loadSym t0 .pxCurrentTCB,
   .storeX sp 0 t0]

section
variable {H : Type} [Core H]

/-- `portContext.h` is built for RV32I with windows and minimal save enabled, and without FPU, VPU
or `CYCLE_BREAKDOWN_PROFILE`. -/
def portcontextSaveContextInternal (L : Image) (m : Machine H) : Machine H :=
  let m := m.run L windowBaseTest
  -- bnez t0, 1f
  if m.x t0 ≠ 0 then m.run L minimalSave else m.run L fullSave

end

def restoreHead : List Instr :=
  [.loadSym t1 .pxCurrentTCB,
   .loadX sp 0 t1,
   .loadX t0 (slot portWindowCfgOffset) sp,
   .li t5 0xFFFF,
   .and t0 t0 t5,
   .la t5 .portCurrentTaskWindowBase,
   .storeX t0 0 t5,
   .loadX t2 (slot portContextTypeOffset) sp]

def countOne (counter : Sym) : List Instr :=
  [.la t5 counter,
   .loadX t6 0 t5,
   .addi t6 t6 1,
   .storeX t6 0 t5]

/-- From label 4 to the window staging. -/
def fullLoad : List Instr :=
  [.loadX t0 (slot 0) sp,
   .csrw .mepc t0,
   .loadX t3 (slot 1) sp,
   .csrw .mstatus t3,
   .loadX t0 (slot portCriticalNestingOffset) sp,
   .loadSym t1 .pxCriticalNesting,
   .storeX t0 0 t1] ++
  loadGprs lowGprs ++
  loadGprs highGprs ++
  [.addi sp sp portContextSize,
   .addi t4 sp (-portContextSize),
   .loadX t2 (slot portWindowCfgOffset) t4]

/-- Label 3, up to its `mret`. -/
def minimalRestore : List Instr :=
  [.loadX t0 (slot 0) sp,
   .csrw .mepc t0,
   .loadX t3 (slot 1) sp,
   .csrw .mstatus t3,
   .loadX t0 (slot portWindowCfgOffset) sp,
   .csrw .windowStaged t0,
   .loadX t0 (slot portCriticalNestingOffset) sp,
   .loadSym t1 .pxCriticalNesting,
   .storeX t0 0 t1,
   .addi sp sp portContextSize]

section
variable {H : Type} [Core H]

def fullRestore (L : Image) (m : Machine H) : Machine H :=
  let m := m.run L fullLoad
  -- beqz t2, 7f: label 7 counts a kernel-window restore and jumps back to label 6
  let m := if m.x t2 = 0 then
      (m.run L (countOne .portWindowKernelBorrowRestores)).run L
        (countOne .portWindowKernelStageCount)
    else m
  m.run L [.csrw .windowStaged t2]

/-- Up to the `mret` both paths end with. -/
def portcontextRestoreContext (L : Image) (m : Machine H) : Machine H :=
  let m := m.run L restoreHead
  -- beqz t2, 4f
  if m.x t2 = 0 then fullRestore L m
  else
    let m := m.run L [.loadX t4 (slot portWindowCfgOffset) sp]
    -- bnez t4, 3f
    if m.x t4 ≠ 0 then m.run L minimalRestore
    else fullRestore L (m.run L (countOne .portWindowInvalidMinimalRestore))

end

end RegisterWindows.Port
