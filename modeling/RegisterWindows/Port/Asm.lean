import RegisterWindows.Port.Context

namespace RegisterWindows.Port

def initialiseStack : List Instr :=
  [.addi a0 a0 (-slot 1),
   .storeX 0 0 a0,
   .addi a0 a0 (-slot 1),
   .storeX 0 0 a0,
   .addi a0 a0 (-slot 1),
   .storeX 0 0 a0,
   .addi a0 a0 (-slot 22),
   .storeX a2 0 a0,
   .addi a0 a0 (-slot 6),
   .loadSym t0 .xTaskReturnAddress,
   .storeX t0 0 a0,
   .csrr t0 .mstatus,
   .andi t0 t0 (~~~0x8#32),
   .addi t1 0 0x188,
   .slli t1 t1 4,
   .or t0 t0 t1,
   .addi a0 a0 (-slot 1),
   .storeX t0 0 a0,
   -- portasmADDITIONAL_CONTEXT_SIZE is 0, the chip-specific loop runs zero times
   .addi t0 0 0,
   .addi a0 a0 (-slot 1),
   .storeX a1 0 a0]

/-- The memory and the new top of stack. The routine is called from C with its
arguments in `a0` .. `a2`; it reads no register it has not written itself. -/
def pxPortInitialiseStack (L : Image) (mstatus : Word) (mem : Word → Word)
    (pxTopOfStack pxCode pvParameters : Word) : (Word → Word) × Word :=
  let args : Reg → Word := fun r =>
    if r = a0 then pxTopOfStack else if r = a1 then pxCode else if r = a2 then pvParameters else 0
  let m : Machine Flat := ⟨⟨args, 0⟩, 0, 0, 0, mstatus, mem⟩
  let m := m.run L initialiseStack
  (m.mem, m.x a0)

def startHead : List Instr :=
  [.loadSym sp .pxCurrentTCB,
   .loadX sp 0 sp,
   .loadX t0 (slot portWindowCfgOffset) sp]

/-- `x7` .. `x31` with their frame words. -/
def startGprs : List (Reg × Nat) :=
  [(7, 5), (8, 6), (9, 7), (10, 8), (11, 9), (12, 10), (13, 11), (14, 12), (15, 13), (16, 14),
   (17, 15), (18, 16), (19, 17), (20, 18), (21, 19), (22, 20), (23, 21), (24, 22), (25, 23),
   (26, 24), (27, 25), (28, 26), (29, 27), (30, 28), (31, 29)]

/-- Up to the final `ret`; the first task is entered through `ra`. -/
def startLegacy : List Instr :=
  [.loadX ra (slot 0) sp,
   .loadX t0 (slot 1) sp,
   .addi t0 t0 0x08,
   .csrw .mstatus t0] ++
  loadGprs startGprs ++
  [.loadX t0 (slot portCriticalNestingOffset) sp,
   .loadSym t1 .pxCriticalNesting,
   .storeX t0 0 t1,
   .loadX t0 (slot 3) sp,
   .loadX t1 (slot 4) sp,
   .addi sp sp portContextSize]

/-- From the label `xPortStartFirstTaskWindowed` up to its `mret`. The `t0` staged at the end is
`x5`, which the loads in between have taken from word 3 of the frame. -/
def startWindowed : List Instr :=
  [.li t5 0xFFFF,
   .and t5 t0 t5,
   .la t6 .portCurrentTaskWindowBase,
   .storeX t5 0 t6,
   .loadX t1 (slot 0) sp,
   .loadX t2 (slot 1) sp,
   .addi t2 t2 0x08,
   .loadX t3 (slot portCriticalNestingOffset) sp,
   .loadSym t4 .pxCriticalNesting,
   .storeX t3 0 t4,
   .csrw .mepc t1,
   .csrw .mstatus t2] ++
  loadGprs lowGprs ++
  loadGprs highGprs ++
  [.add 2 sp 0,
   .csrw .windowStaged t0]

section
variable {H : Type} [WindowedCore H]

def xPortStartFirstTaskWindowed (L : Image) (m : Machine H) : Machine H :=
  (m.run L startWindowed).execMret

def xPortStartFirstTask (L : Image) (m : Machine H) : Machine H :=
  let m := m.run L startHead
  -- bnez t0, xPortStartFirstTaskWindowed
  if m.x t0 ≠ 0 then xPortStartFirstTaskWindowed L m
  else
    let m := m.run L startLegacy
    -- ret
    { m with pc := m.x ra }

end

section
variable {H : Type} [Core H]

/-- From the entry to the jump to `handle_interrupt` or `handle_exception`; the
handlers themselves are C code, and `processed_source` is the restore macro. -/
def freertosRiscvTrapHandler (L : Image) (m : Machine H) : Machine H :=
  let m := portcontextSaveContextInternal L m
  let m := m.run L [.csrr a0 .mcause, .csrr a1 .mepc]
  -- bge a0, x0, synchronous_exception
  if (m.x a0).msb = false then
    m.run L [.addi a1 a1 4, .storeX a1 0 sp, .loadSym sp .xISRStackTop]
  else
    m.run L [.storeX a1 0 sp, .loadSym sp .xISRStackTop]

end

end RegisterWindows.Port
