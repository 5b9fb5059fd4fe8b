import RegisterWindows.Port.Start

namespace RegisterWindows.Port
open Machine

/-- The window members of `TCB_t`. Its first member, `pxTopOfStack`, is the memory word
at the task handle. -/
structure Tcb where
  ulPortWindowConfig : Word
  ucPortBorrowKernelWindow : BitVec 8
  ucPortLastContextType : BitVec 8
deriving DecidableEq, Repr

/-- The configuration the two members stand for. -/
def Tcb.effective (t : Tcb) : Word :=
  if t.ucPortBorrowKernelWindow ≠ 0 then 0 else t.ulPortWindowConfig

theorem Tcb.effective_own {t : Tcb} (h : t.ucPortBorrowKernelWindow = 0) :
    t.effective = t.ulPortWindowConfig := if_neg (not_not_intro h)

theorem Tcb.effective_borrowing {t : Tcb} (h : t.ucPortBorrowKernelWindow ≠ 0) :
    t.effective = 0 := if_pos h

/-- A TCB as `memset` leaves it at task creation. -/
def Tcb.zero : Tcb := ⟨0, 0, 0⟩

/-- A hart and the control blocks of the kernel that runs on it. -/
structure Rtos (H : Type) where
  m : Machine H
  tcb : Word → Tcb

abbrev BaseType := Word

def pdFALSE : BaseType := 0
def pdTRUE : BaseType := 1

section
variable {H : Type}

def portEnterCritical (L : Image) (m : Machine H) : Machine H :=
  let m := { m with mstatus := m.mstatus &&& ~~~0x8#32 }
  m.store (L.addr .xCriticalNesting) (m.mem (L.addr .xCriticalNesting) + 1)

def portExitCritical (L : Image) (m : Machine H) : Machine H :=
  let m := m.store (L.addr .xCriticalNesting) (m.mem (L.addr .xCriticalNesting) - 1)
  if m.mem (L.addr .xCriticalNesting) = 0 then { m with mstatus := m.mstatus ||| 0x8#32 } else m

namespace Rtos

def prvGetTCBFromHandle (L : Image) (k : Rtos H) (pxHandle : Word) : Word :=
  if pxHandle = 0 then k.m.mem (L.addr .pxCurrentTCB) else pxHandle

/-- `none` is the endless loop of a failed `configASSERT`. -/
def vTaskSetWindowingContext (L : Image) (k : Rtos H) (xTask ulWindowConfig : Word)
    (xBorrowKernelWindow : BaseType) : Option (Rtos H) :=
  let pxTCB := k.prvGetTCBFromHandle L xTask
  if pxTCB = 0 then none
  else
    let m := portEnterCritical L k.m
    let t := { k.tcb pxTCB with
      ulPortWindowConfig := ulWindowConfig
      ucPortBorrowKernelWindow := if xBorrowKernelWindow ≠ pdFALSE then 1 else 0 }
    some ⟨portExitCritical L m, Function.update k.tcb pxTCB t⟩

/-- The three results, `none` standing for the return value `pdFALSE`. -/
def xTaskGetWindowingContext (L : Image) (k : Rtos H) (xTask : Word) :
    Rtos H × Option (Word × BaseType × BitVec 8) :=
  let pxTCB := k.prvGetTCBFromHandle L xTask
  if pxTCB ≠ 0 then
    let t := k.tcb pxTCB
    ({ k with m := portExitCritical L (portEnterCritical L k.m) },
      some (t.ulPortWindowConfig, if t.ucPortBorrowKernelWindow ≠ 0 then pdTRUE else pdFALSE,
        t.ucPortLastContextType))
  else (k, none)

/-- `if( pxTopOfStack != NULL ) pxTopOfStack[ portWINDOW_CFG_OFFSET ] = v` -/
def writeFrameCfg (k : Rtos H) (xTask v : Word) : Rtos H :=
  let pxTopOfStack := k.m.mem xTask
  if pxTopOfStack ≠ 0 then { k with m := k.m.store (pxTopOfStack + slot portWindowCfgOffset) v }
  else k

def vPortTaskSetRegisterWindow (L : Image) (k : Rtos H) (xTask ulBase ulSize : Word) :
    Option (Rtos H) :=
  if xTask = 0 then some k
  else
    let ulWindowConfig := Window.pack ulBase ulSize
    (k.vTaskSetWindowingContext L xTask ulWindowConfig pdFALSE).map fun k =>
      k.writeFrameCfg xTask ulWindowConfig

def vPortTaskSetKernelBorrowing (L : Image) (k : Rtos H) (xTask : Word) (xEnable : BaseType) :
    Option (Rtos H) :=
  if xTask = 0 then some k
  else
    let (k, ulWindowConfig) : Rtos H × Word :=
      if xEnable = pdFALSE then
        match k.xTaskGetWindowingContext L xTask with
        | (k, some (cfg, _, _)) => (k, cfg)
        | (k, none) => (k, 0)
      else (k, 0)
    (k.vTaskSetWindowingContext L xTask ulWindowConfig xEnable).map fun k =>
      k.writeFrameCfg xTask (if xEnable ≠ pdFALSE then 0 else ulWindowConfig)

/-- What either call does to a task with handle `T`: the TCB members become `cfg` and
`borrow`, and so does the window word of the frame its TCB points at. -/
structure Assigned (k k' : Rtos H) (T cfg : Word) (borrow : BitVec 8) : Prop where
  core : k'.m.core = k.m.core
  pc : k'.m.pc = k.m.pc
  tcb : k'.tcb = Function.update k.tcb T
    { k.tcb T with ulPortWindowConfig := cfg, ucPortBorrowKernelWindow := borrow }
  mem : k'.m.mem = if k.m.mem T = 0 then k.m.mem
    else Function.update k.m.mem (k.m.mem T + slot portWindowCfgOffset) cfg

theorem exit_enter_critical (L : Image) (m : Machine H) :
    portExitCritical L (portEnterCritical L m) = { m with
      mstatus := if m.mem (L.addr .xCriticalNesting) = 0
        then (m.mstatus &&& ~~~0x8#32) ||| 0x8#32 else m.mstatus &&& ~~~0x8#32 } := by
  have hback (v : Word) : v + 1 - 1 = v := BitVec.add_sub_cancel v 1
  simp only [portExitCritical, portEnterCritical, Machine.store, Function.update_self, hback,
    Function.update_idem, Function.update_eq_self]
  split <;> rfl

theorem vTaskSetWindowingContext_of_ne (L : Image) (k : Rtos H) {T : Word} (hT : T ≠ 0)
    (cfg : Word) (b : BaseType) :
    ∃ k', k.vTaskSetWindowingContext L T cfg b = some k' ∧ k'.m.core = k.m.core ∧
      k'.m.pc = k.m.pc ∧ k'.m.mem = k.m.mem ∧
      k'.tcb = Function.update k.tcb T { k.tcb T with
        ulPortWindowConfig := cfg, ucPortBorrowKernelWindow := if b ≠ pdFALSE then 1 else 0 } := by
  simp only [vTaskSetWindowingContext, prvGetTCBFromHandle, if_neg hT, exit_enter_critical]
  exact ⟨_, rfl, rfl, rfl, rfl, rfl⟩

theorem writeFrameCfg_spec (k : Rtos H) (T v : Word) :
    (k.writeFrameCfg T v).m.core = k.m.core ∧ (k.writeFrameCfg T v).m.pc = k.m.pc ∧
    (k.writeFrameCfg T v).tcb = k.tcb ∧ (k.writeFrameCfg T v).m.mem = if k.m.mem T = 0 then k.m.mem
      else Function.update k.m.mem (k.m.mem T + slot portWindowCfgOffset) v := by
  by_cases h : k.m.mem T = 0
  · simp only [writeFrameCfg, h, ne_eq, not_true_eq_false, if_false, if_true, and_self]
  · simp only [writeFrameCfg, h, ne_eq, not_false_eq_true, if_false, if_true, mem_store, core_store,
      true_and, and_true]
    rfl

/-- Neither call does anything to a null handle. -/
theorem vPortTaskSetRegisterWindow_null (L : Image) (k : Rtos H) (ulBase ulSize : Word) :
    k.vPortTaskSetRegisterWindow L 0 ulBase ulSize = some k := rfl

theorem vPortTaskSetKernelBorrowing_null (L : Image) (k : Rtos H) (xEnable : BaseType) :
    k.vPortTaskSetKernelBorrowing L 0 xEnable = some k := rfl

theorem vPortTaskSetRegisterWindow_spec (L : Image) (k : Rtos H) {T : Word} (hT : T ≠ 0)
    (ulBase ulSize : Word) :
    ∃ k', k.vPortTaskSetRegisterWindow L T ulBase ulSize = some k' ∧
      Assigned k k' T (Window.pack ulBase ulSize) 0 := by
  obtain ⟨k1, h1, hcore, hpc, hmem, htcb⟩ :=
    vTaskSetWindowingContext_of_ne L k hT (Window.pack ulBase ulSize) pdFALSE
  obtain ⟨hcore', hpc', htcb', hmem'⟩ := writeFrameCfg_spec k1 T (Window.pack ulBase ulSize)
  refine ⟨k1.writeFrameCfg T (Window.pack ulBase ulSize),
    by simp only [vPortTaskSetRegisterWindow, if_neg hT, h1, Option.map_some], ?_⟩
  exact ⟨hcore'.trans hcore, hpc'.trans hpc, by rw [htcb', htcb]; simp,
    by rw [hmem', hmem]⟩

/-- Enabling the borrowing forgets the dedicated window: both members and the frame
word are built from the 0 the local variable starts with. -/
theorem vPortTaskSetKernelBorrowing_spec (L : Image) (k : Rtos H) {T : Word} (hT : T ≠ 0)
    (xEnable : BaseType) :
    ∃ k', k.vPortTaskSetKernelBorrowing L T xEnable = some k' ∧
      Assigned k k' T (if xEnable = pdFALSE then (k.tcb T).ulPortWindowConfig else 0)
        (if xEnable = pdFALSE then 0 else 1) := by
  by_cases hb : xEnable = pdFALSE
  · have hget : k.xTaskGetWindowingContext L T =
        ({ k with m := portExitCritical L (portEnterCritical L k.m) },
          some ((k.tcb T).ulPortWindowConfig,
            if (k.tcb T).ucPortBorrowKernelWindow ≠ 0 then pdTRUE else pdFALSE,
            (k.tcb T).ucPortLastContextType)) := by
      simp only [xTaskGetWindowingContext, prvGetTCBFromHandle, ne_eq, hT, not_false_eq_true,
        if_true, if_false]
    obtain ⟨k1, h1, hcore, hpc, hmem, htcb⟩ := vTaskSetWindowingContext_of_ne L
      { k with m := portExitCritical L (portEnterCritical L k.m) } hT
      (k.tcb T).ulPortWindowConfig xEnable
    simp only [exit_enter_critical] at hcore hpc hmem htcb
    obtain ⟨hcore', hpc', htcb', hmem'⟩ :=
      writeFrameCfg_spec k1 T (k.tcb T).ulPortWindowConfig
    refine ⟨k1.writeFrameCfg T (k.tcb T).ulPortWindowConfig, ?_, ?_⟩
    · simp only [vPortTaskSetKernelBorrowing, if_neg hT, hget, hb, ne_eq,
        not_true_eq_false, if_false, if_true]
      rw [← hb, h1]
      rfl
    · simp only [if_pos hb]
      exact ⟨hcore'.trans hcore, hpc'.trans hpc, by rw [htcb', htcb]; simp [hb],
        by rw [hmem', hmem]⟩
  · obtain ⟨k1, h1, hcore, hpc, hmem, htcb⟩ := vTaskSetWindowingContext_of_ne L k hT 0 xEnable
    obtain ⟨hcore', hpc', htcb', hmem'⟩ := writeFrameCfg_spec k1 T 0
    refine ⟨k1.writeFrameCfg T 0, ?_, ?_⟩
    · simp only [vPortTaskSetKernelBorrowing, if_neg hT, h1, Option.map_some, hb, ne_eq,
        not_false_eq_true, if_true, if_false]
    · simp only [if_neg hb]
      exact ⟨hcore'.trans hcore, hpc'.trans hpc, by rw [htcb', htcb]; simp [hb],
        by rw [hmem', hmem]⟩

end Rtos

end

end RegisterWindows.Port
