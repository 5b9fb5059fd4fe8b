import RegisterWindows.Lib.Run
import RegisterWindows.Port.Api

namespace RegisterWindows
open Machine Port

/-- Who executes: code before the scheduler starts, a task, or a trap handler. -/
inductive Mode where
  | boot
  | task
  | handler
deriving DecidableEq, Repr

/-- Who wrote a task's frame last. -/
inductive FrameKind where
  | initial
  | full
  | minimal
deriving DecidableEq, Repr

structure System (H : Type) extends Rtos H where
  /-- Handles of the tasks created so far. -/
  created : List Word
  mode : Mode
  /-- History: the `window_cfg` word of the frame the running task was entered from. -/
  granted : Word
  /-- History: which code wrote the frame of each task. -/
  kind : Word → FrameKind

inductive Event where
  /-- An instruction writes a register. -/
  | reg (r : Reg) (v : Word)
  /-- An instruction writes a memory word that belongs to the code that runs. -/
  | store (a v : Word)
  | jump (pc : Word)
  | mstatus (v : Word)
  /-- `xCriticalNesting` is set by kernel code. -/
  | nesting (v : Word)
  /-- A trap into the trap handler, up to the call of the C handler. -/
  | trap (cause : Word)
  /-- `vTaskSwitchContext`, or the choice of the first task. -/
  | switch (T : Word)
  /-- `portcontextRESTORE_CONTEXT`. -/
  | dispatch
  /-- `xPortStartFirstTask`. -/
  | start
  /-- Task creation, with the stack that `pxPortInitialiseStack` is given. -/
  | create (T pxTopOfStack pxCode pvParameters : Word)
  | setWindow (xTask ulBase ulSize : Word)
  | setBorrowing (xTask : Word) (xEnable : BaseType)
deriving DecidableEq, Repr

/-- The calls of the window API on one task. -/
def Event.assignsTo (T : Word) : Event → Bool
  | .setWindow U _ _ => U == T
  | .setBorrowing U _ => U == T
  | _ => false

/-- The two ways to enter the current task. -/
def Event.enters : Event → Bool
  | .dispatch => true
  | .start => true
  | _ => false

/-- Neither a trap, nor an entry into a task, nor a choice of the current task. -/
def Event.plain : Event → Bool
  | .trap _ => false
  | .switch _ => false
  | .dispatch => false
  | .start => false
  | _ => true

namespace System
open WindowedCore LawfulCore

variable {H : Type}

def current (L : Image) (s : System H) : Word := s.m.mem (L.addr .pxCurrentTCB)

/-- Where the TCB of a task says that its frame is. -/
def frameOf (s : System H) (T : Word) : Word := s.m.mem T

/-- The head of that frame. -/
def head (s : System H) (T : Word) : FrameHead := headAt s.m.mem (s.frameOf T)

/-- A task whose context is in its frame. -/
def SwitchedOut (L : Image) (s : System H) (T : Word) : Prop := s.mode = .task → T ≠ s.current L

/-- Code writes its own stack, its data, and buffers that are no task's stack yet. -/
def mayStore (L : Image) (s : System H) (a : Word) : Bool :=
  match L.region a with
  | .other => true
  | .stack h => !s.created.contains h || (s.mode == .task && h == s.current L)
  | .sym _ => false
  | .tcb _ => false

instance (L : Image) (h f : Word) : Decidable (InStack L h f) :=
  inferInstanceAs (Decidable (∀ k < 33, _))

variable [WindowedCore H]

/-- The frame a trap taken now would push, as the handler's `sp` has it. -/
def nextFrame (s : System H) : Word := pushed (Machine.x { s.m with core := trap s.m.core } sp)

def step (L : Image) (s : System H) : Event → Option (System H)
  | .reg r v => some { s with m := s.m.setX r v }
  | .store a v => if s.mayStore L a then some { s with m := s.m.store a v } else none
  | .jump pc => some { s with m := { s.m with pc := pc } }
  | .mstatus v => some { s with m := { s.m with mstatus := v } }
  | .nesting v => some { s with m := s.m.store (L.addr .xCriticalNesting) v }
  | .trap cause =>
    -- the stack of the task has room for a frame
    if s.mode = .task ∧ InStack L (s.current L) s.nextFrame then
      some { s with
        m := freertosRiscvTrapHandler L (s.m.takeTrap cause)
        mode := .handler
        kind := Function.update s.kind (s.current L)
          (if s.m.mem (L.addr .portCurrentTaskWindowBase) = 0 then .full else .minimal) }
    else none
  | .switch T =>
    if s.mode ≠ .task ∧ T ∈ s.created then
      some { s with m := s.m.store (L.addr .pxCurrentTCB) T }
    else none
  | .dispatch =>
    if s.mode = .handler then
      some { s with
        m := (portcontextRestoreContext L s.m).execMret
        mode := .task
        granted := (s.head (s.current L)).windowCfg }
    else none
  | .start =>
    if s.mode = .boot ∧ s.current L ∈ s.created then
      some { s with
        m := xPortStartFirstTask L s.m
        mode := .task
        granted := (s.head (s.current L)).windowCfg }
    else none
  | .create T pxTopOfStack pxCode pvParameters =>
    if s.mode ≠ .handler ∧ T ∉ s.created ∧ L.region T = .tcb T ∧
        InStack L T (pushed pxTopOfStack) then
      let (mem, pxNewTop) :=
        pxPortInitialiseStack L s.m.mstatus s.m.mem pxTopOfStack pxCode pvParameters
      some { s with
        m := { s.m with mem := Function.update mem T pxNewTop }
        tcb := Function.update s.tcb T Tcb.zero
        created := T :: s.created
        kind := Function.update s.kind T .initial }
    else none
  | .setWindow xTask ulBase ulSize =>
    if xTask = 0 ∨ xTask ∈ s.created then
      (s.toRtos.vPortTaskSetRegisterWindow L xTask ulBase ulSize).map fun k =>
        { s with toRtos := k }
    else none
  | .setBorrowing xTask xEnable =>
    if xTask = 0 ∨ xTask ∈ s.created then
      (s.toRtos.vPortTaskSetKernelBorrowing L xTask xEnable).map fun k => { s with toRtos := k }
    else none

/-- The state in which `main` starts: the C globals have their initial values. -/
structure Boot (L : Image) (s : System H) : Prop where
  mode : s.mode = .boot
  kernel : s.m.Kernel
  created : s.created = []
  nestingPtr : s.m.mem (L.addr .pxCriticalNesting) = L.addr .xCriticalNesting
  flag : s.m.mem (L.addr .portCurrentTaskWindowBase) = 0
  invalid : s.m.mem (L.addr .portWindowInvalidMinimalRestore) = 0

/-- What every run keeps: the layout of the kernel objects, and the kernel window
outside tasks. -/
structure Wf (L : Image) (s : System H) : Prop where
  nestingPtr : s.m.mem (L.addr .pxCriticalNesting) = L.addr .xCriticalNesting
  tcb : ∀ T ∈ s.created, L.region T = .tcb T
  frame : ∀ T ∈ s.created, InStack L T (s.frameOf T)
  current : s.mode ≠ .boot → s.current L ∈ s.created
  kernel : s.mode ≠ .task → s.m.Kernel

/-- The objects an event may write. -/
def Writes (L : Image) (s : System H) : Event → Region → Prop
  | .store _ _, r => r = .other ∨
      ∃ h, r = .stack h ∧ (h ∉ s.created ∨ (s.mode = .task ∧ h = s.current L))
  | .nesting _, r => r = .sym .xCriticalNesting
  | .trap _, r => r = .tcb (s.current L) ∨ r = .stack (s.current L)
  | .switch _, r => r = .sym .pxCurrentTCB
  | .dispatch, r => ∃ x ∈ restoreWrites, r = .sym x
  | .start, r => ∃ x ∈ restoreWrites, r = .sym x
  | .create T _ _ _, r => r = .tcb T ∨ r = .stack T
  | .setWindow T _ _, r => r = .stack T
  | .setBorrowing T _, r => r = .stack T
  | .reg _ _, _ => False
  | .jump _, _ => False
  | .mstatus _, _ => False

variable {L : Image} {s s' : System H}

structure Trapped (L : Image) (s : System H) (cause : Word) (s' : System H) : Prop where
  was : s.mode = .task
  room : InStack L (s.current L) s.nextFrame
  eq : s' = { s with
    m := freertosRiscvTrapHandler L (s.m.takeTrap cause)
    mode := .handler
    kind := Function.update s.kind (s.current L)
      (if s.m.mem (L.addr .portCurrentTaskWindowBase) = 0 then .full else .minimal) }
  saved : Saved L (s.m.takeTrap cause) s'.m
  run : KernelRun (s.m.takeTrap cause) s'.m (freertosRiscvTrapHandler L (s.m.takeTrap cause).view)

structure Dispatched (L : Image) (s s' : System H) : Prop where
  was : s.mode = .handler
  eq : s' = { s with
    m := (portcontextRestoreContext L s.m).execMret
    mode := .task
    granted := (s.head (s.current L)).windowCfg }
  restored : Restored L (s.frameOf (s.current L)) s.m (portcontextRestoreContext L s.m)
  run : KernelRun s.m (portcontextRestoreContext L s.m) (portcontextRestoreContext L s.m.view)

structure Started (L : Image) (s s' : System H) : Prop where
  was : s.mode = .boot
  created : s.current L ∈ s.created
  eq : s' = { s with
    m := xPortStartFirstTask L s.m
    mode := .task
    granted := (s.head (s.current L)).windowCfg }
  paths :
    ((s.head (s.current L)).windowCfg ≠ 0 ∧ ∃ m', s'.m = m'.execMret ∧
      StartedWindowed L (s.frameOf (s.current L)) s.m m' ∧ ∃ n, KernelRun s.m m' n) ∨
    ((s.head (s.current L)).windowCfg = 0 ∧ ∃ m', s'.m = { m' with pc := m'.x ra } ∧
      StartedLegacy L (s.frameOf (s.current L)) s.m m' ∧ ∃ n, KernelRun s.m m' n)

structure Created (L : Image) (s : System H) (T top pxCode params : Word) (s' : System H) :
    Prop where
  mode : s.mode ≠ .handler
  fresh : T ∉ s.created
  tcb : L.region T = .tcb T
  stack : InStack L T (pushed top)
  eq : s' = { s with
    m := { s.m with mem := s'.m.mem }
    tcb := Function.update s.tcb T Tcb.zero
    created := T :: s.created
    kind := Function.update s.kind T .initial }
  frame : s'.frameOf T = pushed top
  init : ∃ mem, s'.m.mem = Function.update mem T (pushed top) ∧
    Initialised L s.m.mstatus s.m.mem (pushed top) pxCode params mem

/-- The configuration and the borrowing member that an API call sets. -/
def assignedCfg (s : System H) : Event → Word
  | .setWindow _ ulBase ulSize => Window.pack ulBase ulSize
  | .setBorrowing T xEnable => if xEnable = pdFALSE then (s.tcb T).ulPortWindowConfig else 0
  | _ => 0

def assignedBorrow : Event → BitVec 8
  | .setBorrowing _ xEnable => if xEnable = pdFALSE then 0 else 1
  | _ => 0

/-- A call of the window API with a handle that is not `NULL`. -/
structure Assigns (s : System H) (e : Event) (T : Word) (s' : System H) : Prop where
  target : e.assignsTo T = true
  created : T ∈ s.created
  eq : s' = { s with toRtos := s'.toRtos }
  assigned : Rtos.Assigned s.toRtos s'.toRtos T (s.assignedCfg e) (assignedBorrow e)

theorem Wf.room (hw : s.Wf L) {f : Word} (hc : s.current L ∈ s.created)
    (hf : InStack L (s.current L) f) : Room L s.m.mem (s.current L) f :=
  ⟨hw.tcb _ hc, hf⟩

section
variable [LawfulCore H]

theorem step_trap (hw : s.Wf L) {cause : Word} (h : step L s (.trap cause) = some s') :
    Trapped L s cause s' := by
  simp only [step] at h
  split at h
  · rename_i hg
    have hc := hw.current (by rw [hg.1]; decide)
    have hk : (s.m.takeTrap cause).Kernel := active_trap _
    cases h
    exact ⟨hg.1, hg.2, rfl, freertosRiscvTrapHandler_spec L hk (hw.room hc hg.2),
      kernelRun_trapHandler L hk⟩
  · cases h

theorem step_dispatch (hw : s.Wf L) (h : step L s .dispatch = some s') :
    Dispatched L s s' := by
  simp only [step] at h
  split at h
  · rename_i hg
    have hc := hw.current (by rw [hg]; decide)
    have hk := hw.kernel (by rw [hg]; decide)
    cases h
    exact ⟨hg, rfl, portcontextRestoreContext_spec L hk (hw.room hc (hw.frame _ hc)) rfl
      hw.nestingPtr, kernelRun_restore L hk⟩
  · cases h

theorem started_of_step (hker : s.mode = .boot → s.m.Kernel)
    (hframe : ∀ T ∈ s.created, FreeFrame L (s.frameOf T))
    (hptr : s.m.mem (L.addr .pxCriticalNesting) = L.addr .xCriticalNesting)
    (h : step L s .start = some s') : Started L s s' := by
  simp only [step] at h
  split at h
  · rename_i hg
    have hk := hker hg.1
    have hin := hframe _ hg.2
    cases h
    refine ⟨hg.1, hg.2, rfl, ?_⟩
    have ht0 : (s.m.run L startHead).x t0 = (s.head (s.current L)).windowCfg :=
      startHead_t0 L hk rfl
    by_cases hc : (s.head (s.current L)).windowCfg = 0
    · refine Or.inr ⟨hc, (s.m.run L startHead).run L startLegacy, ?_,
        startLegacy_spec L hk rfl hptr, _, kernelRun_start L hk startLegacy⟩
      simp only [xPortStartFirstTask, ht0]
      rw [if_neg (not_not_intro hc)]
    · refine Or.inl ⟨hc, (s.m.run L startHead).run L startWindowed, ?_,
        startWindowed_spec L hk hin rfl hptr, _, kernelRun_start L hk startWindowed⟩
      simp only [xPortStartFirstTask, ht0]
      rw [if_pos hc, xPortStartFirstTaskWindowed]
  · cases h

theorem step_start (hw : s.Wf L) (h : step L s .start = some s') : Started L s s' :=
  started_of_step (fun hm => hw.kernel (by rw [hm]; decide)) (fun T hT => (hw.frame T hT).free)
    hw.nestingPtr h

omit [LawfulCore H] in
theorem step_create {T top pxCode params : Word}
    (h : step L s (.create T top pxCode params) = some s') :
    Created L s T top pxCode params s' := by
  simp only [step] at h
  split at h
  · rename_i hg
    obtain ⟨hmode, hfresh, htcb, hin⟩ := hg
    obtain ⟨htop, hinit⟩ := pxPortInitialiseStack_spec L s.m.mstatus s.m.mem top pxCode params hin
    cases h
    refine ⟨hmode, hfresh, htcb, hin, rfl, ?_, _, by simp only [htop], hinit⟩
    simp only [frameOf, htop, Function.update_self]
  · cases h

omit [LawfulCore H] in
theorem Wf.ne_zero (hw : s.Wf L) {T : Word} (hT : T ∈ s.created) : T ≠ 0 := by
  rintro rfl
  have := hw.tcb 0 hT
  rw [L.region_null] at this
  cases this

omit [LawfulCore H] in
theorem step_setWindow {T ulBase ulSize : Word}
    (h : step L s (.setWindow T ulBase ulSize) = some s') :
    (T = 0 ∧ s' = s) ∨ Assigns s (.setWindow T ulBase ulSize) T s' := by
  simp only [step] at h
  split at h
  · rename_i hg
    by_cases hT : T = 0
    · subst hT
      rw [Rtos.vPortTaskSetRegisterWindow_null] at h
      cases h
      exact Or.inl ⟨rfl, rfl⟩
    · obtain ⟨k, hk, ha⟩ := Rtos.vPortTaskSetRegisterWindow_spec L s.toRtos hT ulBase ulSize
      rw [hk] at h
      cases h
      exact Or.inr ⟨by simp [Event.assignsTo], hg.resolve_left hT, rfl, ha⟩
  · cases h

omit [LawfulCore H] in
theorem step_setBorrowing {T : Word} {xEnable : BaseType}
    (h : step L s (.setBorrowing T xEnable) = some s') :
    (T = 0 ∧ s' = s) ∨ Assigns s (.setBorrowing T xEnable) T s' := by
  simp only [step] at h
  split at h
  · rename_i hg
    by_cases hT : T = 0
    · subst hT
      rw [Rtos.vPortTaskSetKernelBorrowing_null] at h
      cases h
      exact Or.inl ⟨rfl, rfl⟩
    · obtain ⟨k, hk, ha⟩ := Rtos.vPortTaskSetKernelBorrowing_spec L s.toRtos hT xEnable
      rw [hk] at h
      cases h
      exact Or.inr ⟨by simp [Event.assignsTo], hg.resolve_left hT, rfl, ha⟩
  · cases h

end

end System

/-- The globals in the first page, TCBs in the second, and after it a page of stack for each
of the tasks `0x1000`, `0x1100` and `0x1200`. -/
def smallLayout : List Sym :=
  [.pxCurrentTCB, .xISRStackTop, .xCriticalNesting, .pxCriticalNesting, .xTaskReturnAddress,
   .portCurrentTaskWindowBase, .portWindowInvalidMinimalRestore, .portWindowKernelBorrowRestores,
   .portWindowKernelStageCount]

def smallImage : Image where
  addr s := BitVec.ofNat 32 (4 * (smallLayout.idxOf s + 1))
  region a :=
    let page := a.toNat / 0x1000
    if a = 0 then .other
    else if page = 0 then (smallLayout[a.toNat / 4 - 1]?).elim .other .sym
    else if page = 1 then .tcb a
    else if page < 5 then .stack (BitVec.ofNat 32 (0x1000 + 0x100 * (page - 2)))
    else .other
  region_addr s := by cases s <;> decide
  region_null := rfl

/-- `.data` and `.bss` before `main`. -/
def smallData (a : Word) : Word :=
  if a = smallImage.addr .pxCriticalNesting then smallImage.addr .xCriticalNesting
  else if a = smallImage.addr .xISRStackTop then 0x6000
  else if a = smallImage.addr .xTaskReturnAddress then 0x700
  else 0

def System.small {H : Type} (core : H) : System H where
  m := ⟨core, 0, 0, 0, 0, smallData⟩
  tcb _ := Tcb.zero
  created := []
  mode := .boot
  granted := 0
  kind _ := .initial

theorem System.boot_small {H : Type} [WindowedCore H] {core : H}
    (hk : WindowedCore.active core = Window.kernel) : (System.small core).Boot smallImage where
  mode := rfl
  kernel := hk
  created := rfl
  nestingPtr := (by decide :
    smallData (smallImage.addr .pxCriticalNesting) = smallImage.addr .xCriticalNesting)
  flag := (by decide : smallData (smallImage.addr .portCurrentTaskWindowBase) = 0)
  invalid := (by decide : smallData (smallImage.addr .portWindowInvalidMinimalRestore) = 0)

end RegisterWindows
