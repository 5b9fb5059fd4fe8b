import RegisterWindows.Lib.Run
import RegisterWindows.Research.Asm

namespace RegisterWindows.Research.Cooperative
open RegisterWindows.Core WindowedCore LawfulCore Port Hart

structure Globals where
  tcb : TaskId → Tcb
  currentTask : TaskId

/-- The addresses of the two TCBs, and of the instruction after `call run_scheduler`. -/
structure Image where
  tcb : TaskId → Word
  back : Word

/-- `run_scheduler`, compiled. -/
def runScheduler {H : Type} [Core H] (L : Image) (o : Leftover) (m : Hart H Globals) :
    Hart H Globals :=
  let current := m.globals.currentTask
  let tcb := Function.update m.globals.tcb current { m.globals.tcb current with pc := m.x a0 }
  let next := current.next
  { (m.writeCsr .windowStaged (tcb next).windowCfg).returns o (tcb next).pc with
    mem := o.mem
    mscratch := L.tcb next
    globals := ⟨tcb, next⟩ }

def trapEntry : Asm := .block
  [.csrr a0 .mepc,
   .addi a0 a0 4,
   .call,
   .csrw .mepc a0]

/-- What a task has done when it comes to its next `ecall`, and what `run_scheduler` leaves behind
after that. -/
structure Turn where
  pc : Word
  regs : Reg → Word
  mem : Word → Word
  left : Leftover

/-- The `pc` of an `ecall`, and the registers at it. -/
structure Context where
  pc : Word
  regs : Reg → Word

structure System (H : Type) where
  hart : Hart H Globals
  /-- History: each task at its last `ecall`. -/
  last : TaskId → Option Context

section
variable {H : Type}

/-- A task writes registers of its window, and memory. -/
def atEcall [Core H] (m : Hart H Globals) (e : Turn) : Hart H Globals :=
  { m.setRegs (List.finRange 32) e.regs with pc := e.pc, mem := e.mem }

variable [WindowedCore H]

/-- The other task is resumed in `m`. -/
def resume (s : System H) (e : Turn) (m : Hart H Globals) : System H where
  hart := m
  last := Function.update s.last s.hart.globals.currentTask
    (some ⟨e.pc, (atEcall s.hart e).x⟩)

/-- A task of `Validation-Test` or `Matrix-Mult` runs to its `ecall`, and from there to where the
other one is resumed. -/
def step (L : Image) (s : System H) (e : Turn) : Option (System H) :=
  ((Code.trap trapEntry).exec (ops (runScheduler L e.left) L.back) (atEcall s.hart e)).map
    (resume s e)

/-- Before task A starts, `main` has set up both TCBs. -/
structure Starts (s : System H) : Prop where
  kernel : s.hart.Kernel
  current : s.hart.globals.currentTask = .a
  windowCfg : ∀ k, (s.hart.globals.tcb k).windowCfg = k.windowCfg
  last : ∀ k, s.last k = none

/-- The task that has just been resumed finds itself after its `ecall`, with its registers. -/
def Resumed (s : System H) : Prop :=
  ∀ c, s.last s.hart.globals.currentTask = some c →
    s.hart.pc = c.pc + 4 ∧ ∀ r, s.hart.x r = c.regs r

/-- When task A is to be resumed, the caller-saved registers are what they were at its `ecall`: `a0`
the address that is returned to, the others what `run_scheduler` leaves in them. -/
def Unnoticed (s : System H) (e : Turn) : Prop :=
  s.hart.globals.currentTask = .b → ∀ c, s.last .a = some c →
    c.regs a0 = c.pc + 4 ∧ ∀ r ∈ callerSaved, r ≠ a0 → e.left.regs r = c.regs r

/-- `run_scheduler` has returned in `t`. -/
structure Scheduled (o : Leftover) (m t : Hart H Globals) : Prop where
  current : t.globals.currentTask = m.globals.currentTask.next
  tcb : t.globals.tcb = Function.update m.globals.tcb m.globals.currentTask
    { m.globals.tcb m.globals.currentTask with pc := m.x a0 }
  kernel : t.Kernel
  staged : staged t.core = (t.globals.tcb t.globals.currentTask).windowCfg
  low : ∀ r, t.x r = if r = a0 then (t.globals.tcb t.globals.currentTask).pc
    else if r ∈ callerSaved then o.regs r else m.x r
  high : ∀ r, t.through (TaskId.window .b) r = m.through (TaskId.window .b) r

/-- The task that was not current goes on where its TCB says, in its window. -/
structure Switched (o : Leftover) (m t : Hart H Globals) : Prop where
  current : t.globals.currentTask = m.globals.currentTask.next
  tcb : t.globals.tcb = Function.update m.globals.tcb m.globals.currentTask
    { m.globals.tcb m.globals.currentTask with pc := m.pc + 4 }
  pc : t.pc = (t.globals.tcb t.globals.currentTask).pc
  active : active t.core = t.globals.currentTask.window
  low : ∀ r, t.through Window.kernel r =
    if r = a0 then t.pc else if r ∈ callerSaved then o.regs r else m.through Window.kernel r
  high : ∀ r, t.through (TaskId.window .b) r = m.through (TaskId.window .b) r

omit [WindowedCore H] in
theorem windowCfg_update (tcb : TaskId → Tcb) (k k' : TaskId) (v : Word) :
    (Function.update tcb k { tcb k with pc := v } k').windowCfg = (tcb k').windowCfg := by
  by_cases hk : k' = k
  · subst hk
    rw [Function.update_self]
  · rw [Function.update_of_ne hk]

variable [LawfulCore H]

theorem scheduled (L : Image) (o : Leftover) {m : Hart H Globals} (hk : m.Kernel) :
    Scheduled o m (runScheduler L o m) := by
  let tcb := Function.update m.globals.tcb m.globals.currentTask
    { m.globals.tcb m.globals.currentTask with pc := m.x a0 }
  let next := tcb m.globals.currentTask.next
  let m' := m.writeCsr .windowStaged next.windowCfg
  have hk' : m'.Kernel := hk.stage _
  have hcell : cell m'.core = cell m.core := cell_stage _ _
  have hret : RegsOnly m' (m'.returns o next.pc) := RegsOnly.returns _ _ _
  have hx : ∀ r, m'.x r = m.x r := hk.x_stage next.windowCfg
  exact {
    current := rfl
    tcb := rfl
    kernel := hret.active.trans hk'
    staged := hret.staged.trans (staged_stage _ _)
    low := fun r => hx r ▸ hk'.x_returns o next.pc r
    high := fun r => (through_returns_disjoint (hk' ▸ by decide) o _ r).trans
      (through_of_cell hcell _ r) }

/-- The trap, and the handler up to the call. -/
structure AtCall (m t : Hart H Globals) : Prop where
  kernel : t.Kernel
  globals : t.globals = m.globals
  oldPc : t.x a0 = m.pc + 4
  low : ∀ r, r ∉ callerSaved → t.x r = m.through Window.kernel r
  high : ∀ r, t.through (TaskId.window .b) r = m.through (TaskId.window .b) r

theorem atCall_ecall (L : Image) (m : Hart H Globals) : AtCall m (m.ecall.atCall L.back) := by
  have hk : m.ecall.Kernel := active_trap _
  have hcell : cell m.ecall.core = cell m.core := cell_trap _
  have hd : (TaskId.window .b).Disjoint (active m.ecall.core) := hk.symm ▸ by decide
  exact {
    kernel := hk.atCall _
    globals := rfl
    oldPc := hk.x_atCall _ a0
    low := fun r hr => by
      have hra : r ≠ ra := fun h => hr (h ▸ by decide)
      have ha : r ≠ a0 := fun h => hr (h ▸ by decide)
      rw [hk.x_atCall, if_neg hra, if_neg ha, x_eq_through hk, through_of_cell hcell]
    high := fun r => (through_atCall_disjoint hd _ r).trans (through_of_cell hcell _ r) }

theorem switched (L : Image) (o : Leftover) {m : Hart H Globals}
    (hcfg : ∀ k, (m.globals.tcb k).windowCfg = k.windowCfg) :
    ∃ t, (Code.trap trapEntry).exec (ops (runScheduler L o) L.back) m = some t ∧
      Switched o m t := by
  have hcall := atCall_ecall L m
  have hrun := scheduled L o hcall.kernel
  set t := runScheduler L o (m.ecall.atCall L.back)
  have htcb := hrun.tcb
  rw [hcall.globals, hcall.oldPc] at htcb
  have hcur := hrun.current
  rw [hcall.globals] at hcur
  have hcfg' : ∀ k, (t.globals.tcb k).windowCfg = k.windowCfg := fun k => by
    rw [htcb, windowCfg_update, hcfg]
  have hpc : t.x a0 = (t.globals.tcb t.globals.currentTask).pc := hrun.low a0
  have hcell : cell (WindowedCore.mret t.core) = cell t.core := cell_mret _
  refine ⟨(t.writeCsr .mepc (t.x a0)).mret, rfl, hcur, htcb, hpc, ?_, fun r => ?_, fun r => ?_⟩
  · exact TaskId.active_mret _ (hrun.staged.trans (hcfg' _))
  · rw [through_of_cell (m := t) hcell, ← x_eq_through hrun.kernel, hrun.low]
    change _ = if r = a0 then t.x a0 else _
    rw [hpc]
    by_cases hr : r ∈ callerSaved
    · simp only [hr, if_true]
    · simp only [hr, if_false, hcall.low r hr]
  · exact (through_of_cell hcell _ r).trans ((hrun.high r).trans (hcall.high r))

omit [LawfulCore H] in
theorem Switched.through {o : Leftover} {m t : Hart H Globals} (h : Switched o m t) (k : TaskId)
    {r : Reg} (hr : k = .a → r ∉ callerSaved) :
    t.through k.window r = m.through k.window r := by
  cases k with
  | a =>
    have hr := hr rfl
    have ha : r ≠ a0 := fun he => hr (he ▸ by decide)
    have hlow := h.low r
    rw [if_neg ha, if_neg hr] at hlow
    exact hlow
  | b => exact h.high r

/-- Of a task that waits, its TCB knows where it goes on, and its window still has its registers;
of those of task A only the ones that a function must preserve. -/
structure Kept (s : System H) : Prop where
  windowCfg : ∀ k, (s.hart.globals.tcb k).windowCfg = k.windowCfg
  active : active s.hart.core = s.hart.globals.currentTask.window
  away : ∀ k c, k ≠ s.hart.globals.currentTask → s.last k = some c →
    (s.hart.globals.tcb k).pc = c.pc + 4 ∧
      ∀ r, (k = .a → r ∉ callerSaved) → s.hart.through k.window r = c.regs r

omit [LawfulCore H] in
theorem Starts.kept {s : System H} (h : Starts s) : Kept s where
  windowCfg := h.windowCfg
  active := by
    rw [h.current]
    exact h.kernel
  away k c _ hc := by
    rw [h.last k] at hc
    cases hc

theorem globals_atEcall (m : Hart H Globals) (e : Turn) : (atEcall m e).globals = m.globals :=
  (RegsOnly.setRegs m _ _).globals

theorem active_atEcall (m : Hart H Globals) (e : Turn) :
    active (atEcall m e).core = active m.core := (RegsOnly.setRegs m _ _).active

theorem Kept.through_atEcall {s : System H} (h : Kept s) (e : Turn) {k : TaskId}
    (hk : k ≠ s.hart.globals.currentTask) (r : Reg) :
    (atEcall s.hart e).through k.window r = s.hart.through k.window r :=
  through_setRegs_disjoint (h.active.symm ▸ TaskId.disjoint hk) _ _ r

variable {s : System H} {e : Turn} {m : Hart H Globals}

theorem Kept.resume (h : Kept s) (hm : Switched e.left (atEcall s.hart e) m) :
    Kept (resume s e m) where
  windowCfg k := by
    have htcb := hm.tcb
    rw [globals_atEcall] at htcb
    change (m.globals.tcb k).windowCfg = _
    rw [htcb, windowCfg_update, h.windowCfg]
  active := hm.active
  away k c hk hc := by
    -- the task that waits now is the one that has just come to its `ecall`
    have hcur := hm.current
    rw [globals_atEcall] at hcur
    change k ≠ m.globals.currentTask at hk
    rw [hcur] at hk
    obtain rfl := TaskId.eq_of_ne_next hk
    simp only [Cooperative.resume, Function.update_self, Option.some.injEq] at hc
    subst hc
    have htcb := hm.tcb
    rw [globals_atEcall] at htcb
    refine ⟨?_, fun r hr => (hm.through _ hr).trans ?_⟩
    · change (m.globals.tcb _).pc = _
      rw [htcb, Function.update_self]
      rfl
    · exact (x_eq_through ((active_atEcall _ _).trans h.active) r).symm

theorem Kept.returned (h : Kept s) (hm : Switched e.left (atEcall s.hart e) m) {c : Context}
    (hc : s.last m.globals.currentTask = some c) :
    m.pc = c.pc + 4 ∧
      ∀ r, (m.globals.currentTask = .a → r ∉ callerSaved) → m.x r = c.regs r := by
  have hcur := hm.current
  have htcb := hm.tcb
  rw [globals_atEcall] at hcur htcb
  have hne : m.globals.currentTask ≠ s.hart.globals.currentTask := hcur ▸ TaskId.next_ne _
  obtain ⟨hpc, hregs⟩ := h.away _ c hne hc
  refine ⟨?_, fun r hr => ?_⟩
  · rw [hm.pc, htcb, Function.update_of_ne hne, hpc]
  · rw [x_eq_through hm.active, hm.through _ hr, h.through_atEcall e hne, hregs r hr]

/-- What is compared when task A is resumed is all that can go wrong. -/
theorem Kept.resume_iff (h : Kept s) (hm : Switched e.left (atEcall s.hart e) m) :
    Resumed (Cooperative.resume s e m) ↔ Unnoticed s e := by
  have hcur := hm.current
  rw [globals_atEcall] at hcur
  have hlast : (Cooperative.resume s e m).last m.globals.currentTask =
      s.last m.globals.currentTask :=
    Function.update_of_ne (hcur ▸ TaskId.next_ne _) _ _
  have hres : Resumed (Cooperative.resume s e m) ↔
      ∀ c, s.last m.globals.currentTask = some c → m.pc = c.pc + 4 ∧ ∀ r, m.x r = c.regs r := by
    rw [← hlast]
    rfl
  rw [hres]
  unfold Unnoticed
  cases hk : s.hart.globals.currentTask with
  | a =>
    have hb : m.globals.currentTask = .b := hcur.trans (congrArg TaskId.next hk)
    refine ⟨fun _ => nofun, fun _ c hc => ?_⟩
    obtain ⟨hpc, hregs⟩ := h.returned hm hc
    exact ⟨hpc, fun r => hregs r (fun ha => nomatch hb.symm.trans ha)⟩
  | b =>
    have ha : m.globals.currentTask = .a := hcur.trans (congrArg TaskId.next hk)
    have hx : ∀ r, m.x r = m.through Window.kernel r := fun r =>
      x_eq_through (hm.active.trans (congrArg TaskId.window ha)) r
    rw [ha]
    constructor
    · intro hall _ c hc
      obtain ⟨hpc, hregs⟩ := hall c hc
      refine ⟨?_, fun r hr hne => ?_⟩
      · rw [← hregs, hx, hm.low, if_pos rfl, hpc]
      · rw [← hregs, hx, hm.low, if_neg hne, if_pos hr]
    · intro hall c hc
      obtain ⟨hpc, hregs⟩ := h.returned hm (ha.symm ▸ hc)
      obtain ⟨ha0, hleft⟩ := hall rfl c hc
      refine ⟨hpc, fun r => ?_⟩
      by_cases hr : r ∈ callerSaved
      · rw [hx, hm.low]
        by_cases hne : r = a0
        · rw [if_pos hne, hpc, hne, ha0]
        · rw [if_neg hne, if_pos hr, hleft r hr hne]
      · exact hregs r fun _ => hr

theorem Kept.step (L : Image) (h : Kept s) (e : Turn) :
    ∃ t, step L s e = some t ∧ Kept t ∧ (Resumed t ↔ Unnoticed s e) := by
  have hg := globals_atEcall s.hart e
  obtain ⟨m, hexec, hm⟩ := switched L e.left (m := atEcall s.hart e) (hg.symm ▸ h.windowCfg)
  exact ⟨Cooperative.resume s e m, congrArg (Option.map _) hexec, h.resume hm, h.resume_iff hm⟩

end

/-- In every run on Spike, each switch up to some point returns to a task that finds itself after
its `ecall` with its registers, if and only if task A has lost nothing in the caller-saved ones. -/
theorem resumed_iff_unnoticed (L : Image) {s : System Spike.Processor} (h : Starts s)
    (es : List Turn) :
    (∀ pre, pre <+: es → ∃ t, Runs.run (step L) s pre = some t ∧ Resumed t) ↔
      Runs.Along (step L) Unnoticed s es := by
  refine Runs.prefix_iff_along (I := Kept) (fun s e hs => hs.step L e) h.kept ?_ es
  intro c hc
  rw [h.last] at hc
  cases hc

/-- `Validation-Test` when `main` calls `task_a_main`. -/
def validationTest : System Spike.Processor where
  hart :=
    { core := Spike.Processor.reset
      pc := 0x80000088
      mepc := 0
      mcause := 0
      mstatus := 0
      mem := fun _ => 0
      mscratch := 0
      -- `task_bootstrap`
      globals := ⟨fun k => ⟨if k = .b then 0x80000060 else 0, k.windowCfg⟩, .a⟩
      windowWrites := [] }
  last _ := none

theorem validationTest_starts : Starts validationTest := ⟨rfl, rfl, fun _ => rfl, fun _ => rfl⟩

def validationImage : Image where
  tcb k := if k = .a then 0x80002000 else 0x80002010
  back := 0x8000004c

/-- An `ecall` with the same value in all registers, which `run_scheduler` then does not change. -/
def uniformTurn (pc v : Word) : Turn := ⟨pc, fun _ => v, fun _ => 0, ⟨fun _ => v, fun _ => 0⟩⟩

theorem resumed_iff_unnoticed_validation :
    (∀ pre, pre <+: [uniformTurn 0x80000100 7, uniformTurn 0x80000200 7] →
      ∃ t, Runs.run (step validationImage) validationTest pre = some t ∧ Resumed t) ↔
      Runs.Along (step validationImage) Unnoticed validationTest
        [uniformTurn 0x80000100 7, uniformTurn 0x80000200 7] :=
  resumed_iff_unnoticed validationImage validationTest_starts _

/-- Task A had 7 in `a0`, and gets the address after its `ecall` there. -/
theorem not_resumed : ¬ ∀ pre, pre <+: [uniformTurn 0x80000100 7, uniformTurn 0x80000200 7] →
    ∃ t, Runs.run (step validationImage) validationTest pre = some t ∧ Resumed t := by
  intro h
  obtain ⟨t, ht, hres⟩ := h _ (List.prefix_refl _)
  have ha0 : (Runs.run (step validationImage) validationTest
      [uniformTurn 0x80000100 7, uniformTurn 0x80000200 7]).map
        (fun t => (t.hart.globals.currentTask, t.hart.x a0, (t.last .a).map (·.regs a0))) =
      some (.a, 0x80000104, some 7) := by decide +kernel
  rw [ht] at ha0
  simp only [Option.map_some, Option.some.injEq, Prod.mk.injEq, Option.map_eq_some_iff] at ha0
  obtain ⟨hcur, hx, c, hc, hregs⟩ := ha0
  have hsame := (hres c (hcur ▸ hc)).2 a0
  rw [hx, hregs] at hsame
  exact absurd hsame (by decide)

end RegisterWindows.Research.Cooperative
