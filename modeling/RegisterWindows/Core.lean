import RegisterWindows.Machine

namespace RegisterWindows
open RegisterWindows.Core

/-- A core with a windowed register file: which window is active, what the
physical cells hold, and what a trap and an `mret` do to both. -/
class WindowedCore (H : Type) extends Core H where
  active : H → Window
  cell : H → PhysReg → Word
  /-- What CSR 0x801 would read in the handler of a trap taken now. -/
  interrupted : H → Word
  trap : H → H
  mret : H → H

/-- The window contract of the port: it is proved of CVA6 and of Spike, and no
result about the port uses more of either. Cell 0 is left out of the write laws,
no name other than `x0` reaches it. -/
class LawfulCore (H : Type) [WindowedCore H] : Prop where
  reg_eq : ∀ (h : H) (r : Reg), reg h r = if r = 0 then 0 else
    match (WindowedCore.active h).phys r with
    | some p => WindowedCore.cell h p
    | none => 0
  active_setReg : ∀ (h : H) (r : Reg) (v : Word),
    WindowedCore.active (setReg h r v) = WindowedCore.active h
  cell_setReg_self : ∀ (h : H) (r : Reg) (v : Word) (p : PhysReg), r ≠ 0 →
    (WindowedCore.active h).phys r = some p → WindowedCore.cell (setReg h r v) p = v
  cell_setReg_ne : ∀ (h : H) (r : Reg) (v : Word) (p : PhysReg), p ≠ 0 →
    (WindowedCore.active h).phys r ≠ some p →
    WindowedCore.cell (setReg h r v) p = WindowedCore.cell h p
  staged_setReg : ∀ (h : H) (r : Reg) (v : Word), staged (setReg h r v) = staged h
  interrupted_setReg : ∀ (h : H) (r : Reg) (v : Word),
    WindowedCore.interrupted (setReg h r v) = WindowedCore.interrupted h
  staged_stage : ∀ (h : H) (v : Word), staged (stage h v) = v
  active_stage : ∀ (h : H) (v : Word), WindowedCore.active h = Window.kernel →
    WindowedCore.active (stage h v) = Window.kernel
  cell_stage : ∀ (h : H) (v : Word), WindowedCore.cell (stage h v) = WindowedCore.cell h
  staged_trap : ∀ h : H, staged (WindowedCore.trap h) = WindowedCore.interrupted h
  active_trap : ∀ h : H, WindowedCore.active (WindowedCore.trap h) = Window.kernel
  cell_trap : ∀ h : H, WindowedCore.cell (WindowedCore.trap h) = WindowedCore.cell h
  interrupted_mret : ∀ h : H, staged h ≠ 0 →
    WindowedCore.interrupted (WindowedCore.mret h) = staged h
  cell_mret : ∀ h : H, WindowedCore.cell (WindowedCore.mret h) = WindowedCore.cell h
  active_mret : ∀ (h : H) (w : Window), w.Legal → staged h = w.config →
    WindowedCore.active (WindowedCore.mret h) = w
  active_mret_kernel : ∀ h : H, staged h = Window.kernel.config →
    WindowedCore.active (WindowedCore.mret h) = Window.kernel
  active_mret_zero_low : ∀ (h : H) (r : Reg) (p : PhysReg), staged h = 0 →
    (WindowedCore.active (WindowedCore.mret h)).phys r = some p → p.val < 32

/-- The assumption that an `mret` with 0 staged selects the kernel window. -/
class StagesZeroAsKernel (H : Type) [WindowedCore H] : Prop where
  active_mret_zero : ∀ h : H, staged h = 0 →
    WindowedCore.active (WindowedCore.mret h) = Window.kernel

/-- A register file without windows: what the kernel window is meant to be. -/
structure Flat where
  regs : Reg → Word
  staged : Word

instance : Core Flat where
  reg f r := if r = 0 then 0 else f.regs r
  setReg f r v := { f with regs := Function.update f.regs r (if r = 0 then 0 else v) }
  staged := Flat.staged
  stage f v := { f with staged := v }

namespace Machine
open WindowedCore LawfulCore

variable {H : Type} [WindowedCore H]

/-- `mstatus` after a trap into M mode from M mode: MPIE takes MIE, MIE is cleared. -/
def trapStatus (s : Word) : Word :=
  (s &&& ~~~0x1888#32) ||| (if s &&& 0x8#32 = 0 then 0 else 0x80#32) ||| 0x1800#32

/-- `mstatus` after `mret`: MIE takes MPIE, MPIE is set, MPP becomes U. -/
def mretStatus (s : Word) : Word :=
  (s &&& ~~~0x1888#32) ||| (if s &&& 0x80#32 = 0 then 0 else 0x8#32) ||| 0x80#32

def takeTrap (m : Machine H) (cause : Word) : Machine H :=
  { m with core := trap m.core, mepc := m.pc, mcause := cause, mstatus := trapStatus m.mstatus }

def execMret (m : Machine H) : Machine H :=
  { m with core := mret m.core, pc := m.mepc, mstatus := mretStatus m.mstatus }

/-- The kernel window is active, as in every trap handler. -/
def Kernel (m : Machine H) : Prop := active m.core = Window.kernel

theorem Kernel.phys_low {m : Machine H} (hk : m.Kernel) {r : Reg} {p : PhysReg}
    (h : (active m.core).phys r = some p) : p.val < 32 := by
  rw [hk, Window.phys_kernel] at h
  cases h
  exact r.isLt

/-- What the kernel sees of the core: 32 registers and the staged configuration. -/
def view (m : Machine H) : Machine Flat :=
  { m with core := ⟨fun r => m.x r, staged m.core⟩ }

@[simp] theorem view_mem (m : Machine H) : m.view.mem = m.mem := rfl
@[simp] theorem view_pc (m : Machine H) : m.view.pc = m.pc := rfl
@[simp] theorem view_mepc (m : Machine H) : m.view.mepc = m.mepc := rfl
@[simp] theorem view_mcause (m : Machine H) : m.view.mcause = m.mcause := rfl
@[simp] theorem view_mstatus (m : Machine H) : m.view.mstatus = m.mstatus := rfl
@[simp] theorem view_staged (m : Machine H) : m.view.core.staged = staged m.core := rfl

variable [LawfulCore H]

@[simp] theorem x_zero (m : Machine H) : m.x 0 = 0 := by
  simp [x, reg_eq]

/-- The view loses nothing an instruction can read. -/
@[simp] theorem view_x (m : Machine H) (r : Reg) : m.view.x r = m.x r := by
  by_cases hr : r = 0
  · subst r
    exact (x_zero m).symm
  · simp [view, x, reg, hr]

theorem Kernel.x_eq {m : Machine H} (hk : m.Kernel) {r : Reg} (hr : r ≠ 0) :
    m.x r = cell m.core ⟨r.val, reg_lt r⟩ := by
  rw [x, reg_eq, if_neg hr, hk, Window.phys_kernel]

/-- A trap moves no cell, so a task in the kernel window and its handler see the same registers. -/
theorem Kernel.x_takeTrap {m : Machine H} (hk : m.Kernel) (c : Word) (r : Reg) :
    (m.takeTrap c).x r = m.x r := by
  have hk' : (m.takeTrap c).Kernel := active_trap _
  by_cases hr : r = 0
  · rw [hr, x_zero, x_zero]
  · rw [hk'.x_eq hr, hk.x_eq hr]
    exact congrFun (cell_trap _) _

theorem Kernel.x_execMret {m : Machine H} (hk : m.Kernel) (hk' : m.execMret.Kernel) (r : Reg) :
    m.execMret.x r = m.x r := by
  by_cases hr : r = 0
  · rw [hr, x_zero, x_zero]
  · rw [hk'.x_eq hr, hk.x_eq hr]
    exact congrFun (cell_mret _) _

theorem Kernel.setX {m : Machine H} (hk : m.Kernel) (r : Reg) (v : Word) :
    (m.setX r v).Kernel := by
  rw [Kernel, Machine.setX, active_setReg]
  exact hk

theorem Kernel.x_setX {m : Machine H} (hk : m.Kernel) (r r' : Reg) (v : Word) :
    (m.setX r v).x r' = if r' = r ∧ r ≠ 0 then v else m.x r' := by
  by_cases hz : r' = 0
  · subst r'
    rw [x_zero, x_zero, if_neg]
    rintro ⟨h, hne⟩
    exact hne h.symm
  · rw [(hk.setX r v).x_eq hz, hk.x_eq hz]
    by_cases hr : r' = r
    · subst r'
      rw [if_pos ⟨rfl, hz⟩]
      exact cell_setReg_self _ _ _ _ hz (by rw [hk, Window.phys_kernel])
    · rw [if_neg (fun h => hr h.1)]
      apply cell_setReg_ne
      · intro h
        exact hz (Fin.ext (by simpa using congrArg Fin.val h))
      · rw [hk, Window.phys_kernel]
        intro h
        exact hr (Fin.ext (by simpa using (congrArg Fin.val (Option.some.inj h)).symm))

theorem view_setX {m : Machine H} (hk : m.Kernel) (r : Reg) (v : Word) :
    (m.setX r v).view = m.view.setX r v := by
  have hregs : (fun r' => (m.setX r v).x r') =
      Function.update (fun r' => m.x r') r (if r = 0 then 0 else v) := by
    funext r'
    rw [hk.x_setX]
    by_cases hr : r' = r
    · rw [hr, Function.update_self]
      by_cases hz : r = 0 <;> simp [hz]
    · rw [if_neg (fun h => hr h.1), Function.update_of_ne hr]
  have hst : staged (m.setX r v).core = staged m.core := staged_setReg _ _ _
  simp only [view, hregs, hst]
  rfl

omit [LawfulCore H] in
theorem view_readCsr (m : Machine H) (c : Csr) : m.view.readCsr c = m.readCsr c := by
  cases c <;> rfl

theorem Kernel.writeCsr {m : Machine H} (hk : m.Kernel) (c : Csr) (v : Word) :
    (m.writeCsr c v).Kernel := by
  cases c with
  | windowStaged => exact active_stage _ _ hk
  | mstatus | mepc | mcause => exact hk

theorem view_writeCsr {m : Machine H} (hk : m.Kernel) (c : Csr) (v : Word) :
    (m.writeCsr c v).view = m.view.writeCsr c v := by
  cases c with
  | windowStaged =>
    simp only [view, Machine.writeCsr, stage, Machine.mk.injEq, Flat.mk.injEq, and_true]
    refine ⟨funext fun r => ?_, staged_stage _ _⟩
    have hk' : active (stage m.core v) = active m.core := (active_stage _ v hk).trans hk.symm
    simp only [x, reg_eq, hk', cell_stage]
  | mstatus | mepc | mcause => rfl

/-- One instruction under the kernel window is the same instruction on a flat file. -/
theorem view_exec (L : Image) {m : Machine H} (hk : m.Kernel) (i : Instr) :
    (m.exec L i).view = m.view.exec L i ∧ (m.exec L i).Kernel := by
  cases i with
  | storeX rs off base =>
    refine ⟨?_, hk⟩
    simp only [Machine.exec, view_x]
    rfl
  | loadX | loadSym | la | li | addi | add | and | andi | or | slli | csrr =>
    simp only [Machine.exec, view_x, view_mem, view_readCsr]
    exact ⟨view_setX hk _ _, hk.setX _ _⟩
  | csrw c rs =>
    simp only [Machine.exec, view_x]
    exact ⟨view_writeCsr hk c _, hk.writeCsr c _⟩

/-- A block run under the kernel window refines the block on a flat file. -/
theorem view_run (L : Image) {m : Machine H} (hk : m.Kernel) (is : List Instr) :
    (m.run L is).view = m.view.run L is ∧ (m.run L is).Kernel := by
  induction is generalizing m with
  | nil => exact ⟨rfl, hk⟩
  | cons i is ih =>
    obtain ⟨hv, hk'⟩ := view_exec L hk i
    simp only [run_cons, ← hv]
    exact ih hk'

theorem cell_exec_high (L : Image) {m : Machine H} (hk : m.Kernel) (i : Instr) {p : PhysReg}
    (hp : 32 ≤ p.val) : cell (m.exec L i).core p = cell m.core p := by
  have hset (r : Reg) (v : Word) : cell (m.setX r v).core p = cell m.core p := by
    apply cell_setReg_ne
    · intro h
      simp [h] at hp
    · rw [hk, Window.phys_kernel]
      intro h
      have := congrArg Fin.val (Option.some.inj h)
      simp only at this
      omega
  cases i with
  | storeX => rfl
  | loadX | loadSym | la | li | addi | add | and | andi | or | slli | csrr => exact hset _ _
  | csrw c rs =>
    cases c with
    | windowStaged => exact congrFun (cell_stage _ _) p
    | mstatus | mepc | mcause => rfl

theorem cell_run_high (L : Image) {m : Machine H} (hk : m.Kernel) (is : List Instr)
    {p : PhysReg} (hp : 32 ≤ p.val) : cell (m.run L is).core p = cell m.core p := by
  induction is generalizing m with
  | nil => rfl
  | cons i is ih =>
    rw [run_cons, ih (view_exec L hk i).2, cell_exec_high L hk i hp]

/-- Code run under the kernel window from `m` to `m'`: it stays there, a flat register
file ends as `n`, and the upper half of the physical file is not touched. -/
structure KernelRun (m m' : Machine H) (n : Machine Flat) : Prop where
  kernel : m'.Kernel
  view : m'.view = n
  high : ∀ p : PhysReg, 32 ≤ p.val → cell m'.core p = cell m.core p

theorem KernelRun.block (L : Image) {m : Machine H} (hk : m.Kernel) (is : List Instr) :
    KernelRun m (m.run L is) (m.view.run L is) where
  kernel := (view_run L hk is).2
  view := (view_run L hk is).1
  high _ hp := cell_run_high L hk is hp

omit [LawfulCore H] in
theorem KernelRun.trans {m m' m'' : Machine H} {n n' : Machine Flat} (h : KernelRun m m' n)
    (h' : KernelRun m' m'' n') : KernelRun m m'' n' where
  kernel := h'.kernel
  view := h'.view
  high p hp := (h'.high p hp).trans (h.high p hp)

theorem KernelRun.andThen (L : Image) {m m' : Machine H} {n : Machine Flat}
    (h : KernelRun m m' n) (is : List Instr) : KernelRun m (m'.run L is) (n.run L is) :=
  h.view ▸ h.trans (.block L h.kernel is)

theorem KernelRun.x_eq {m m' : Machine H} {n : Machine Flat} (h : KernelRun m m' n) (r : Reg) :
    m'.x r = n.x r := by
  rw [← h.view, view_x]

end Machine

end RegisterWindows
