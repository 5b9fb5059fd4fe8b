import RegisterWindows.Lib.Code
import RegisterWindows.Lib.View
import RegisterWindows.Port.Context
import RegisterWindows.Spike.Processor

namespace RegisterWindows

/-- All 32 names reach a cell. -/
structure Window.Whole (w : Window) : Prop where
  size : w.size = 32
  inside : w.base + 32 ≤ 64

namespace Window

theorem whole_kernel : kernel.Whole := ⟨rfl, by decide⟩

theorem Whole.phys {w : Window} (hw : w.Whole) (r : Reg) : ∃ p, w.phys r = some p := by
  have hr := r.isLt
  have hin := hw.inside
  exact ⟨_, phys_of_lt (hw.size.symm ▸ hr) (by omega)⟩

theorem phys_ne_zero {w : Window} {r : Reg} {p : PhysReg} (hr : r ≠ 0) (hp : w.phys r = some p) :
    p ≠ 0 := by
  rintro rfl
  have hval := (phys_some hp).2
  exact hr (Fin.ext (by simp only [Fin.val_zero] at hval ⊢; omega))

end Window

namespace Research
open RegisterWindows.Core WindowedCore LawfulCore Port

@[simp] abbrev a3 : Reg := 13
@[simp] abbrev a4 : Reg := 14
@[simp] abbrev a5 : Reg := 15
@[simp] abbrev a6 : Reg := 16
@[simp] abbrev a7 : Reg := 17

/-- The two tasks of a program, `tcb_a` and `tcb_b`. -/
inductive TaskId where
  | a
  | b
deriving DecidableEq, Repr

/-- `(current_task == &tcb_a) ? &tcb_b : &tcb_a` -/
def TaskId.next : TaskId → TaskId
  | a => b
  | b => a

def TaskId.window : TaskId → Window
  | a => ⟨0, 32⟩
  | b => ⟨32, 32⟩

/-- The `window_cfg` that the programs give their tasks. -/
def TaskId.windowCfg : TaskId → Word
  | a => 0x00200000
  | b => 0x00200020

namespace TaskId

theorem eq_of_ne_next {k k' : TaskId} (h : k ≠ k'.next) : k = k' := by
  cases k <;> cases k' <;> first | rfl | exact absurd rfl h

theorem next_ne (k : TaskId) : k.next ≠ k := by
  cases k <;> decide

theorem disjoint {k k' : TaskId} (h : k ≠ k') : k.window.Disjoint k'.window := by
  cases k <;> cases k' <;> first | exact absurd rfl h | decide

theorem active_mret {H : Type} [WindowedCore H] [LawfulCore H] {h : H} (k : TaskId)
    (hs : staged h = k.windowCfg) : active (WindowedCore.mret h) = k.window := by
  cases k with
  | a => exact LawfulCore.active_mret_kernel h hs
  | b => exact LawfulCore.active_mret h ⟨32, 32⟩ (by decide) hs

end TaskId

/-- The fields of `TCB_t` that `run_scheduler` uses. -/
structure Tcb where
  pc : Word
  windowCfg : Word
deriving DecidableEq, Repr

/-- A machine with `mscratch` and with the C objects that only C code accesses. -/
structure Hart (H G : Type) extends Machine H where
  mscratch : Word
  globals : G
  /-- History: what has been written to CSR 0x801, the last word first. -/
  windowWrites : List Word

inductive Inst where
  /-- `lw rd, off(base)` -/
  | lw (rd : Reg) (off : Word) (base : Reg)
  /-- `sw rs, off(base)` -/
  | sw (rs : Reg) (off : Word) (base : Reg)
  | la (rd : Reg) (a : Word)
  | addi (rd rs : Reg) (imm : Word)
  | csrr (rd : Reg) (csr : Csr)
  | csrw (csr : Csr) (rs : Reg)
  /-- `call run_scheduler` -/
  | call
deriving DecidableEq, Repr

inductive Cond where
  | beqz (r : Reg)
deriving DecidableEq, Repr

abbrev Asm := Code Inst Cond

def saves (fs : List (Reg × Word)) : List Inst := fs.map fun f => .sw f.1 f.2 sp

def loads (fs : List (Reg × Word)) : List Inst := fs.map fun f => .lw f.1 f.2 sp

/-- `addi sp, sp, -size`, and registers stored at their offsets from the new `sp`. -/
def push (size : Word) (fs : List (Reg × Word)) : List Inst := .addi sp sp (-size) :: saves fs

def pop (size : Word) (fs : List (Reg × Word)) : List Inst := loads fs ++ [.addi sp sp size]

/-- The registers that a C function need not preserve. -/
def callerSaved : List Reg := [1, 5, 6, 7, 10, 11, 12, 13, 14, 15, 16, 17, 28, 29, 30, 31]

/-- What compiled code leaves behind where neither its source nor the calling convention says
what: in the caller-saved registers, and in memory. -/
structure Leftover where
  regs : Reg → Word
  mem : Word → Word

namespace Hart
variable {H G : Type}

section
variable [Core H]

def x (m : Hart H G) (r : Reg) : Word := m.toMachine.x r

def setX (m : Hart H G) (r : Reg) (v : Word) : Hart H G :=
  { m with toMachine := m.toMachine.setX r v }

def store (m : Hart H G) (a v : Word) : Hart H G :=
  { m with toMachine := m.toMachine.store a v }

def writeCsr (m : Hart H G) (c : Csr) (v : Word) : Hart H G :=
  { m with
    toMachine := m.toMachine.writeCsr c v
    windowWrites := if c = .windowStaged then v :: m.windowWrites else m.windowWrites }

/-- Registers written one after the other. -/
def setRegs (m : Hart H G) (rs : List Reg) (v : Reg → Word) : Hart H G :=
  rs.foldl (fun m r => m.setX r (v r)) m

/-- The registers in which a function with result `v` returns. -/
def returns (m : Hart H G) (o : Leftover) (v : Word) : Hart H G :=
  (m.setRegs callerSaved o.regs).setX a0 v

/-- `back` is the address of the instruction after the call. -/
def step (runScheduler : Hart H G → Hart H G) (back : Word) (m : Hart H G) : Inst → Hart H G
  | .lw rd off base => m.setX rd (m.mem (m.x base + off))
  | .sw rs off base => m.store (m.x base + off) (m.x rs)
  | .la rd a => m.setX rd a
  | .addi rd rs imm => m.setX rd (m.x rs + imm)
  | .csrr rd c => m.setX rd (m.readCsr c)
  | .csrw c rs => m.writeCsr c (m.x rs)
  | .call => runScheduler (m.setX ra back)

def holds (m : Hart H G) : Cond → Bool
  | .beqz r => m.x r == 0

end

variable [WindowedCore H]

/-- `ecall` in machine mode. -/
def ecall (m : Hart H G) : Hart H G := { m with toMachine := m.toMachine.takeTrap 11 }

def mret (m : Hart H G) : Hart H G := { m with toMachine := m.toMachine.execMret }

/-- The kernel window is active. -/
def Kernel (m : Hart H G) : Prop := m.toMachine.Kernel

end Hart

def ops {H G : Type} [WindowedCore H] (runScheduler : Hart H G → Hart H G) (back : Word) :
    Code.Ops Inst Cond (Hart H G) where
  step := Hart.step runScheduler back
  holds := Hart.holds
  enter := Hart.ecall
  leave _ m := some m.mret

namespace Hart
variable {H G : Type} [WindowedCore H]

@[simp] theorem mem_setX (m : Hart H G) (r : Reg) (v : Word) : (m.setX r v).mem = m.mem := rfl
@[simp] theorem mepc_setX (m : Hart H G) (r : Reg) (v : Word) : (m.setX r v).mepc = m.mepc := rfl
@[simp] theorem globals_setX (m : Hart H G) (r : Reg) (v : Word) :
    (m.setX r v).globals = m.globals := rfl
@[simp] theorem windowWrites_setX (m : Hart H G) (r : Reg) (v : Word) :
    (m.setX r v).windowWrites = m.windowWrites := rfl
@[simp] theorem x_store (m : Hart H G) (a v : Word) (r : Reg) : (m.store a v).x r = m.x r := rfl
@[simp] theorem x_mepc (m : Hart H G) (v : Word) (r : Reg) : (m.writeCsr .mepc v).x r = m.x r := rfl

/-- Only registers differ. -/
structure RegsOnly (m m' : Hart H G) : Prop where
  pc : m'.pc = m.pc
  mepc : m'.mepc = m.mepc
  mem : m'.mem = m.mem
  globals : m'.globals = m.globals
  windowWrites : m'.windowWrites = m.windowWrites
  active : active m'.core = active m.core
  staged : staged m'.core = staged m.core

theorem RegsOnly.refl (m : Hart H G) : RegsOnly m m := ⟨rfl, rfl, rfl, rfl, rfl, rfl, rfl⟩

theorem RegsOnly.trans {m m' m'' : Hart H G} (h : RegsOnly m m') (h' : RegsOnly m' m'') :
    RegsOnly m m'' :=
  ⟨h'.pc.trans h.pc, h'.mepc.trans h.mepc, h'.mem.trans h.mem, h'.globals.trans h.globals,
    h'.windowWrites.trans h.windowWrites, h'.active.trans h.active, h'.staged.trans h.staged⟩

/-- What register `r` of window `w` holds, whichever window is active. -/
def through (m : Hart H G) (w : Window) (r : Reg) : Word :=
  if r = 0 then 0 else
    match w.phys r with
    | some p => cell m.core p
    | none => 0

theorem through_of_cell {m m' : Hart H G} (h : cell m'.core = cell m.core) (w : Window) (r : Reg) :
    m'.through w r = m.through w r := by
  unfold through
  rw [h]

variable [LawfulCore H]

theorem RegsOnly.setX (m : Hart H G) (r : Reg) (v : Word) : RegsOnly m (m.setX r v) :=
  ⟨rfl, rfl, rfl, rfl, rfl, active_setReg _ _ _, staged_setReg _ _ _⟩

theorem RegsOnly.setRegs (m : Hart H G) (rs : List Reg) (v : Reg → Word) :
    RegsOnly m (m.setRegs rs v) := by
  induction rs generalizing m with
  | nil => exact .refl m
  | cons r rs ih => exact (RegsOnly.setX m r (v r)).trans (ih _)

theorem RegsOnly.returns (m : Hart H G) (o : Leftover) (v : Word) : RegsOnly m (m.returns o v) :=
  (RegsOnly.setRegs m _ _).trans (.setX _ _ _)

theorem x_eq_through {m : Hart H G} {w : Window} (h : active m.core = w) (r : Reg) :
    m.x r = m.through w r := by
  subst h
  exact reg_eq _ _

@[simp] theorem x_zero (m : Hart H G) : m.x 0 = 0 := Machine.x_zero _

theorem Kernel.setX {m : Hart H G} (hk : m.Kernel) (r : Reg) (v : Word) : (m.setX r v).Kernel :=
  Machine.Kernel.setX hk r v

theorem Kernel.x_setX {m : Hart H G} (hk : m.Kernel) (r r' : Reg) (v : Word) :
    (m.setX r v).x r' = if r' = r ∧ r ≠ 0 then v else m.x r' := Machine.Kernel.x_setX hk r r' v

theorem through_setX {m : Hart H G} {w : Window} (hw : w.Whole) (h : active m.core = w)
    (r r' : Reg) (v : Word) :
    (m.setX r v).through w r' = if r' = r ∧ r ≠ 0 then v else m.through w r' := by
  unfold through
  by_cases hz : r' = 0
  · rw [if_pos hz, if_pos hz, if_neg]
    rintro ⟨rfl, hr⟩
    exact hr hz
  · obtain ⟨p, hp⟩ := hw.phys r'
    simp only [if_neg hz, hp]
    by_cases hr : r' = r
    · subst hr
      rw [if_pos ⟨rfl, hz⟩]
      exact cell_setReg_self _ _ _ _ hz (h.symm ▸ hp)
    · rw [if_neg fun he => hr he.1]
      refine cell_setReg_ne _ _ _ _ (Window.phys_ne_zero hz hp) fun hq => ?_
      exact hr (Window.phys_inj hp (h ▸ hq))

theorem through_setX_disjoint {m : Hart H G} {w : Window} (hd : w.Disjoint (active m.core))
    (r r' : Reg) (v : Word) : (m.setX r v).through w r' = m.through w r' := by
  unfold through
  split
  · rfl
  · rename_i hz
    split
    · rename_i p hp
      exact cell_setReg_ne _ _ _ _ (Window.phys_ne_zero hz hp) (hd.phys_ne hp)
    · rfl

theorem through_setRegs {m : Hart H G} {w : Window} (hw : w.Whole) (h : active m.core = w)
    (rs : List Reg) (v : Reg → Word) (r : Reg) :
    (m.setRegs rs v).through w r = if r ∈ rs ∧ r ≠ 0 then v r else m.through w r := by
  induction rs generalizing m with
  | nil => simp [setRegs]
  | cons q rs ih =>
    have hw' : active (m.setX q (v q)).core = w := (active_setReg _ _ _).trans h
    change ((m.setX q (v q)).setRegs rs v).through w r = _
    rw [ih hw', through_setX hw h]
    by_cases hr : r = q
    · subst hr
      by_cases hz : r = 0 <;> simp [hz]
    · simp [hr]

theorem through_setRegs_disjoint {m : Hart H G} {w : Window} (hd : w.Disjoint (active m.core))
    (rs : List Reg) (v : Reg → Word) (r : Reg) : (m.setRegs rs v).through w r = m.through w r := by
  induction rs generalizing m with
  | nil => rfl
  | cons q rs ih =>
    have hd' : w.Disjoint (active (m.setX q (v q)).core) := (active_setReg m.core q (v q)).symm ▸ hd
    exact (ih hd').trans (through_setX_disjoint hd q r (v q))

theorem through_returns {m : Hart H G} {w : Window} (hw : w.Whole) (h : active m.core = w)
    (o : Leftover) (v : Word) (r : Reg) :
    (m.returns o v).through w r =
      if r = a0 then v else if r ∈ callerSaved then o.regs r else m.through w r := by
  have hregs := through_setRegs hw h callerSaved o.regs r
  have hw' : active (m.setRegs callerSaved o.regs).core = w :=
    (RegsOnly.setRegs m _ _).active.trans h
  have hres := through_setX hw hw' a0 r v
  rw [returns, hres, hregs]
  by_cases hr : r = a0
  · simp [hr]
  · by_cases hz : r = 0
    · simp [hz, callerSaved]
    · simp [hr, hz]

theorem through_returns_disjoint {m : Hart H G} {w : Window} (hd : w.Disjoint (active m.core))
    (o : Leftover) (v : Word) (r : Reg) : (m.returns o v).through w r = m.through w r := by
  have hd' : w.Disjoint (active (m.setRegs callerSaved o.regs).core) :=
    (RegsOnly.setRegs m _ _).active.symm ▸ hd
  exact (through_setX_disjoint hd' a0 r v).trans (through_setRegs_disjoint hd _ _ r)

theorem Kernel.x_returns {m : Hart H G} (hk : m.Kernel) (o : Leftover) (v : Word) (r : Reg) :
    (m.returns o v).x r = if r = a0 then v else if r ∈ callerSaved then o.regs r else m.x r := by
  rw [x_eq_through ((RegsOnly.returns m o v).active.trans hk), x_eq_through hk,
    through_returns Window.whole_kernel hk]

theorem Kernel.stage {m : Hart H G} (hk : m.Kernel) (v : Word) :
    (m.writeCsr .windowStaged v).Kernel := active_stage _ _ hk

theorem Kernel.x_stage {m : Hart H G} (hk : m.Kernel) (v : Word) (r : Reg) :
    (m.writeCsr .windowStaged v).x r = m.x r := by
  rw [x_eq_through (hk.stage v), x_eq_through hk, through_of_cell (cell_stage _ _)]

/-- The old `pc` goes to `a0`, and the return address to `ra`. -/
def atCall (m : Hart H G) (back : Word) : Hart H G :=
  let m' := m.setX a0 m.mepc
  (m'.setX a0 (m'.x a0 + 4)).setX ra back

theorem RegsOnly.atCall (m : Hart H G) (back : Word) : RegsOnly m (m.atCall back) :=
  ((RegsOnly.setX _ _ _).trans (.setX _ _ _)).trans (.setX _ _ _)

theorem Kernel.atCall {m : Hart H G} (hk : m.Kernel) (back : Word) : (m.atCall back).Kernel :=
  (RegsOnly.atCall m back).active.trans hk

theorem Kernel.x_atCall {m : Hart H G} (hk : m.Kernel) (back : Word) (r : Reg) :
    (m.atCall back).x r =
      if r = ra then back else if r = a0 then m.mepc + 4 else m.x r := by
  let m₁ := m.setX a0 m.mepc
  have hk₁ : m₁.Kernel := hk.setX _ _
  have hk₂ : (m₁.setX a0 (m₁.x a0 + 4)).Kernel := hk₁.setX _ _
  have ha0 : m₁.x a0 = m.mepc := hk.x_setX a0 a0 m.mepc
  change ((m₁.setX a0 (m₁.x a0 + 4)).setX ra back).x r = _
  rw [hk₂.x_setX, hk₁.x_setX, ha0, hk.x_setX]
  by_cases hr : r = ra <;> by_cases ha : r = a0 <;> simp [hr, ha]

theorem through_atCall_disjoint {m : Hart H G} {w : Window} (hd : w.Disjoint (active m.core))
    (back : Word) (r : Reg) : (m.atCall back).through w r = m.through w r := by
  let m₁ := m.setX a0 m.mepc
  have h₁ : RegsOnly m m₁ := .setX _ _ _
  have h₂ : RegsOnly m (m₁.setX a0 (m₁.x a0 + 4)) := h₁.trans (.setX _ _ _)
  exact (through_setX_disjoint (h₂.active ▸ hd) ra r back).trans
    ((through_setX_disjoint (h₁.active ▸ hd) a0 r _).trans (through_setX_disjoint hd a0 r _))

def savedAt (base : Word) (v : Reg → Word) (fs : List (Reg × Word)) (mem : Word → Word) :
    Word → Word :=
  fs.foldl (fun mem f => Function.update mem (base + f.2) (v f.1)) mem

theorem savedAt_self {fs : List (Reg × Word)} (hnd : (fs.map Prod.snd).Nodup) {f : Reg × Word}
    (hf : f ∈ fs) (base : Word) (v : Reg → Word) (mem : Word → Word) :
    savedAt base v fs mem (base + f.2) = v f.1 := by
  have hinj : Function.Injective fun off : Word => base + off :=
    fun _ _ => (BitVec.add_right_inj _).mp
  have haddr : (fs.map fun f => base + f.2).Nodup := by
    have hmap := hnd.map hinj
    rwa [List.map_map] at hmap
  exact View.foldl_update_self (v := fun f => v f.1) haddr hf mem

section
variable {G : Type} (runScheduler : Hart H G → Hart H G) (back : Word) (m : Hart H G)

omit [LawfulCore H] in
theorem run_saves (fs : List (Reg × Word)) :
    (saves fs).foldl (step runScheduler back) m =
      { m with mem := savedAt (m.x sp) m.x fs m.mem } := by
  induction fs generalizing m with
  | nil => rfl
  | cons f fs ih => exact ih (m.store (m.x sp + f.2) (m.x f.1))

theorem RegsOnly.loads (fs : List (Reg × Word)) :
    RegsOnly m ((loads fs).foldl (step runScheduler back) m) := by
  induction fs generalizing m with
  | nil => exact .refl m
  | cons f fs ih => exact (RegsOnly.setX m f.1 _).trans (ih _)

variable {m}

theorem x_loads_other (hk : m.Kernel) (fs : List (Reg × Word)) {r : Reg}
    (hr : r ∉ fs.map Prod.fst) : ((loads fs).foldl (step runScheduler back) m).x r = m.x r := by
  induction fs generalizing m with
  | nil => rfl
  | cons f fs ih =>
    simp only [List.map_cons, List.mem_cons, not_or] at hr
    refine (ih (hk.setX _ _) hr.2).trans ?_
    rw [hk.x_setX, if_neg fun h => hr.1 h.1]

theorem x_loads (hk : m.Kernel) {fs : List (Reg × Word)} (hz : 0 ∉ fs.map Prod.fst)
    (hsp : sp ∉ fs.map Prod.fst) (hnd : (fs.map Prod.fst).Nodup) {f : Reg × Word} (hf : f ∈ fs) :
    ((loads fs).foldl (step runScheduler back) m).x f.1 = m.mem (m.x sp + f.2) := by
  induction fs generalizing m with
  | nil => cases hf
  | cons g fs ih =>
    simp only [List.map_cons, List.mem_cons, not_or, List.nodup_cons] at hz hsp hnd
    rcases List.mem_cons.mp hf with rfl | hf
    · refine (x_loads_other runScheduler back (hk.setX _ _) fs hnd.1).trans ?_
      rw [hk.x_setX, if_pos ⟨rfl, Ne.symm hz.1⟩]
    · refine (ih (hk.setX _ _) hz.2 hsp.2 hnd.2 hf).trans ?_
      rw [hk.x_setX, if_neg fun h => hsp.1 h.1, mem_setX]

structure Pushed (size : Word) (fs : List (Reg × Word)) (m t : Hart H G) : Prop where
  kernel : t.Kernel
  mepc : t.mepc = m.mepc
  globals : t.globals = m.globals
  windowWrites : t.windowWrites = m.windowWrites
  x : ∀ r, t.x r = if r = sp then m.x sp - size else m.x r
  mem : ∀ f ∈ fs, t.mem (m.x sp - size + f.2) = m.x f.1

theorem pushed (hk : m.Kernel) (size : Word) (fs : List (Reg × Word))
    (hsp : sp ∉ fs.map Prod.fst) (hnd : (fs.map Prod.snd).Nodup) :
    Pushed size fs m ((push size fs).foldl (step runScheduler back) m) := by
  let m' := m.setX sp (m.x sp + -size)
  have hx : ∀ r, m'.x r = if r = sp then m.x sp - size else m.x r := by
    intro r
    rw [hk.x_setX, ← BitVec.sub_eq_add_neg]
    by_cases hr : r = sp <;> simp [hr]
  have hsp' : m'.x sp = m.x sp - size := hx sp
  have ht : (push size fs).foldl (step runScheduler back) m =
      { m' with mem := savedAt (m'.x sp) m'.x fs m'.mem } := run_saves runScheduler back m' fs
  rw [ht, hsp']
  refine ⟨hk.setX _ _, rfl, rfl, rfl, hx, fun f hf => (savedAt_self hnd hf _ _ _).trans ?_⟩
  rw [hx, if_neg fun h => hsp (List.mem_map.mpr ⟨f, hf, h⟩)]

structure Popped (size : Word) (fs : List (Reg × Word)) (m t : Hart H G) : Prop where
  kernel : t.Kernel
  mepc : t.mepc = m.mepc
  windowWrites : t.windowWrites = m.windowWrites
  mem : t.mem = m.mem
  x_sp : t.x sp = m.x sp + size
  x_of_mem : ∀ f ∈ fs, t.x f.1 = m.mem (m.x sp + f.2)
  x_other : ∀ r, r ≠ sp → r ∉ fs.map Prod.fst → t.x r = m.x r

theorem popped (hk : m.Kernel) (size : Word) (fs : List (Reg × Word)) (hz : 0 ∉ fs.map Prod.fst)
    (hsp : sp ∉ fs.map Prod.fst) (hnd : (fs.map Prod.fst).Nodup) :
    Popped size fs m ((pop size fs).foldl (step runScheduler back) m) := by
  have hloads := RegsOnly.loads runScheduler back m fs
  have hin := fun f => x_loads runScheduler back hk hz hsp hnd (f := f)
  have hout := fun r => x_loads_other runScheduler back hk fs (r := r)
  rw [pop, List.foldl_append]
  set m' := (loads fs).foldl (step runScheduler back) m
  have hk' : m'.Kernel := hloads.active.trans hk
  have hx : ∀ r, (m'.setX sp (m'.x sp + size)).x r = if r = sp then m'.x sp + size else m'.x r := by
    intro r
    rw [hk'.x_setX]
    by_cases hr : r = sp <;> simp [hr]
  refine ⟨hk'.setX _ _, hloads.mepc, hloads.windowWrites, hloads.mem, ?_, fun f hf => ?_,
    fun r hr hr' => ?_⟩
  · exact (hx sp).trans (congrArg (· + size) (hout sp hsp))
  · refine (hx f.1).trans ?_
    rw [if_neg fun h => hsp (List.mem_map.mpr ⟨f, hf, h⟩), hin f hf]
  · exact (hx r).trans ((if_neg hr).trans (hout r hr'))

end

end Hart

end Research

end RegisterWindows
