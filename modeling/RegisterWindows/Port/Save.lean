import RegisterWindows.Port.Frame

namespace RegisterWindows.Port
open Machine RegisterWindows.Core

/-- Where a trap taken at `pc` resumes: `ecall` is skipped, an interrupted instruction is not. -/
def resumePc (cause pc : Word) : Word := if cause.msb = false then pc + 4 else pc

/-- The frame the save macro pushes below a stack pointer. -/
def pushed (top : Word) : Word := top + -portContextSize

theorem pushed_add (top : Word) : pushed top + portContextSize = top := by
  rw [pushed, BitVec.add_assoc, BitVec.add_comm (-portContextSize), BitVec.add_right_neg,
    BitVec.add_zero]

theorem pushed_of_add (f : Word) : pushed (f + portContextSize) = f := by
  rw [pushed, BitVec.add_assoc, BitVec.add_right_neg, BitVec.add_zero]

section
variable {H : Type} [Core H]

/-- The frame head the trap handler writes, as a function of the state at its entry. -/
def savedHead (L : Image) (m : Machine H) : FrameHead where
  pc := resumePc m.mcause m.mepc
  mstatus := m.mstatus
  nesting := m.mem (L.addr .xCriticalNesting)
  windowCfg := if m.mem (L.addr .portCurrentTaskWindowBase) = 0 then 0 else staged m.core
  contextType := if m.mem (L.addr .portCurrentTaskWindowBase) = 0 then 0 else 1

/-- What `freertos_risc_v_trap_handler` has written when it jumps to the C handler. -/
structure Saved (L : Image) (m m' : Machine H) : Prop where
  top : m'.mem (m.mem (L.addr .pxCurrentTCB)) = pushed (m.x sp)
  head : headAt m'.mem (pushed (m.x sp)) = savedHead L m
  /-- Only `x5` is lost on the way: the window test has overwritten it with 0. -/
  gprs : m.mem (L.addr .portCurrentTaskWindowBase) = 0 → ∀ g ∈ lowGprs ++ highGprs,
    m'.mem (pushed (m.x sp) + slot g.2) = if g.1 = t0 then 0 else m.x g.1
  mem_other : ∀ a, a ≠ m.mem (L.addr .pxCurrentTCB) →
    (∀ k < 33, a ≠ pushed (m.x sp) + slot k) → m'.mem a = m.mem a

/-- The same before the trap handler has filled in word 0: frame head `fh` at `f`. -/
structure SavedBody (L : Image) (f : Word) (fh : FrameHead) (m m' : Machine H) : Prop where
  sp : m'.x sp = f
  mepc : m'.mepc = m.mepc
  mcause : m'.mcause = m.mcause
  top : m'.mem (m.mem (L.addr .pxCurrentTCB)) = f
  mstatus : m'.mem (f + slot 1) = fh.mstatus
  nesting : m'.mem (f + slot 30) = fh.nesting
  windowCfg : m'.mem (f + slot 31) = fh.windowCfg
  contextType : m'.mem (f + slot 32) = fh.contextType
  mem_other : ∀ a, a ≠ m.mem (L.addr .pxCurrentTCB) →
    (∀ k < 33, a ≠ f + slot k) → m'.mem a = m.mem a

end

/-- A frame in the current task's stack: it meets neither a symbol nor the TCB. -/
structure Room (L : Image) (mem : Word → Word) (h f : Word) : Prop where
  tcb : L.region (mem (L.addr .pxCurrentTCB)) = .tcb h
  stack : InStack L h f

namespace Room
variable {L : Image} {mem : Word → Word} {h f : Word}

theorem sym_ne (hr : Room L mem h f) {k : Nat} (hk : k < 33) (s : Sym) :
    L.addr s ≠ f + slot k := (hr.stack.ne_sym hk s).symm

theorem tcb_ne (hr : Room L mem h f) {k : Nat} (hk : k < 33) :
    f + slot k ≠ mem (L.addr .pxCurrentTCB) :=
  hr.stack.ne_tcb hk hr.tcb

end Room

theorem run_windowBaseTest (L : Image) (m : Machine Flat) :
    m.run L windowBaseTest = (m.setX t0 (L.addr .portCurrentTaskWindowBase)).setX t0
      (m.mem (L.addr .portCurrentTaskWindowBase)) := by
  simp [windowBaseTest]

theorem exec_push (L : Image) (m : Machine Flat) :
    m.exec L (.addi sp sp (-portContextSize)) = m.setX sp (pushed (m.x sp)) := rfl

theorem run_minimalSave (L : Image) (m : Machine Flat) {h f : Word} (hf : f = pushed (m.x sp))
    (hr : Room L m.mem h f) :
    SavedBody L f ⟨0, m.mstatus, m.mem (L.addr .xCriticalNesting), m.core.staged, 1⟩ m
      (m.run L minimalSave) := by
  have hs := fun (k : Nat) (hk : k < 33) (s : Sym) => hr.sym_ne hk s
  have ht := fun (k : Nat) (hk : k < 33) => hr.tcb_ne hk
  simp only [minimalSave, run_cons, run_nil, exec_push, ← hf]
  constructor
  case mem_other =>
    intro a ha ho
    simp [hs, ha, ho]
  all_goals simp [hs, ht]

/-- The part of the full save that follows the register stores. -/
def fullSaveTail : List Instr :=
  [.loadSym t0 .xCriticalNesting,
   .storeX t0 (slot portCriticalNestingOffset) sp,
   .csrr t0 .mstatus,
   .storeX t0 (slot 1) sp,
   .storeX 0 (slot portWindowCfgOffset) sp,
   .storeX 0 (slot portContextTypeOffset) sp,
   .loadSym t0 .pxCurrentTCB,
   .storeX sp 0 t0]

theorem fullSave_eq : fullSave = .addi sp sp (-portContextSize) ::
    (storeGprs (highGprs ++ lowGprs) ++ fullSaveTail) := rfl

theorem run_fullSaveTail (L : Image) (m : Machine Flat) {h f : Word} (hf : m.x sp = f)
    (hr : Room L m.mem h f) :
    SavedBody L f ⟨0, m.mstatus, m.mem (L.addr .xCriticalNesting), 0, 0⟩ m
      (m.run L fullSaveTail) ∧
    ∀ k, 2 ≤ k → k < 30 → (m.run L fullSaveTail).mem (f + slot k) = m.mem (f + slot k) := by
  have hs := fun (k : Nat) (hk : k < 33) (s : Sym) => hr.sym_ne hk s
  have ht := fun (k : Nat) (hk : k < 33) => hr.tcb_ne hk
  have hsp : m.x 2 = f := hf
  simp only [fullSaveTail, run_cons, run_nil]
  constructor
  · constructor
    case mem_other =>
      intro a ha ho
      simp [hsp, hs, ha, ho]
    all_goals simp [hsp, hs, ht]
  · intro k hlo hhi
    have hk : k < 33 := by omega
    have hne : k ≠ 1 ∧ k ≠ 30 ∧ k ≠ 31 ∧ k ≠ 32 := by omega
    simp [hsp, hs, ht, hk, hne]

/-- The full save also keeps `x1` and `x5` .. `x31`, as they are at its first instruction. -/
theorem run_fullSave (L : Image) (m : Machine Flat) {h f : Word} (hf : f = pushed (m.x sp))
    (hr : Room L m.mem h f) :
    SavedBody L f ⟨0, m.mstatus, m.mem (L.addr .xCriticalNesting), 0, 0⟩ m (m.run L fullSave) ∧
    ∀ g ∈ highGprs ++ lowGprs, (m.run L fullSave).mem (f + slot g.2) = m.x g.1 := by
  have hslots : ∀ g ∈ highGprs ++ lowGprs, 2 ≤ g.2 ∧ g.2 < 30 := by decide
  have hregs : ∀ g ∈ highGprs ++ lowGprs, g.1 ≠ 2 := by decide
  have hnd : ((highGprs ++ lowGprs).map Prod.snd).Nodup := by decide
  rw [fullSave_eq, run_cons, exec_push, ← hf, run_append]
  obtain ⟨hcore, hmepc, hmcause, hmstatus⟩ :=
    run_storeGprs L (m.setX sp f) (highGprs ++ lowGprs)
  have hsp : (m.setX sp f).x sp = f := by simp
  have hmem : ∀ a, (∀ g ∈ highGprs ++ lowGprs, a ≠ f + slot g.2) →
      ((m.setX sp f).run L (storeGprs (highGprs ++ lowGprs))).mem a = m.mem a := fun a ha =>
    mem_storeGprs_other L (m.setX sp f) _ (hsp ▸ ha)
  have hget : ∀ g ∈ highGprs ++ lowGprs,
      ((m.setX sp f).run L (storeGprs (highGprs ++ lowGprs))).mem (f + slot g.2) =
        (m.setX sp f).x g.1 := by
    intro g hg
    have h := mem_storeGprs L (m.setX sp f)
      (fun g hg => (hslots g hg).2.trans (by omega)) hnd hg
    rwa [hsp] at h
  generalize (m.setX sp f).run L (storeGprs (highGprs ++ lowGprs)) = n at *
  -- the stores leave every word outside the frame alone
  have hout : ∀ a, (∀ k < 33, a ≠ f + slot k) → n.mem a = m.mem a := fun a ha =>
    hmem a (fun g hg => ha g.2 ((hslots g hg).2.trans (by omega)))
  have hsym : ∀ s, n.mem (L.addr s) = m.mem (L.addr s) := fun s =>
    hout _ (fun k hk => hr.sym_ne hk s)
  have hnsp : n.x sp = f := by rw [Machine.x, hcore]; exact hsp
  have hrn : Room L n.mem h f := ⟨by rw [hsym]; exact hr.tcb, hr.stack⟩
  obtain ⟨body, hkeep⟩ := run_fullSaveTail L n hnsp hrn
  refine ⟨⟨body.sp, body.mepc.trans hmepc, body.mcause.trans hmcause, hsym _ ▸ body.top,
    body.mstatus.trans hmstatus, body.nesting.trans (hsym _), body.windowCfg,
    body.contextType, fun a ha ho => ?_⟩, fun g hg => ?_⟩
  · exact (body.mem_other a (by rw [hsym]; exact ha) ho).trans (hout a ho)
  · rw [hkeep g.2 (hslots g hg).1 (hslots g hg).2, hget g hg]
    simp [hregs g hg]

theorem SavedBody.of_eq {L : Image} {f : Word} {fh : FrameHead} {m n m' : Machine Flat}
    (hb : SavedBody L f fh n m') (hmem : n.mem = m.mem) (hmepc : n.mepc = m.mepc)
    (hmcause : n.mcause = m.mcause) : SavedBody L f fh m m' where
  sp := hb.sp
  mepc := hb.mepc.trans hmepc
  mcause := hb.mcause.trans hmcause
  top := hmem ▸ hb.top
  mstatus := hb.mstatus
  nesting := hb.nesting
  windowCfg := hb.windowCfg
  contextType := hb.contextType
  mem_other := hmem ▸ hb.mem_other

/-- Both branches of `portcontextSAVE_CONTEXT_INTERNAL`. -/
theorem portcontextSaveContextInternal_spec (L : Image) (m : Machine Flat) {h f : Word}
    (hf : f = pushed (m.x sp)) (hr : Room L m.mem h f) :
    SavedBody L f (savedHead L m) m (portcontextSaveContextInternal L m) ∧
    (m.mem (L.addr .portCurrentTaskWindowBase) = 0 → ∀ g ∈ lowGprs ++ highGprs,
      (portcontextSaveContextInternal L m).mem (f + slot g.2) =
        if g.1 = t0 then 0 else m.x g.1) := by
  have hx : ∀ r, (m.run L windowBaseTest).x r =
      if r = t0 then m.mem (L.addr .portCurrentTaskWindowBase) else m.x r := by
    intro r
    by_cases hr : r = 5 <;> simp [run_windowBaseTest, hr]
  have hmem : (m.run L windowBaseTest).mem = m.mem := by simp [run_windowBaseTest]
  have hmepc : (m.run L windowBaseTest).mepc = m.mepc := by simp [run_windowBaseTest]
  have hmcause : (m.run L windowBaseTest).mcause = m.mcause := by simp [run_windowBaseTest]
  have hstatus : (m.run L windowBaseTest).mstatus = m.mstatus := by simp [run_windowBaseTest]
  have hstaged : (m.run L windowBaseTest).core.staged = m.core.staged := by
    simp [run_windowBaseTest]
  have hf' : f = pushed ((m.run L windowBaseTest).x sp) := by rw [hx]; simpa using hf
  have hr' : Room L (m.run L windowBaseTest).mem h f := by rw [hmem]; exact hr
  simp only [portcontextSaveContextInternal, savedHead]
  rw [show (m.run L windowBaseTest).x t0 = _ from hx t0, if_pos rfl]
  by_cases hb : m.mem (L.addr .portCurrentTaskWindowBase) = 0
  · obtain ⟨body, hregs⟩ := run_fullSave L _ hf' hr'
    rw [hmem, hstatus] at body
    simp only [hb, ne_eq, not_true_eq_false, if_false, if_true]
    refine ⟨?_, fun _ g hg => ?_⟩
    · have hbody := body.of_eq hmem hmepc hmcause
      exact ⟨hbody.sp, hbody.mepc, hbody.mcause, hbody.top, hbody.mstatus, hbody.nesting,
        hbody.windowCfg, hbody.contextType, hbody.mem_other⟩
    · rw [hregs g (List.mem_append.mpr (List.mem_append.mp hg).symm), hx, hb]
  · have body := (run_minimalSave L _ hf' hr').of_eq hmem hmepc hmcause
    rw [hmem, hstatus, hstaged] at body
    simp only [hb, ne_eq, not_false_eq_true, if_true, if_false]
    exact ⟨⟨body.sp, body.mepc, body.mcause, body.top, body.mstatus, body.nesting,
      body.windowCfg, body.contextType, body.mem_other⟩, fun h => h.elim⟩

/-- The trap handler adds the resume address as word 0 of what the macro saved. -/
theorem mem_freertosRiscvTrapHandler (L : Image) (m : Machine Flat) {h f : Word}
    (hf : f = pushed (m.x sp)) (hr : Room L m.mem h f) :
    (freertosRiscvTrapHandler L m).mem =
      ((portcontextSaveContextInternal L m).store (f + slot 0) (resumePc m.mcause m.mepc)).mem := by
  obtain ⟨body, -⟩ := portcontextSaveContextInternal_spec L m hf hr
  have hsp : (portcontextSaveContextInternal L m).x 2 = f := body.sp
  have h0 : slot 0 = 0 := rfl
  simp only [freertosRiscvTrapHandler, resumePc]
  by_cases hc : m.mcause.msb = false
  · simp [hc, hsp, body.mepc, body.mcause, h0, Machine.store]
  · simp [hc, hsp, body.mepc, body.mcause, h0, Machine.store]

/-- The entry of the trap handler writes the frame it promises and nothing else. -/
theorem freertosRiscvTrapHandler_flat (L : Image) (m : Machine Flat) {h : Word}
    (hr : Room L m.mem h (pushed (m.x sp))) : Saved L m (freertosRiscvTrapHandler L m) := by
  obtain ⟨body, hregs⟩ := portcontextSaveContextInternal_spec L m rfl hr
  have hmem := mem_freertosRiscvTrapHandler L m rfl hr
  have hslot : ∀ k, 0 < k → k < 33 → (freertosRiscvTrapHandler L m).mem
      (pushed (m.x sp) + slot k) =
        (portcontextSaveContextInternal L m).mem (pushed (m.x sp) + slot k) := by
    intro k hpos hk
    have hne : k ≠ 0 := by omega
    rw [hmem, mem_store_of_ne]
    simp [hk, hne]
  constructor
  case top =>
    rw [hmem, mem_store_of_ne _ _ (hr.tcb_ne (by omega)).symm]
    exact body.top
  case head =>
    refine FrameHead.ext ?_ ?_ ?_ ?_ ?_
    · simp [headAt, hmem, savedHead]
    · exact (hslot 1 (by omega) (by omega)).trans body.mstatus
    · exact (hslot 30 (by omega) (by omega)).trans body.nesting
    · exact (hslot 31 (by omega) (by omega)).trans body.windowCfg
    · exact (hslot 32 (by omega) (by omega)).trans body.contextType
  case gprs =>
    intro hb g hg
    have hlt : ∀ g ∈ lowGprs ++ highGprs, 0 < g.2 ∧ g.2 < 33 := by decide
    rw [hslot g.2 (hlt g hg).1 (hlt g hg).2]
    exact hregs hb g hg
  case mem_other =>
    intro a ha ho
    rw [hmem, mem_store_of_ne _ _ (ho 0 (by omega))]
    exact body.mem_other a ha ho

section
variable {H : Type} [WindowedCore H] [LawfulCore H]

theorem kernelRun_save (L : Image) {m : Machine H} (hk : m.Kernel) :
    KernelRun m (portcontextSaveContextInternal L m)
      (portcontextSaveContextInternal L m.view) := by
  have htest := KernelRun.block L hk windowBaseTest
  simp only [portcontextSaveContextInternal, htest.x_eq]
  split
  · exact htest.andThen L _
  · exact htest.andThen L _

theorem kernelRun_trapHandler (L : Image) {m : Machine H} (hk : m.Kernel) :
    KernelRun m (freertosRiscvTrapHandler L m) (freertosRiscvTrapHandler L m.view) := by
  have hcause := (kernelRun_save L hk).andThen L [.csrr a0 .mcause, .csrr a1 .mepc]
  simp only [freertosRiscvTrapHandler, hcause.x_eq]
  split
  · exact hcause.andThen L _
  · exact hcause.andThen L _

theorem Saved.of_view {L : Image} {m m' : Machine H} (hs : Saved L m.view m'.view) :
    Saved L m m' := by
  have hsp : m.view.x sp = m.x sp := view_x m sp
  have hgprs := hs.gprs
  simp only [hsp, view_x] at hgprs
  exact ⟨hsp ▸ hs.top, hsp ▸ hs.head, hgprs, hsp ▸ hs.mem_other⟩

/-- What the trap handler saves of a core whose kernel window is active. -/
theorem freertosRiscvTrapHandler_spec (L : Image) {m : Machine H} (hk : m.Kernel) {h : Word}
    (hr : Room L m.mem h (pushed (m.x sp))) :
    Saved L m (freertosRiscvTrapHandler L m) := by
  have hrun := kernelRun_trapHandler L hk
  have hs := freertosRiscvTrapHandler_flat L m.view (h := h) (by
    rw [show m.view.x sp = m.x sp from view_x m sp]
    exact hr)
  rw [← hrun.view] at hs
  exact hs.of_view

end

end RegisterWindows.Port
