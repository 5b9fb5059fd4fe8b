import Mathlib.Algebra.Group.Defs
import RegisterWindows.Port.Restore

namespace RegisterWindows.Port
open Machine RegisterWindows.Core

def initialHead (mstatus pxCode : Word) : FrameHead :=
  ⟨pxCode, (mstatus &&& ~~~0x8#32) ||| 0x1880#32, 0, 0, 0⟩

/-- Words of the frame that `pxPortInitialiseStack` fills; word 3, for one, is not among them. -/
def initialisedSlots : List Nat := [0, 1, 2, 8, 30, 31, 32]

/-- The frame `f` that is made out of `top`, and what its words hold. -/
structure Initialised (L : Image) (mstatus : Word) (mem : Word → Word) (f pxCode params : Word)
    (mem' : Word → Word) : Prop where
  head : headAt mem' f = initialHead mstatus pxCode
  ra : mem' (f + slot 2) = mem (L.addr .xTaskReturnAddress)
  a0 : mem' (f + slot 8) = params
  mem_other : ∀ a, (∀ k ∈ initialisedSlots, a ≠ f + slot k) → mem' a = mem a

theorem pxPortInitialiseStack_spec (L : Image) (mstatus : Word) (mem : Word → Word)
    (top pxCode params : Word) {h : Word} (hin : InStack L h (pushed top)) :
    (pxPortInitialiseStack L mstatus mem top pxCode params).2 = pushed top ∧
    Initialised L mstatus mem (pushed top) pxCode params
      (pxPortInitialiseStack L mstatus mem top pxCode params).1 := by
  obtain ⟨f, hf⟩ : ∃ f, f = pushed top := ⟨_, rfl⟩
  have htop : top = f + slot 33 := by rw [hf]; exact (pushed_add top).symm
  have hs := fun (k : Nat) (hk : k < 33) (s : Sym) => (hin.ne_sym hk s).symm
  rw [← hf] at hs ⊢
  simp only [pxPortInitialiseStack, htop]
  obtain ⟨m, hm⟩ : ∃ m : Machine Flat, m = ⟨⟨fun r => if r = a0 then f + slot 33
    else if r = a1 then pxCode else if r = a2 then params else 0, 0⟩, 0, 0, 0, mstatus, mem⟩ :=
    ⟨_, rfl⟩
  rw [← hm]
  have h10 : m.x 10 = f + slot 33 := by rw [hm]; rfl
  have h11 : m.x 11 = pxCode := by rw [hm]; rfl
  have h12 : m.x 12 = params := by rw [hm]; rfl
  have hmem : m.mem = mem := by rw [hm]
  have hst : m.mstatus = mstatus := by rw [hm]
  -- the last word is reached as `f + slot 0`, which must not be cancelled to `f`
  constructor
  · simp [-add_neg_cancel_right, initialiseStack, h10, show slot 0 = 0#32 from rfl]
  · constructor
    · simp [-add_neg_cancel_right, headAt, initialiseStack, h10, h11, h12, initialHead, hst]
    · simp [-add_neg_cancel_right, initialiseStack, h10, h11, h12, hs, hmem]
    · simp [-add_neg_cancel_right, initialiseStack, h10, h11, h12]
    · intro a ha
      simp [initialisedSlots] at ha
      simp [-add_neg_cancel_right, initialiseStack, h10, h11, h12, hmem, ha]

section
variable {H : Type} [Core H]

/-- The state at the `mret` of `xPortStartFirstTaskWindowed`, reached with the frame at `f`.
What is staged is word 3 of the frame, the slot of `x5`, not `window_cfg`. -/
structure StartedWindowed (L : Image) (f : Word) (m m' : Machine H) : Prop where
  mepc : m'.mepc = (headAt m.mem f).pc
  mstatus : m'.mstatus = (headAt m.mem f).mstatus + 8
  nesting : m'.mem (L.addr .xCriticalNesting) = (headAt m.mem f).nesting
  flag : m'.mem (L.addr .portCurrentTaskWindowBase) = (headAt m.mem f).windowCfg &&& 0xFFFF#32
  staged : Core.staged m'.core = m.mem (f + slot 3)
  sp : m'.x sp = f
  gprs : ∀ g ∈ lowGprs ++ highGprs, m'.x g.1 = m.mem (f + slot g.2)
  mem_other : ∀ a, a ≠ L.addr .xCriticalNesting → a ≠ L.addr .portCurrentTaskWindowBase →
    m'.mem a = m.mem a

/-- The state at the `ret` of `xPortStartFirstTask`, reached with the frame at `f`. -/
structure StartedLegacy (L : Image) (f : Word) (m m' : Machine H) : Prop where
  ra : m'.x ra = (headAt m.mem f).pc
  mstatus : m'.mstatus = (headAt m.mem f).mstatus + 8
  nesting : m'.mem (L.addr .xCriticalNesting) = (headAt m.mem f).nesting
  staged : Core.staged m'.core = Core.staged m.core
  sp : m'.x sp = f + portContextSize
  gprs : ∀ g ∈ startGprs, m'.x g.1 = m.mem (f + slot g.2)
  mem_other : ∀ a, a ≠ L.addr .xCriticalNesting → m'.mem a = m.mem a

end

def startWindowedHead : List Instr :=
  [.li t5 0xFFFF,
   .and t5 t0 t5,
   .la t6 .portCurrentTaskWindowBase,
   .storeX t5 0 t6,
   .loadX t1 (slot 0) sp,
   .loadX t2 (slot 1) sp,
   .addi t2 t2 0x08,
   .loadX t3 (slot portCriticalNestingOffset) sp,
   .loadSym t4 .pxCriticalNesting,
   .storeX t3 0 t4,
   .csrw .mepc t1,
   .csrw .mstatus t2]

theorem startWindowed_eq : startWindowed = startWindowedHead ++
    (loadGprs (lowGprs ++ highGprs) ++ [.add 2 sp 0, .csrw .windowStaged t0]) := rfl

theorem run_startHead (L : Image) (m : Machine Flat) {f : Word}
    (hf : m.mem (m.mem (L.addr .pxCurrentTCB)) = f) :
    (m.run L startHead).mem = m.mem ∧ (m.run L startHead).x sp = f ∧
    (m.run L startHead).x t0 = m.mem (f + slot 31) ∧
    (m.run L startHead).core.staged = m.core.staged := by
  refine ⟨?_, ?_, ?_, ?_⟩ <;> simp [startHead, hf]

theorem run_startWindowedHead (L : Image) (m : Machine Flat) {f : Word} (hsp : m.x sp = f)
    (hin : FreeFrame L f) (hp : m.mem (L.addr .pxCriticalNesting) = L.addr .xCriticalNesting) :
    (m.run L startWindowedHead).mepc = m.mem (f + slot 0) ∧
    (m.run L startWindowedHead).mstatus = m.mem (f + slot 1) + 8 ∧
    (m.run L startWindowedHead).mem =
      Function.update (Function.update m.mem (L.addr .portCurrentTaskWindowBase)
        (m.x t0 &&& 0xFFFF#32)) (L.addr .xCriticalNesting) (m.mem (f + slot 30)) ∧
    (m.run L startWindowedHead).x sp = f := by
  have hsp' : m.x 2 = f := hsp
  have hs := fun (k : Nat) (hk : k < 33) (s : Sym) => L.ne_addr_of_free (hin k hk) s
  refine ⟨?_, ?_, ?_, ?_⟩
  · simp [startWindowedHead, hsp', hs, hp]
  · simp [startWindowedHead, hsp', hs, hp]
  · simp [startWindowedHead, hsp', hs, hp, mem_store]
  · simp [startWindowedHead, hsp', hs, hp]

theorem startWindowed_flat (L : Image) (m : Machine Flat) {f : Word} (hin : FreeFrame L f)
    (hf : m.mem (m.mem (L.addr .pxCurrentTCB)) = f)
    (hp : m.mem (L.addr .pxCriticalNesting) = L.addr .xCriticalNesting) :
    StartedWindowed L f m ((m.run L startHead).run L startWindowed) := by
  have hfacts : ∀ g ∈ lowGprs ++ highGprs, g.2 < 33 ∧ g.1 ≠ 2 := by decide
  obtain ⟨hmem0, hsp0, ht0, -⟩ := run_startHead L m hf
  obtain ⟨hmepc, hmstatus, hmem, hsp⟩ :=
    run_startWindowedHead L (m.run L startHead) hsp0 hin (by rw [hmem0]; exact hp)
  rw [hmem0] at hmepc hmstatus hmem
  rw [ht0] at hmem
  rw [startWindowed_eq, run_append, run_append]
  obtain ⟨n, hn⟩ : ∃ n, n = (m.run L startHead).run L startWindowedHead := ⟨_, rfl⟩
  rw [← hn] at hmepc hmstatus hmem hsp ⊢
  obtain ⟨hmem2, hmepc2, hmstatus2, -⟩ := run_loadGprs L n (lowGprs ++ highGprs)
  have hsp2 := (x_loadGprs_other L n (lowGprs ++ highGprs) (r := sp) (by decide)).trans hsp
  have hload : ∀ g ∈ lowGprs ++ highGprs,
      (n.run L (loadGprs (lowGprs ++ highGprs))).x g.1 = m.mem (f + slot g.2) := by
    intro g hg
    rw [x_loadGprs L n (by decide) (by decide) (by decide) hg, hsp, hmem,
      Function.update_of_ne (L.ne_addr_of_free (hin _ (hfacts g hg).1) _),
      Function.update_of_ne (L.ne_addr_of_free (hin _ (hfacts g hg).1) _)]
  obtain ⟨q, hq⟩ : ∃ q, q = n.run L (loadGprs (lowGprs ++ highGprs)) := ⟨_, rfl⟩
  rw [← hq] at hmem2 hmepc2 hmstatus2 hsp2 hload ⊢
  have hsp2' : q.x 2 = f := hsp2
  have ht0' : q.x 5 = m.mem (f + slot 3) := hload (5, 3) (by decide)
  constructor
  case gprs =>
    intro g hg
    simp [(hfacts g hg).2, hload g hg]
  case mem_other =>
    intro a h1 h2
    simp [hmem2, hmem, h1, h2]
  all_goals simp [hmepc2, hmepc, hmstatus2, hmstatus, hmem2, hmem, hsp2', ht0', headAt]

def startLegacyHead : List Instr :=
  [.loadX ra (slot 0) sp,
   .loadX t0 (slot 1) sp,
   .addi t0 t0 0x08,
   .csrw .mstatus t0]

def startLegacyTail : List Instr :=
  [.loadX t0 (slot portCriticalNestingOffset) sp,
   .loadSym t1 .pxCriticalNesting,
   .storeX t0 0 t1,
   .loadX t0 (slot 3) sp,
   .loadX t1 (slot 4) sp,
   .addi sp sp portContextSize]

theorem startLegacy_eq :
    startLegacy = startLegacyHead ++ (loadGprs startGprs ++ startLegacyTail) := rfl

theorem run_startLegacyHead (L : Image) (m : Machine Flat) {f : Word} (hsp : m.x sp = f) :
    (m.run L startLegacyHead).x ra = m.mem (f + slot 0) ∧
    (m.run L startLegacyHead).mstatus = m.mem (f + slot 1) + 8 ∧
    (m.run L startLegacyHead).mem = m.mem ∧ (m.run L startLegacyHead).x sp = f ∧
    (m.run L startLegacyHead).core.staged = m.core.staged := by
  have hsp' : m.x 2 = f := hsp
  refine ⟨?_, ?_, ?_, ?_, ?_⟩ <;> simp [startLegacyHead, hsp']

theorem startLegacy_flat (L : Image) (m : Machine Flat)
    {f : Word} (hf : m.mem (m.mem (L.addr .pxCurrentTCB)) = f)
    (hp : m.mem (L.addr .pxCriticalNesting) = L.addr .xCriticalNesting) :
    StartedLegacy L f m ((m.run L startHead).run L startLegacy) := by
  have hfacts : ∀ g ∈ startGprs, g.1 ≠ 2 ∧ g.1 ≠ 5 ∧ g.1 ≠ 6 := by decide
  obtain ⟨hmem0, hsp0, -, hstaged0⟩ := run_startHead L m hf
  obtain ⟨hra, hmstatus, hmem, hsp, hstaged⟩ := run_startLegacyHead L (m.run L startHead) hsp0
  rw [hmem0] at hra hmstatus hmem
  rw [hstaged0] at hstaged
  rw [startLegacy_eq, run_append, run_append]
  obtain ⟨n, hn⟩ : ∃ n, n = (m.run L startHead).run L startLegacyHead := ⟨_, rfl⟩
  rw [← hn] at hra hmstatus hmem hsp hstaged ⊢
  obtain ⟨hmem2, -, hmstatus2, hstaged2⟩ := run_loadGprs L n startGprs
  have hsp2 := (x_loadGprs_other L n startGprs (r := sp) (by decide)).trans hsp
  have hra2 := (x_loadGprs_other L n startGprs (r := ra) (by decide)).trans hra
  have hload : ∀ g ∈ startGprs, (n.run L (loadGprs startGprs)).x g.1 = m.mem (f + slot g.2) := by
    intro g hg
    rw [x_loadGprs L n (by decide) (by decide) (by decide) hg, hsp, hmem]
  obtain ⟨q, hq⟩ : ∃ q, q = n.run L (loadGprs startGprs) := ⟨_, rfl⟩
  rw [← hq] at hmem2 hmstatus2 hstaged2 hsp2 hra2 hload ⊢
  have hsp2' : q.x 2 = f := hsp2
  have hra2' : q.x 1 = m.mem (f + slot 0) := hra2
  rw [hmem] at hmem2
  constructor
  case gprs =>
    intro g hg
    simp [startLegacyTail, hfacts g hg, hload g hg]
  case mem_other =>
    intro a h1
    simp [startLegacyTail, hmem2, hp, h1]
  all_goals simp [startLegacyTail, hmstatus2, hmstatus, hmem2, hsp2', hra2', hp, headAt, hstaged2,
    hstaged]

section
variable {H : Type} [WindowedCore H] [LawfulCore H]

theorem kernelRun_start (L : Image) {m : Machine H} (hk : m.Kernel) (is : List Instr) :
    KernelRun m ((m.run L startHead).run L is) ((m.view.run L startHead).run L is) :=
  (KernelRun.block L hk startHead).andThen L is

theorem startHead_t0 (L : Image) {m : Machine H} (hk : m.Kernel) {f : Word}
    (hf : m.mem (m.mem (L.addr .pxCurrentTCB)) = f) :
    (m.run L startHead).x t0 = (headAt m.mem f).windowCfg := by
  rw [(KernelRun.block L hk startHead).x_eq]
  exact (run_startHead L m.view hf).2.2.1

theorem StartedWindowed.of_view {L : Image} {f : Word} {m m' : Machine H}
    (hs : StartedWindowed L f m.view m'.view) : StartedWindowed L f m m' := by
  have hsp := hs.sp
  have hgprs := hs.gprs
  simp only [view_x] at hsp hgprs
  exact ⟨hs.mepc, hs.mstatus, hs.nesting, hs.flag, hs.staged, hsp, hgprs, hs.mem_other⟩

theorem StartedLegacy.of_view {L : Image} {f : Word} {m m' : Machine H}
    (hs : StartedLegacy L f m.view m'.view) : StartedLegacy L f m m' := by
  have hra := hs.ra
  have hsp := hs.sp
  have hgprs := hs.gprs
  simp only [view_x] at hra hsp hgprs
  exact ⟨hra, hs.mstatus, hs.nesting, hs.staged, hsp, hgprs, hs.mem_other⟩

theorem startWindowed_spec (L : Image) {m : Machine H} (hk : m.Kernel) {f : Word}
    (hin : FreeFrame L f) (hf : m.mem (m.mem (L.addr .pxCurrentTCB)) = f)
    (hp : m.mem (L.addr .pxCriticalNesting) = L.addr .xCriticalNesting) :
    StartedWindowed L f m ((m.run L startHead).run L startWindowed) := by
  have hrun := kernelRun_start L hk startWindowed
  have hs := startWindowed_flat L m.view hin hf hp
  rw [← hrun.view] at hs
  exact hs.of_view

theorem startLegacy_spec (L : Image) {m : Machine H} (hk : m.Kernel) {f : Word}
    (hf : m.mem (m.mem (L.addr .pxCurrentTCB)) = f)
    (hp : m.mem (L.addr .pxCriticalNesting) = L.addr .xCriticalNesting) :
    StartedLegacy L f m ((m.run L startHead).run L startLegacy) := by
  have hrun := kernelRun_start L hk startLegacy
  have hs := startLegacy_flat L m.view hf hp
  rw [← hrun.view] at hs
  exact hs.of_view

end

end RegisterWindows.Port
