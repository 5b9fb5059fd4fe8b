import RegisterWindows.Port.Save

namespace RegisterWindows.Port
open Machine RegisterWindows.Core

/-- The globals `portcontextRESTORE_CONTEXT` may write. -/
def restoreWrites : List Sym :=
  [.xCriticalNesting, .portCurrentTaskWindowBase, .portWindowInvalidMinimalRestore,
   .portWindowKernelBorrowRestores, .portWindowKernelStageCount]

/-- What a register holds after the full path, if its frame word is `v`: the window
staging that follows the loads uses `t2`, `t4` and, for a zero `window_cfg`, `t5` and `t6`. -/
def loaded (L : Image) (mem : Word → Word) (f : Word) (r : Reg) (v : Word) : Word :=
  if r = t2 then mem (f + slot portWindowCfgOffset)
  else if r = t4 then f
  else if mem (f + slot portWindowCfgOffset) = 0 then
    if r = t5 then L.addr .portWindowKernelStageCount
    else if r = t6 then mem (L.addr .portWindowKernelStageCount) + 1
    else v
  else v

/-- `gp` and `tp`, which no frame has a word for. -/
def Global (r : Reg) : Prop := r = 3 ∨ r = 4

instance : DecidablePred Global := fun _ => inferInstanceAs (Decidable (_ ∨ _))

/-- The restore falls into the full path although the frame asks for the minimal one. -/
def InvalidMinimal (fh : FrameHead) : Prop := fh.contextType ≠ 0 ∧ fh.windowCfg = 0

instance (fh : FrameHead) : Decidable (InvalidMinimal fh) := inferInstanceAs (Decidable (_ ∧ _))

section
variable {H : Type} [Core H]

/-- What the full path, from label 4 on, does with the frame at `f`. -/
structure FullRestored (L : Image) (f : Word) (m m' : Machine H) : Prop where
  mepc : m'.mepc = m.mem (f + slot 0)
  mstatus : m'.mstatus = m.mem (f + slot 1)
  nesting : m'.mem (L.addr .xCriticalNesting) = m.mem (f + slot 30)
  staged : staged m'.core = m.mem (f + slot 31)
  sp : m'.x sp = f + portContextSize
  gprs : ∀ g ∈ lowGprs ++ highGprs, m'.x g.1 = loaded L m.mem f g.1 (m.mem (f + slot g.2))
  globals : ∀ r, Global r → m'.x r = m.x r
  mem_other : ∀ a, a ≠ L.addr .xCriticalNesting →
    a ≠ L.addr .portWindowKernelBorrowRestores → a ≠ L.addr .portWindowKernelStageCount →
    m'.mem a = m.mem a

/-- What `portcontextRESTORE_CONTEXT` has done at its `mret` with the frame at `f`. -/
structure Restored (L : Image) (f : Word) (m m' : Machine H) : Prop where
  mepc : m'.mepc = (headAt m.mem f).pc
  mstatus : m'.mstatus = (headAt m.mem f).mstatus
  nesting : m'.mem (L.addr .xCriticalNesting) = (headAt m.mem f).nesting
  flag : m'.mem (L.addr .portCurrentTaskWindowBase) = (headAt m.mem f).windowCfg &&& 0xFFFF#32
  staged : Core.staged m'.core = (headAt m.mem f).windowCfg
  sp : m'.x sp = f + portContextSize
  invalid : m'.mem (L.addr .portWindowInvalidMinimalRestore) =
    m.mem (L.addr .portWindowInvalidMinimalRestore) +
      if InvalidMinimal (headAt m.mem f) then 1 else 0
  gprs : (headAt m.mem f).contextType = 0 ∨ (headAt m.mem f).windowCfg = 0 →
    ∀ g ∈ lowGprs ++ highGprs, m'.x g.1 = loaded L m.mem f g.1 (m.mem (f + slot g.2))
  /-- What the minimal path leaves in the `t0` of the window it runs in. -/
  scratch : (headAt m.mem f).contextType ≠ 0 → (headAt m.mem f).windowCfg ≠ 0 →
    m'.x t0 = (headAt m.mem f).nesting
  globals : ∀ r, Global r → m'.x r = m.x r
  mem_other : ∀ a, (∀ s ∈ restoreWrites, a ≠ L.addr s) → m'.mem a = m.mem a

end

/-- The part of the full path before the register loads. -/
def fullLoadHead : List Instr :=
  [.loadX t0 (slot 0) sp,
   .csrw .mepc t0,
   .loadX t3 (slot 1) sp,
   .csrw .mstatus t3,
   .loadX t0 (slot portCriticalNestingOffset) sp,
   .loadSym t1 .pxCriticalNesting,
   .storeX t0 0 t1]

/-- The part after them. -/
def fullLoadTail : List Instr :=
  [.addi sp sp portContextSize,
   .addi t4 sp (-portContextSize),
   .loadX t2 (slot portWindowCfgOffset) t4]

theorem fullLoad_eq :
    fullLoad = fullLoadHead ++ (loadGprs (lowGprs ++ highGprs) ++ fullLoadTail) := rfl

theorem run_countOne (L : Image) (m : Machine Flat) (s : Sym) :
    m.run L (countOne s) = (((m.setX t5 (L.addr s)).setX t6 (m.mem (L.addr s))).setX t6
      (m.mem (L.addr s) + 1)).store (L.addr s) (m.mem (L.addr s) + 1) := by
  simp [countOne]

theorem run_fullLoadHead (L : Image) (m : Machine Flat) {f : Word} (hsp : m.x sp = f)
    (hp : m.mem (L.addr .pxCriticalNesting) = L.addr .xCriticalNesting) :
    (m.run L fullLoadHead).mepc = m.mem (f + slot 0) ∧
    (m.run L fullLoadHead).mstatus = m.mem (f + slot 1) ∧
    (m.run L fullLoadHead).mem =
      Function.update m.mem (L.addr .xCriticalNesting) (m.mem (f + slot 30)) ∧
    (m.run L fullLoadHead).x sp = f ∧
    ∀ r, Global r → (m.run L fullLoadHead).x r = m.x r := by
  have hsp' : m.x 2 = f := hsp
  refine ⟨?_, ?_, ?_, ?_, ?_⟩
  · simp [fullLoadHead, hsp', hp]
  · simp [fullLoadHead, hsp', hp]
  · simp [fullLoadHead, hsp', hp, mem_store]
  · simp [fullLoadHead, hsp', hp]
  · rintro r (rfl | rfl) <;> simp [fullLoadHead]

theorem run_fullLoadTail (L : Image) (m : Machine Flat) {f : Word} (hsp : m.x sp = f) :
    (m.run L fullLoadTail).mepc = m.mepc ∧ (m.run L fullLoadTail).mstatus = m.mstatus ∧
    (m.run L fullLoadTail).mem = m.mem ∧
    ∀ r, (m.run L fullLoadTail).x r = if r = t2 then m.mem (f + slot portWindowCfgOffset)
      else if r = t4 then f else if r = sp then f + portContextSize else m.x r := by
  have hsp' : m.x 2 = f := hsp
  have hback : f + portContextSize + -portContextSize = f := pushed_of_add f
  refine ⟨by simp [fullLoadTail], by simp [fullLoadTail], by simp [fullLoadTail], fun r => ?_⟩
  by_cases h2 : r = 2
  · simp [fullLoadTail, hsp', hback, h2]
  · simp [fullLoadTail, hsp', hback, h2]

theorem run_fullLoad (L : Image) (m : Machine Flat) {h f : Word} (hsp : m.x sp = f)
    (hin : InStack L h f) (hp : m.mem (L.addr .pxCriticalNesting) = L.addr .xCriticalNesting) :
    (m.run L fullLoad).mepc = m.mem (f + slot 0) ∧
    (m.run L fullLoad).mstatus = m.mem (f + slot 1) ∧
    (m.run L fullLoad).mem =
      Function.update m.mem (L.addr .xCriticalNesting) (m.mem (f + slot 30)) ∧
    (m.run L fullLoad).x sp = f + portContextSize ∧
    (m.run L fullLoad).x t2 = m.mem (f + slot portWindowCfgOffset) ∧
    (∀ r, Global r → (m.run L fullLoad).x r = m.x r) ∧
    ∀ g ∈ lowGprs ++ highGprs, (m.run L fullLoad).x g.1 =
      if g.1 = t2 then m.mem (f + slot portWindowCfgOffset)
      else if g.1 = t4 then f else m.mem (f + slot g.2) := by
  have hfacts : ∀ g ∈ lowGprs ++ highGprs, g.2 < 33 ∧ g.1 ≠ 2 := by decide
  rw [fullLoad_eq, run_append, run_append]
  obtain ⟨hmepc, hmstatus, hmem, hsp1, hglob⟩ := run_fullLoadHead L m hsp hp
  generalize m.run L fullLoadHead = n at *
  obtain ⟨hmem2, hmepc2, hmstatus2, -⟩ := run_loadGprs L n (lowGprs ++ highGprs)
  have hsp2 := (x_loadGprs_other L n (lowGprs ++ highGprs) (r := sp) (by decide)).trans hsp1
  have hglob2 : ∀ r, Global r → (n.run L (loadGprs (lowGprs ++ highGprs))).x r = m.x r := by
    rintro r hr
    refine (x_loadGprs_other L n _ ?_).trans (hglob r hr)
    revert r
    decide
  have hload : ∀ g ∈ lowGprs ++ highGprs,
      (n.run L (loadGprs (lowGprs ++ highGprs))).x g.1 = n.mem (f + slot g.2) := by
    intro g hg
    have := x_loadGprs L n (by decide) (by decide) (by decide) hg
    rwa [hsp1] at this
  generalize n.run L (loadGprs (lowGprs ++ highGprs)) = q at *
  obtain ⟨hmepc3, hmstatus3, hmem3, hx⟩ := run_fullLoadTail L q hsp2
  -- the restored nesting count is the only word written, and no frame word is it
  have hslot : ∀ k < 33, q.mem (f + slot k) = m.mem (f + slot k) := by
    intro k hk
    rw [hmem2, hmem, Function.update_of_ne (hin.ne_sym hk _)]
  refine ⟨hmepc3.trans (hmepc2.trans hmepc), hmstatus3.trans (hmstatus2.trans hmstatus),
    hmem3.trans (hmem2.trans hmem), ?_, ?_, fun r hr => ?_, fun g hg => ?_⟩
  · rw [hx]; simp
  · rw [hx, if_pos rfl, hslot _ (by decide)]
  · rw [hx, ← hglob2 r hr]
    rcases hr with rfl | rfl <;> simp
  · rw [hx, hload g hg, ← hmem2, hslot _ (hfacts g hg).1, hslot _ (by decide)]
    simp [(hfacts g hg).2]

/-- The full path, with the counting of kernel-window restores at label 7. -/
theorem fullRestore_spec (L : Image) (m : Machine Flat) {h f : Word} (hsp : m.x sp = f)
    (hin : InStack L h f) (hp : m.mem (L.addr .pxCriticalNesting) = L.addr .xCriticalNesting) :
    FullRestored L f m (fullRestore L m) := by
  have hfacts : ∀ g ∈ lowGprs ++ highGprs, g.1 ≠ 0 ∧ g.1 ≠ 2 := by decide
  obtain ⟨hmepc, hmstatus, hmem, hsp', ht2, hglob, hgprs⟩ := run_fullLoad L m hsp hin hp
  obtain ⟨n, hn⟩ : ∃ n, n = m.run L fullLoad := ⟨_, rfl⟩
  rw [← hn] at hmepc hmstatus hmem hsp' ht2 hglob hgprs
  simp only [fullRestore, ← hn, ht2]
  have hx2 : n.x 2 = f + portContextSize := hsp'
  have hx7 : n.x 7 = m.mem (f + slot 31) := ht2
  by_cases hc : m.mem (f + slot portWindowCfgOffset) = 0
  · rw [if_pos hc]
    have hc' : m.mem (f + slot 31) = 0 := hc
    simp only [run_countOne]
    constructor
    case gprs =>
      intro g hg
      obtain ⟨h0, -⟩ := hfacts g hg
      by_cases h7 : g.1 = 7
      · simp [loaded, h7, hx7]
      by_cases h29 : g.1 = 29
      · have := hgprs g hg
        simp [loaded, h29] at this ⊢
        exact this
      · have := hgprs g hg
        simp [loaded, h7, h29, hc', hmem] at this ⊢
        by_cases h30 : g.1 = 30
        · simp [h30]
        · by_cases h31 : g.1 = 31 <;> simp [h30, h31, this]
    case globals =>
      intro r hr
      rw [← hglob r hr]
      rcases hr with rfl | rfl <;> simp
    case mem_other =>
      intro a h1 h2 h3
      simp [h2, h3, hmem, h1]
    all_goals simp [hmepc, hmstatus, hmem, hx2, hx7]
  · rw [if_neg hc]
    constructor
    case gprs =>
      intro g hg
      have hx : (n.run L [.csrw .windowStaged t2]).x g.1 = n.x g.1 := by simp
      rw [hx, hgprs g hg, loaded, if_neg hc]
    case globals =>
      intro r hr
      simpa using hglob r hr
    case mem_other =>
      intro a h1 _ _
      simp [hmem, h1]
    all_goals simp [hmepc, hmstatus, hmem, hx2, hx7]

/-- The code up to the branches: the window flag is the only word written. -/
theorem run_restoreHead (L : Image) (m : Machine Flat) {f : Word} (hr : FreeFrame L f)
    (hf : m.mem (m.mem (L.addr .pxCurrentTCB)) = f) :
    (m.run L restoreHead).mem = Function.update m.mem (L.addr .portCurrentTaskWindowBase)
      (m.mem (f + slot 31) &&& 0xFFFF#32) ∧
    (m.run L restoreHead).x sp = f ∧ (m.run L restoreHead).x t2 = m.mem (f + slot 32) ∧
    ∀ r, Global r → (m.run L restoreHead).x r = m.x r := by
  have hs := fun (k : Nat) (hk : k < 33) =>
    L.ne_addr_of_free (hr k hk) .portCurrentTaskWindowBase
  refine ⟨?_, ?_, ?_, ?_⟩
  · simp [restoreHead, hf, mem_store]
  · simp [restoreHead, hf]
  · simp [restoreHead, hf, hs]
  · rintro r (rfl | rfl) <;> simp [restoreHead]

/-- Label 3: the head words are restored, no general-purpose register is. -/
theorem run_minimalRestore (L : Image) (m : Machine Flat) {f : Word} (hsp : m.x sp = f)
    (hp : m.mem (L.addr .pxCriticalNesting) = L.addr .xCriticalNesting) :
    (m.run L minimalRestore).mepc = m.mem (f + slot 0) ∧
    (m.run L minimalRestore).mstatus = m.mem (f + slot 1) ∧
    (m.run L minimalRestore).mem =
      Function.update m.mem (L.addr .xCriticalNesting) (m.mem (f + slot 30)) ∧
    (m.run L minimalRestore).core.staged = m.mem (f + slot 31) ∧
    (m.run L minimalRestore).x sp = f + portContextSize ∧
    (m.run L minimalRestore).x t0 = m.mem (f + slot 30) ∧
    ∀ r, Global r → (m.run L minimalRestore).x r = m.x r := by
  have hsp' : m.x 2 = f := hsp
  refine ⟨?_, ?_, ?_, ?_, ?_, ?_, ?_⟩
  · simp [minimalRestore, hsp', hp]
  · simp [minimalRestore, hsp', hp]
  · simp [minimalRestore, hsp', hp, mem_store]
  · simp [minimalRestore, hsp', hp]
  · simp [minimalRestore, hsp', hp]
  · simp [minimalRestore, hsp', hp]
  · rintro r (rfl | rfl) <;> simp [minimalRestore]

theorem FullRestored.restored {L : Image} {h f : Word} {m n m' : Machine Flat}
    (hfull : FullRestored L f n m') (hin : InStack L h f)
    (hc : (headAt m.mem f).contextType = 0 ∨ (headAt m.mem f).windowCfg = 0)
    (hflag : n.mem (L.addr .portCurrentTaskWindowBase) = (headAt m.mem f).windowCfg &&& 0xFFFF#32)
    (hinvalid : n.mem (L.addr .portWindowInvalidMinimalRestore) =
      m.mem (L.addr .portWindowInvalidMinimalRestore) +
        if InvalidMinimal (headAt m.mem f) then 1 else 0)
    (hother : ∀ a, a ≠ L.addr .portCurrentTaskWindowBase →
      a ≠ L.addr .portWindowInvalidMinimalRestore → n.mem a = m.mem a)
    (hglob : ∀ r, Global r → n.x r = m.x r) :
    Restored L f m m' := by
  have hslot : ∀ k < 33, n.mem (f + slot k) = m.mem (f + slot k) := fun k hk =>
    hother _ (hin.ne_sym hk _) (hin.ne_sym hk _)
  have hcount : n.mem (L.addr .portWindowKernelStageCount) =
      m.mem (L.addr .portWindowKernelStageCount) := hother _ (by simp) (by simp)
  have hfacts : ∀ g ∈ lowGprs ++ highGprs, g.2 < 33 := by decide
  constructor
  case gprs =>
    intro _ g hg
    rw [hfull.gprs g hg, hslot _ (hfacts g hg), loaded, hslot _ (by decide), hcount]
    rfl
  case scratch =>
    intro htype hcfg
    rcases hc with hc | hc <;> contradiction
  case mem_other =>
    intro a ha
    simp only [restoreWrites, List.mem_cons, List.not_mem_nil, or_false, forall_eq_or_imp,
      forall_eq] at ha
    obtain ⟨h1, h2, h3, h4, h5⟩ := ha
    rw [hfull.mem_other a h1 h4 h5, hother a h2 h3]
  case flag => rw [hfull.mem_other _ (by simp) (by simp) (by simp), hflag]
  case invalid => rw [hfull.mem_other _ (by simp) (by simp) (by simp), hinvalid]
  case mepc => exact hfull.mepc.trans (hslot 0 (by omega))
  case mstatus => exact hfull.mstatus.trans (hslot 1 (by omega))
  case nesting => exact hfull.nesting.trans (hslot 30 (by omega))
  case staged => exact hfull.staged.trans (hslot 31 (by omega))
  case sp => exact hfull.sp
  case globals => exact fun r hr => (hfull.globals r hr).trans (hglob r hr)

/-- Every path of `portcontextRESTORE_CONTEXT`. -/
theorem portcontextRestoreContext_flat (L : Image) (m : Machine Flat) {h f : Word}
    (hr : Room L m.mem h f) (hf : m.mem (m.mem (L.addr .pxCurrentTCB)) = f)
    (hp : m.mem (L.addr .pxCriticalNesting) = L.addr .xCriticalNesting) :
    Restored L f m (portcontextRestoreContext L m) := by
  obtain ⟨hmem, hsp, ht2, hglob⟩ := run_restoreHead L m hr.stack.free hf
  obtain ⟨n, hn⟩ : ∃ n, n = m.run L restoreHead := ⟨_, rfl⟩
  rw [← hn] at hmem hsp ht2 hglob
  have hsp' : n.x 2 = f := hsp
  have hslot : ∀ k < 33, n.mem (f + slot k) = m.mem (f + slot k) := by
    intro k hk
    rw [hmem, Function.update_of_ne (hr.stack.ne_sym hk _)]
  have hp' : n.mem (L.addr .pxCriticalNesting) = L.addr .xCriticalNesting := by
    simp [hmem, hp]
  simp only [portcontextRestoreContext, ← hn, ht2]
  by_cases htype : m.mem (f + slot 32) = 0
  · rw [if_pos htype]
    have hok : ¬ InvalidMinimal (headAt m.mem f) := fun h => h.1 htype
    refine (fullRestore_spec L n hsp hr.stack hp').restored hr.stack (Or.inl htype) ?_ ?_ ?_ hglob
    · simp [hmem, headAt]
    · simp [hmem, hok]
    · intro a ha _
      simp [hmem, ha]
  · rw [if_neg htype]
    have hcfg : (n.run L [.loadX t4 (slot portWindowCfgOffset) sp]).x t4 =
        m.mem (f + slot 31) := by
      simp [hsp', hslot]
    rw [hcfg]
    by_cases hc : m.mem (f + slot 31) = 0
    · have hbad : InvalidMinimal (headAt m.mem f) := ⟨htype, hc⟩
      simp only [hc, ne_eq, not_true_eq_false, if_false, run_countOne]
      refine (fullRestore_spec L _ (by simp [hsp']) hr.stack (by simp [hp'])).restored
        hr.stack (Or.inr hc) ?_ ?_ ?_ ?_
      · simp [hmem, headAt]
      · simp [hmem, hbad]
      · intro a ha hb
        simp [hmem, ha, hb]
      · intro r hr
        rw [← hglob r hr]
        rcases hr with rfl | rfl <;> simp
    · have hok : ¬ InvalidMinimal (headAt m.mem f) := fun h => hc h.2
      have hmin := run_minimalRestore L (n.run L [.loadX t4 (slot portWindowCfgOffset) sp])
        (f := f) (by simp [hsp']) (by simp [hp'])
      simp only [hc, ne_eq, not_false_eq_true, if_true]
      obtain ⟨hmepc, hmstatus, hmem', hstaged, hsp2, ht0, hglob2⟩ := hmin
      have hmemn : (n.run L [.loadX t4 (slot portWindowCfgOffset) sp]).mem = n.mem := by simp
      rw [hmemn] at hmepc hmstatus hmem' hstaged ht0
      rw [hslot _ (by omega)] at hmepc hmstatus hmem' hstaged ht0
      constructor
      case gprs =>
        intro h
        exact absurd h (not_or.mpr ⟨htype, hc⟩)
      case mem_other =>
        intro a ha
        simp only [restoreWrites, List.mem_cons, List.not_mem_nil, or_false, forall_eq_or_imp,
          forall_eq] at ha
        rw [hmem']
        simp [hmem, ha]
      case mepc => exact hmepc
      case mstatus => exact hmstatus
      case nesting => rw [hmem', Function.update_self]; rfl
      case flag => rw [hmem']; simp [hmem, headAt]
      case staged => exact hstaged
      case sp => exact hsp2
      case invalid => rw [hmem']; simp [hmem, hok]
      case scratch => exact fun _ _ => ht0
      case globals =>
        intro r hr
        rw [hglob2 r hr, ← hglob r hr]
        rcases hr with rfl | rfl <;> simp

section
variable {H : Type} [WindowedCore H] [LawfulCore H]

theorem kernelRun_fullRestore (L : Image) {m m' : Machine H} {n : Machine Flat}
    (hrun : KernelRun m m' n) : KernelRun m (fullRestore L m') (fullRestore L n) := by
  have hload := hrun.andThen L fullLoad
  simp only [fullRestore, hload.x_eq]
  refine KernelRun.andThen L ?_ _
  split
  · exact (hload.andThen L _).andThen L _
  · exact hload

theorem kernelRun_restore (L : Image) {m : Machine H} (hk : m.Kernel) :
    KernelRun m (portcontextRestoreContext L m) (portcontextRestoreContext L m.view) := by
  have hhead := KernelRun.block L hk restoreHead
  simp only [portcontextRestoreContext, hhead.x_eq,
    (hhead.andThen L [.loadX t4 (slot portWindowCfgOffset) sp]).x_eq]
  split
  · exact kernelRun_fullRestore L hhead
  · split
    · exact (hhead.andThen L _).andThen L _
    · exact kernelRun_fullRestore L ((hhead.andThen L _).andThen L _)

theorem Restored.of_view {L : Image} {f : Word} {m m' : Machine H}
    (hs : Restored L f m.view m'.view) : Restored L f m m' := by
  have hsp := hs.sp
  have hgprs := hs.gprs
  have hscratch := hs.scratch
  have hglob := hs.globals
  simp only [view_x] at hsp hgprs hscratch hglob
  exact ⟨hs.mepc, hs.mstatus, hs.nesting, hs.flag, hs.staged, hsp, hs.invalid, hgprs, hscratch,
    hglob, hs.mem_other⟩

/-- What the restore macro loads of a frame when the kernel window is active. -/
theorem portcontextRestoreContext_spec (L : Image) {m : Machine H} (hk : m.Kernel) {h f : Word}
    (hr : Room L m.mem h f) (hf : m.mem (m.mem (L.addr .pxCurrentTCB)) = f)
    (hp : m.mem (L.addr .pxCriticalNesting) = L.addr .xCriticalNesting) :
    Restored L f m (portcontextRestoreContext L m) := by
  have hrun := kernelRun_restore L hk
  have hs := portcontextRestoreContext_flat L m.view hr hf hp
  rw [← hrun.view] at hs
  exact hs.of_view

end

end RegisterWindows.Port
