import RegisterWindows.Port.FpuFrame

namespace RegisterWindows.Port.Fpu
open Machine RegisterWindows.Core WindowedCore LawfulCore

section
variable {H : Type} [WindowedCore H] [LawfulCore H] {m m' : FpuMachine H}
  {n : FpuMachine Flat}

theorem fpuRun_fullRestore (L : Image) (h : FpuRun m m' n) :
    FpuRun m (fullRestore L m') (fullRestore L n) := by
  have hhead : FpuRun m (headRestore L m') (headRestore L n) := by
    have hfs := h.andThen L (ints headLoad ++ fsTest t3)
    simp only [headRestore, hfs.x_eq]
    split
    · exact hfs
    · exact hfs.andThen L _
  unfold fullRestore
  generalize headRestore L m' = q, headRestore L n = p at hhead
  have hloads := hhead.andThen L
    (ints (nestingLoad ++ loadGprs (lowGprs ++ highGprs) ++ fullLoadTail))
  simp only [hloads.x_eq]
  refine FpuRun.andThen L ?_ _
  split
  · exact hloads.andThen L _
  · exact hloads

theorem fpuRun_restore (L : Image) (hk : m.Kernel) :
    FpuRun m (portcontextRestoreContext L m) (portcontextRestoreContext L m.view) := by
  have hhead := (FpuRun.refl hk).andThen L (ints restoreHead)
  have hcfg := hhead.andThen L (ints [.loadX t4 (slot portWindowCfgOffset) sp])
  simp only [portcontextRestoreContext, hhead.x_eq, hcfg.x_eq]
  split
  · exact fpuRun_fullRestore L hhead
  · split
    · exact hcfg.andThen L _
    · exact fpuRun_fullRestore L (hcfg.andThen L _)

end

/-- Up to label 6 of the FPU block. -/
structure HeadRestored (f : Word) (m m' : FpuMachine Flat) : Prop where
  mem : m'.mem = m.mem
  sp : m'.x sp = if Dirty (m.mem (f + slot 1)) then f + portFpuContextSize else f
  fs : Dirty (m.mem (f + slot 1)) → ∀ i : FReg,
    m'.f i = m.mem (f + slot (portFpuRegSlot i))
  fcsr : Dirty (m.mem (f + slot 1)) →
    m'.fcsr = (m.mem (f + slot (portFpuRegSlot 32))).setWidth 8

theorem headRestore_spec (L : Image) (m : FpuMachine Flat) {f : Word}
    (hsp : m.x sp = f) : HeadRestored f m (headRestore L m) := by
  have hsp' : m.x 2 = f := hsp
  obtain ⟨q, hq⟩ : ∃ q, q = m.run L (ints headLoad) := ⟨_, rfl⟩
  have hqint : q.toMachine = m.toMachine.run L headLoad := by rw [hq, FpuMachine.run_ints]
  have hqmem : q.mem = m.mem := by simp [hqint, headLoad]
  have hqt3 : q.x t3 = m.mem (f + slot 1) := by simp [hqint, headLoad, hsp']
  have hqsp : q.x sp = f := by simp [hqint, headLoad, hsp']
  obtain ⟨hregs, htest, hx⟩ := run_fsTest L q t3
  rw [hqt3] at htest
  have hfs : m.run L (ints headLoad ++ fsTest t3) = q.run L (fsTest t3) := by
    rw [FpuMachine.run_append, hq]
  simp only [headRestore, hfs]
  generalize q.run L (fsTest t3) = p at hregs htest hx ⊢
  have hpsp : p.x sp = f := (hx sp (by decide) (by decide)).trans hqsp
  have hpmem : p.mem = m.mem := hregs.mem.trans hqmem
  by_cases hd : Dirty (m.mem (f + slot 1))
  · rw [if_neg (fun hne => htest.mp hne hd), portcontextRestoreFpuContext, FpuMachine.run_append]
    obtain ⟨hrest, hf⟩ := run_loadFs L p (List.finRange 32)
    simp only [List.mem_finRange, if_true, hpsp, hpmem] at hf
    have hcore : (p.run L (loadFs (List.finRange 32))).core = p.core := by rw [hrest]
    have hmem : (p.run L (loadFs (List.finRange 32))).mem = m.mem := by rw [hrest, ← hpmem]
    generalize p.run L (loadFs (List.finRange 32)) = n at hf hcore hmem ⊢
    have hnsp : n.x 2 = f := by
      rw [Machine.x, hcore]
      exact hpsp
    refine ⟨?_, ?_, fun _ i => hf i, fun _ => ?_⟩
    · simp [FpuMachine.run, FpuMachine.exec, hmem]
    · simp [FpuMachine.run, FpuMachine.exec, hnsp, hd]
    · simp [FpuMachine.run, FpuMachine.exec, hnsp, hmem, portFpuRegOffset]
  · rw [if_pos (htest.mpr hd)]
    exact ⟨hpmem, by rw [if_neg hd, hpsp], fun h => absurd h hd, fun h => absurd h hd⟩

theorem mem_countOne (L : Image) (m : Machine Flat) {counter : Sym} {a : Word}
    (ha : a ≠ L.addr counter) : (m.run L (countOne counter)).mem a = m.mem a := by
  rw [run_countOne, mem_store_of_ne _ _ ha]
  rfl

theorem x_countBoth (L : Image) (m : Machine Flat) (r : Reg) :
    (m.run L (countOne .portWindowKernelBorrowRestores ++ countOne .portWindowKernelStageCount)).x
      r = if r = t5 then L.addr .portWindowKernelStageCount
        else if r = t6 then m.mem (L.addr .portWindowKernelStageCount) + 1 else m.x r := by
  rw [Machine.run_append, run_countOne, run_countOne]
  by_cases h5 : r = 30
  · simp [h5]
  · by_cases h6 : r = 31 <;> simp [h5, h6]

theorem run_gprLoad (L : Image) (m : Machine Flat) {b : Word} (hsp : m.x sp = b)
    (hp : m.mem (L.addr .pxCriticalNesting) = L.addr .xCriticalNesting) :
    (m.run L (nestingLoad ++ loadGprs (lowGprs ++ highGprs) ++ fullLoadTail)).mem =
      Function.update m.mem (L.addr .xCriticalNesting) (m.mem (b + slot 30)) ∧
    (FreeFrame L b →
      (m.run L (nestingLoad ++ loadGprs (lowGprs ++ highGprs) ++ fullLoadTail)).x t2 =
        m.mem (b + slot portWindowCfgOffset) ∧
      (m.run L (nestingLoad ++ loadGprs (lowGprs ++ highGprs) ++ fullLoadTail)).x sp =
        b + portContextSize ∧
      ∀ g ∈ lowGprs ++ highGprs,
        (m.run L (nestingLoad ++ loadGprs (lowGprs ++ highGprs) ++ fullLoadTail)).x g.1 =
          if g.1 = t2 then m.mem (b + slot portWindowCfgOffset)
          else if g.1 = t4 then b else m.mem (b + slot g.2)) := by
  have hsp' : m.x 2 = b := hsp
  have hfacts : ∀ g ∈ lowGprs ++ highGprs, g.2 < 33 ∧ g.1 ≠ 2 := by decide
  rw [run_append, run_append]
  obtain ⟨n, hn⟩ : ∃ n, n = m.run L nestingLoad := ⟨_, rfl⟩
  have hnmem : n.mem = Function.update m.mem (L.addr .xCriticalNesting) (m.mem (b + slot 30)) := by
    simp [hn, nestingLoad, hsp', hp, mem_store]
  have hnsp : n.x sp = b := by simp [hn, nestingLoad, hsp']
  rw [← hn]
  obtain ⟨hqmem, -⟩ := run_loadGprs L n (lowGprs ++ highGprs)
  have hqsp := (x_loadGprs_other L n (lowGprs ++ highGprs) (r := sp) (by decide)).trans hnsp
  have hload : ∀ g ∈ lowGprs ++ highGprs,
      (n.run L (loadGprs (lowGprs ++ highGprs))).x g.1 = n.mem (b + slot g.2) := by
    intro g hg
    have := x_loadGprs L n (by decide) (by decide) (by decide) hg
    rwa [hnsp] at this
  generalize n.run L (loadGprs (lowGprs ++ highGprs)) = q at *
  obtain ⟨-, -, hmem, hx⟩ := run_fullLoadTail L q hqsp
  refine ⟨hmem.trans (hqmem.trans hnmem), fun hin => ?_⟩
  have hslot : ∀ k < 33, n.mem (b + slot k) = m.mem (b + slot k) := by
    intro k hk
    rw [hnmem, Function.update_of_ne (L.ne_addr_of_free (hin k hk) _)]
  refine ⟨?_, ?_, fun g hg => ?_⟩
  · rw [hx, if_pos rfl, hqmem, hslot _ (by decide)]
  · rw [hx]
    simp
  · rw [hx, hload g hg, hqmem, hslot _ (hfacts g hg).1, hslot _ (by decide)]
    simp [(hfacts g hg).2]

/-- What the restore macro loads for a context at `f` that the trap handler has saved with the
FPU dirty: the integer registers come from a frame on top of the FPU context. -/
structure Restored (L : Image) (f : Word) {H : Type} [Core H] (m m' : FpuMachine H) :
    Prop where
  fs : ∀ i : FReg, m'.f i = m.mem (f + slot (portFpuRegSlot i))
  fcsr : m'.fcsr = (m.mem (f + slot (portFpuRegSlot 32))).setWidth 8
  staged : Core.staged m'.core =
    m.mem (f + portFpuContextSize + slot portWindowCfgOffset)
  sp : m'.x sp = f + portFpuContextSize + portContextSize
  gprs : ∀ g ∈ lowGprs ++ highGprs, m'.x g.1 = loaded L m.mem (f + portFpuContextSize) g.1
    (m.mem (f + portFpuContextSize + slot g.2))

theorem mem_fullRestore (L : Image) (m : FpuMachine Flat) {f : Word}
    (hsp : m.x sp = f) (hp : m.mem (L.addr .pxCriticalNesting) = L.addr .xCriticalNesting) {a : Word}
    (h1 : a ≠ L.addr .xCriticalNesting) (h2 : a ≠ L.addr .portWindowKernelBorrowRestores)
    (h3 : a ≠ L.addr .portWindowKernelStageCount) : (fullRestore L m).mem a = m.mem a := by
  have hhead := headRestore_spec L m hsp
  obtain ⟨n, hn⟩ : ∃ n, n = headRestore L m := ⟨_, rfl⟩
  rw [← hn] at hhead
  obtain ⟨b, hb⟩ : ∃ b, n.x sp = b := ⟨_, rfl⟩
  obtain ⟨hmem, -⟩ := run_gprLoad L n.toMachine hb (by rw [hhead.mem]; exact hp)
  simp only [fullRestore, ← hn, FpuMachine.run_ints]
  generalize n.toMachine.run L (nestingLoad ++ loadGprs (lowGprs ++ highGprs) ++ fullLoadTail) = q
    at hmem ⊢
  have hqa : q.mem a = m.mem a := by rw [hmem, Function.update_of_ne h1, hhead.mem]
  have hstage : ∀ m : Machine Flat, (m.run L [.csrw .windowStaged t2]).mem a = m.mem a :=
    fun m => by simp
  split
  · refine (hstage _).trans ?_
    rw [Machine.run_append, mem_countOne L _ h3, mem_countOne L _ h2]
    exact hqa
  · exact (hstage _).trans hqa

theorem fullRestore_spec (L : Image) (m : FpuMachine Flat) {f : Word}
    (hsp : m.x sp = f) (hd : Dirty (m.mem (f + slot 1)))
    (hin : FreeFrame L (f + portFpuContextSize))
    (hp : m.mem (L.addr .pxCriticalNesting) = L.addr .xCriticalNesting) :
    Restored L f m (fullRestore L m) := by
  have hfacts : ∀ g ∈ lowGprs ++ highGprs, g.1 ≠ 0 ∧ g.1 ≠ 2 := by decide
  have hhead := headRestore_spec L m hsp
  obtain ⟨n, hn⟩ : ∃ n, n = headRestore L m := ⟨_, rfl⟩
  rw [← hn] at hhead
  obtain ⟨b, hb⟩ : ∃ b, b = f + portFpuContextSize := ⟨_, rfl⟩
  have hnsp : n.x sp = b := by rw [hhead.sp, if_pos hd, hb]
  obtain ⟨hmem, hrest⟩ := run_gprLoad L n.toMachine hnsp (by rw [hhead.mem]; exact hp)
  obtain ⟨ht2, hsp', hgprs⟩ := hrest (hb ▸ hin)
  rw [hhead.mem] at ht2 hgprs hmem
  have hfs := hhead.fs hd
  have hfcsr := hhead.fcsr hd
  simp only [fullRestore, ← hn, FpuMachine.run_ints]
  generalize n.toMachine.run L (nestingLoad ++ loadGprs (lowGprs ++ highGprs) ++ fullLoadTail) = q
    at *
  have hstage : ∀ m : Machine Flat, (m.run L [.csrw .windowStaged t2]).core.staged = m.x t2 ∧
      ∀ r, (m.run L [.csrw .windowStaged t2]).x r = m.x r := fun m => by simp
  by_cases hc : m.mem (b + slot portWindowCfgOffset) = 0
  · rw [if_pos (ht2.trans hc)]
    obtain ⟨hstaged, hx⟩ := hstage (q.run L (countOne .portWindowKernelBorrowRestores ++
      countOne .portWindowKernelStageCount))
    have hcount : q.mem (L.addr .portWindowKernelStageCount) =
        m.mem (L.addr .portWindowKernelStageCount) := by
      rw [hmem, Function.update_of_ne (by simp)]
    constructor
    case fs => exact hfs
    case fcsr => exact hfcsr
    case staged =>
      rw [← hb]
      refine hstaged.trans ?_
      rw [x_countBoth, if_neg (by decide), if_neg (by decide), ht2]
    case sp =>
      rw [← hb]
      refine (hx sp).trans ?_
      rw [x_countBoth, if_neg (by decide), if_neg (by decide), hsp']
    case gprs =>
      intro g hg
      rw [← hb]
      refine (hx g.1).trans ?_
      rw [x_countBoth, hgprs g hg, hcount, loaded, if_pos hc]
      by_cases h7 : g.1 = 7
      · simp [h7]
      · by_cases h29 : g.1 = 29 <;> simp [h7, h29]
  · rw [if_neg fun h => hc (ht2.symm.trans h)]
    obtain ⟨hstaged, hx⟩ := hstage q
    constructor
    case fs => exact hfs
    case fcsr => exact hfcsr
    case staged => exact hb ▸ hstaged.trans ht2
    case sp => exact hb ▸ (hx sp).trans hsp'
    case gprs =>
      intro g hg
      rw [← hb]
      refine (hx g.1).trans ?_
      rw [hgprs g hg, loaded, if_neg hc]

theorem mem_restore_flat (L : Image) (m : FpuMachine Flat)
    (hp : m.mem (L.addr .pxCriticalNesting) = L.addr .xCriticalNesting) {a : Word}
    (ha : ∀ s ∈ restoreWrites, a ≠ L.addr s) :
    (portcontextRestoreContext L m).mem a = m.mem a := by
  simp only [restoreWrites, List.mem_cons, List.not_mem_nil, or_false, forall_eq_or_imp,
    forall_eq] at ha
  obtain ⟨h1, h2, h3, h4, h5⟩ := ha
  obtain ⟨n, hn⟩ : ∃ n, n = m.run L (ints restoreHead) := ⟨_, rfl⟩
  have hnint : n.toMachine = m.toMachine.run L restoreHead := by rw [hn, FpuMachine.run_ints]
  have hnmem : ∀ b, b ≠ L.addr .portCurrentTaskWindowBase → n.mem b = m.mem b := by
    intro b hb
    simp [hnint, restoreHead, hb]
  have hnp : n.mem (L.addr .pxCriticalNesting) = L.addr .xCriticalNesting :=
    (hnmem _ (by simp)).trans hp
  simp only [portcontextRestoreContext, ← hn]
  split
  · exact (mem_fullRestore L n rfl hnp h1 h4 h5).trans (hnmem a h2)
  · obtain ⟨q, hq⟩ : ∃ q, q = n.run L (ints [.loadX t4 (slot portWindowCfgOffset) sp]) := ⟨_, rfl⟩
    have hqmem : q.mem = n.mem := by
      rw [hq]
      rfl
    rw [← hq]
    split
    · obtain ⟨-, -, hmin, -⟩ := run_minimalRestore L q.toMachine rfl (by rw [hqmem]; exact hnp)
      rw [FpuMachine.run_ints]
      refine (congrFun hmin a).trans ?_
      rw [Function.update_of_ne h1, hqmem, hnmem a h2]
    · obtain ⟨r, hr⟩ : ∃ r, r = q.run L (ints (countOne .portWindowInvalidMinimalRestore)) :=
        ⟨_, rfl⟩
      have hrmem : ∀ b, b ≠ L.addr .portWindowInvalidMinimalRestore → r.mem b = n.mem b := by
        intro b hb
        rw [hr, FpuMachine.run_ints, ← hqmem]
        exact mem_countOne L q.toMachine hb
      rw [← hr, mem_fullRestore L r rfl ((hrmem _ (by simp)).trans hnp) h1 h4 h5, hrmem a h3,
        hnmem a h2]

theorem portcontextRestoreContext_flat (L : Image) (m : FpuMachine Flat) {f : Word}
    (hf : m.mem (m.mem (L.addr .pxCurrentTCB)) = f)
    (hp : m.mem (L.addr .pxCriticalNesting) = L.addr .xCriticalNesting)
    (hfree : ∀ k < portFpuRegCount + 33, (L.region (f + slot k)).Free)
    (htype : m.mem (f + slot portContextTypeOffset) = 0) (hd : Dirty (m.mem (f + slot 1))) :
    Restored L f m (portcontextRestoreContext L m) := by
  obtain ⟨hmem, hsp, ht2, -⟩ := run_restoreHead L m.toMachine (fun k hk => hfree k (by omega)) hf
  obtain ⟨n, hn⟩ : ∃ n, n = m.run L (ints restoreHead) := ⟨_, rfl⟩
  have hnint : n.toMachine = m.toMachine.run L restoreHead := by rw [hn, FpuMachine.run_ints]
  rw [← hnint] at hmem hsp ht2
  have hword : ∀ k < portFpuRegCount + 33, n.mem (f + slot k) = m.mem (f + slot k) := by
    intro k hk
    rw [hmem, Function.update_of_ne (L.ne_addr_of_free (hfree k hk) _)]
  have hbase : ∀ k, f + portFpuContextSize + slot k = f + slot (portFpuRegCount + k) :=
    fun k => add_slot f _ k
  have hfull := fullRestore_spec L n hsp (by rw [hword 1 (by omega)]; exact hd)
    (fun k hk => by rw [hbase]; exact hfree _ (by omega))
    (by rw [hmem, Function.update_of_ne (by simp)]; exact hp)
  have hslots : ∀ g ∈ lowGprs ++ highGprs, g.2 < 33 := by decide
  have hcount : n.mem (L.addr .portWindowKernelStageCount) =
      m.mem (L.addr .portWindowKernelStageCount) := by
    rw [hmem, Function.update_of_ne (by simp)]
  simp only [portcontextRestoreContext, ← hn]
  rw [if_pos (ht2.trans htype)]
  constructor
  case fs =>
    intro i
    have hi := i.isLt
    rw [hfull.fs, hword _ (by simp only [portFpuRegSlot, portFpuRegCount]; omega)]
  case fcsr => rw [hfull.fcsr, hword _ (by decide)]
  case staged => rw [hfull.staged, hbase, hword _ (by simp)]
  case sp => exact hfull.sp
  case gprs =>
    intro g hg
    have hlt := hslots g hg
    rw [hfull.gprs g hg]
    simp only [loaded, hbase, hcount, hword _ (show portFpuRegCount + g.2 < _ by omega),
      hword _ (show portFpuRegCount + portWindowCfgOffset < portFpuRegCount + 33 by
        simp)]

section
variable {H : Type} [WindowedCore H] [LawfulCore H] {L : Image}
  {m m' : FpuMachine H}

theorem Restored.of_view {f : Word} (hs : Restored L f m.view m'.view) : Restored L f m m' := by
  have hsp := hs.sp
  have hgprs := hs.gprs
  simp only [FpuMachine.view_x] at hsp hgprs
  exact ⟨hs.fs, hs.fcsr, hs.staged, hsp, hgprs⟩

/-- What the restore macro of the FPU build loads. -/
theorem portcontextRestoreContext_spec (L : Image) {m : FpuMachine H} (hk : m.Kernel) {f : Word}
    (hf : m.mem (m.mem (L.addr .pxCurrentTCB)) = f)
    (hp : m.mem (L.addr .pxCriticalNesting) = L.addr .xCriticalNesting)
    (hfree : ∀ k < portFpuRegCount + 33, (L.region (f + slot k)).Free)
    (htype : m.mem (f + slot portContextTypeOffset) = 0) (hd : Dirty (m.mem (f + slot 1))) :
    Restored L f m (portcontextRestoreContext L m) := by
  have hs := portcontextRestoreContext_flat L m.view hf hp hfree htype hd
  rw [← (fpuRun_restore L hk).view] at hs
  exact hs.of_view

theorem mem_restore (L : Image) {m : FpuMachine H} (hk : m.Kernel)
    (hp : m.mem (L.addr .pxCriticalNesting) = L.addr .xCriticalNesting) {a : Word}
    (ha : ∀ s ∈ restoreWrites, a ≠ L.addr s) :
    (portcontextRestoreContext L m).mem a = m.mem a := by
  have hs := mem_restore_flat L m.view hp ha
  rw [← (fpuRun_restore L hk).view] at hs
  exact hs

end

theorem pxPortInitialiseStack_spec (L : Image) (mstatus : Word) (mem : Word → Word)
    (top pxCode params x7 : Word) :
    (pxPortInitialiseStack L mstatus mem top pxCode params x7).2 = pushed top ∧
    ∀ a, (∀ k ∈ initialisedSlots, a ≠ pushed top + slot k) →
      (pxPortInitialiseStack L mstatus mem top pxCode params x7).1 a = mem a := by
  obtain ⟨f, hf⟩ : ∃ f, f = pushed top := ⟨_, rfl⟩
  have htop : top = f + slot 33 := by rw [hf]; exact (pushed_add top).symm
  rw [← hf]
  simp only [pxPortInitialiseStack, htop]
  obtain ⟨m, hm⟩ : ∃ m : Machine Flat, m = ⟨⟨fun r => if r = a0 then f + slot 33
    else if r = a1 then pxCode else if r = a2 then params else if r = t2 then x7 else 0, 0⟩,
    0, 0, 0, mstatus, mem⟩ := ⟨_, rfl⟩
  rw [← hm]
  have h10 : m.x 10 = f + slot 33 := by rw [hm]; rfl
  have hmem : m.mem = mem := by rw [hm]
  -- the last word is reached as `f + slot 0`, which must not be cancelled to `f`
  refine ⟨?_, fun a ha => ?_⟩
  · simp [-add_neg_cancel_right, initialiseStack, h10, show slot 0 = 0#32 from rfl]
  · simp [initialisedSlots] at ha
    simp [-add_neg_cancel_right, initialiseStack, h10, hmem, ha]

end RegisterWindows.Port.Fpu
